import FlowFabric.Foundation.Ledger
import FlowFabric.Visible

/-! The attempt records of an execution: they are numbered without gaps, only the current
one can be open, and a finished execution has none that is. -/
namespace FlowFabric
open Foundation Store Client Attempt

def Attempt.isOpen (a : Attempt) : Prop := a.attemptState.ended = false

def Store.ledger (s : Store) (c : ExecCore) : Ledger Attempt := ⟨s.attempt,c.totalAttemptCount,c.currentAttemptIndex⟩

def ExecCore.engaged (c : ExecCore) : Prop :=
  c.lifecyclePhase = .active ∨ c.lifecyclePhase = .suspended ∨
    (c.lifecyclePhase = .runnable ∧ c.attemptState = .attemptInterrupted)

open ExecCore

/-- The records are in order. An execution that does not go on with its current attempt
has ended it. -/
structure AttemptsKept (s : Store) (c : ExecCore) : Prop where
  valid : (s.ledger c).Valid isOpen
  closed : ¬ c.engaged → (s.ledger c).Closed isOpen
  index : c.engaged → c.currentAttemptIndex.isSome
  begun : c.lifecyclePhase ≠ .terminal → (c.attemptState.begun ↔ c.engaged)

def Store.attemptsKept (s : Store) : Prop :=
  (s.core = none → ∀ i, s.attempt i = none) ∧ ∀ c, s.core = some c → AttemptsKept s c

/-- The attempt a caller has put into the keys, for the scripts that write its record. -/
def Op.attemptKey : Op → Option Nat
  | .claimResumed a => some a.keys.attemptIndex
  | .reclaim a => some a.keys.attemptIndex
  | .complete a => some a.keys.attemptIndex
  | .fail a => some a.keys.attemptIndex
  | .delay a => some a.keys.attemptIndex
  | .moveToWaitingChildren a => some a.keys.attemptIndex
  | .cancel a => some a.keys.attemptIndex
  | .expire a => some a.keys.attemptIndex
  | .suspend a => some a.keys.attemptIndex
  | .expireSuspension a => some a.keys.attemptIndex
  | .resolveDependency a => some a.keys.attemptIndex
  | _ => none

/-- The attempt key is that of the current attempt, if there is one. -/
def Op.keysAttempt (op : Op) (s : Store) : Bool :=
  s.core.all fun c => c.currentAttemptIndex.all fun index => op.attemptKey.all fun key => decide (key = index)

/-- The calls that leave no attempt behind: a claim whose policy unpacks, a reclaim below
the limit, and no cancellation or expiry of a runnable execution with a paused attempt. -/
def Op.endsAttempts (op : Op) (s : Store) : Bool :=
  match op with
  | .claim a => JsonText.unpacks a.attemptPolicyJson
  | .issueGrantAndClaim a => JsonText.unpacks a.attemptPolicyJson
  | .reclaim a => s.core.all fun c => !reclaimsExhausted a s c
  | .cancel _ | .expire _ =>
    s.core.all fun c => !decide (c.lifecyclePhase = .runnable ∧ c.attemptState = .attemptInterrupted)
  | _ => true

variable {op : Op} {s t : Store} {c c' : ExecCore} {now : Int}

theorem Store.attemptsKept.same (h : s.attemptsKept) (hc : t.core = s.core) (ha : t.attempt = s.attempt) :
    t.attemptsKept := by
  unfold attemptsKept
  rw [hc,ha]
  refine ⟨h.1,fun c hc => ?_⟩
  have hk := h.2 c hc
  have hl : t.ledger c = s.ledger c := by simp [ledger,ha]
  exact ⟨hl ▸ hk.valid,hl ▸ hk.closed,hk.index,hk.begun⟩

theorem Store.attemptsKept.of (ht : t.core = some c') (h : AttemptsKept t c') : t.attemptsKept := of_core ht h

theorem AttemptsKept.keep (h : AttemptsKept s c) (ha : t.attempt = s.attempt)
    (hn : c'.totalAttemptCount = c.totalAttemptCount) (hi : c'.currentAttemptIndex = c.currentAttemptIndex)
    (he : c'.engaged ↔ c.engaged)
    (hb : c'.lifecyclePhase ≠ .terminal → (c'.attemptState.begun ↔ c'.engaged)) : AttemptsKept t c' := by
  have hl : t.ledger c' = s.ledger c := by simp [ledger,ha,hn,hi]
  exact ⟨hl ▸ h.valid,fun hc => hl ▸ h.closed (mt he.mpr hc),fun hc => hi ▸ h.index (he.mp hc),hb⟩

theorem AttemptsKept.frame (h : AttemptsKept s c) (ha : t.attempt = s.attempt)
    (hn : c'.totalAttemptCount = c.totalAttemptCount) (hi : c'.currentAttemptIndex = c.currentAttemptIndex)
    (hp : c'.lifecyclePhase = c.lifecyclePhase) (hs : c'.attemptState = c.attemptState) : AttemptsKept t c' := by
  have he : c'.engaged ↔ c.engaged := by simp [engaged,hp,hs]
  refine h.keep ha hn hi he fun ht => ?_
  rw [hs,he]
  exact h.begun (hp ▸ ht)

variable {a : Nat → Attempt} {i : Option Nat} {key : Nat} {reason : String} {d : DependencyKeys}

theorem ledger_updateAttempt (hi : i = c.currentAttemptIndex)
    (ha : t.attempt = fun j => if i = some j then some (a j) else s.attempt j)
    (hn : c'.totalAttemptCount = c.totalAttemptCount)
    (hc : c'.currentAttemptIndex = c.currentAttemptIndex) : t.ledger c' = (s.ledger c).rewrite a := by
  subst hi
  rw [ledger,ha,hn,hc]
  rfl

section
variable (h : AttemptsKept s c)
include h

section
variable (hi : i = c.currentAttemptIndex) (ha : t.attempt = fun j => if i = some j then some (a j) else s.attempt j)
  (hn : c'.totalAttemptCount = c.totalAttemptCount) (hc : c'.currentAttemptIndex = c.currentAttemptIndex)
include hi ha hn hc

theorem AttemptsKept.goOn
    (he : c.engaged) (he' : c'.engaged) (hb : c'.attemptState.begun) : AttemptsKept t c' := by
  have hl := ledger_updateAttempt hi ha hn hc
  exact ⟨hl ▸ h.valid.rewrite _,fun h' => (h' he').elim,fun _ => hc ▸ h.index he,fun _ => ⟨fun _ => he',fun _ => hb⟩⟩

theorem AttemptsKept.finish (hf : ∀ j, (a j).attemptState.ended) (he' : ¬ c'.engaged)
    (hb : c'.lifecyclePhase ≠ .terminal → ¬ c'.attemptState.begun) : AttemptsKept t c' := by
  have hl := ledger_updateAttempt hi ha hn hc
  refine ⟨hl ▸ h.valid.rewrite _,fun _ => hl ▸ h.valid.closed_rewrite fun o => ?_,fun h' => (he' h').elim,
    fun ht => ⟨fun h' => (hb ht h').elim,fun h' => (he' h').elim⟩⟩
  simp [isOpen,hf]

theorem AttemptsKept.terminate
    (hf : ∀ j, (a j).attemptState.ended) (ht : c'.lifecyclePhase = .terminal) : AttemptsKept t c' :=
  h.finish hi ha hn hc hf (by simp [engaged,ht]) fun hn => (hn ht).elim

end

theorem AttemptsKept.terminateIdle (ha : t.attempt = s.attempt)
    (hn : c'.totalAttemptCount = c.totalAttemptCount) (hi : c'.currentAttemptIndex = c.currentAttemptIndex)
    (he : ¬ c.engaged) (ht : c'.lifecyclePhase = .terminal) : AttemptsKept t c' := by
  have he' : ¬ c'.engaged := by simp [engaged,ht]
  exact h.keep ha hn hi (iff_of_false he' he) fun hn => (hn ht).elim

end

private theorem attemptsKept_begin (hv : (s.ledger c).Valid isOpen) (hcl : (s.ledger c).Closed isOpen)
    (ha : t.attempt = fun j => if some c.totalAttemptCount = some j then some (a j) else s.attempt j)
    (hn : c'.totalAttemptCount = c.totalAttemptCount + 1)
    (hc : c'.currentAttemptIndex = some c.totalAttemptCount) (he : c'.engaged)
    (hb : c'.attemptState.begun) : AttemptsKept t c' := by
  have hl : t.ledger c' = (s.ledger c).append a := by
    rw [ledger,ha,hn,hc]
    rfl
  exact ⟨hl ▸ hv.append hcl _,fun h' => (h' he).elim,fun _ => by simp [hc],fun _ => ⟨fun _ => he,fun _ => hb⟩⟩

theorem key_current (hs : s.attemptsKept) (hk : op.keysAttempt s) (hc : s.core = some c)
    (hop : op.attemptKey = some key) (hn : c.engaged) : some key = c.currentAttemptIndex := by
  obtain ⟨index,hi⟩ := Option.isSome_iff_exists.mp ((hs.2 c hc).index hn)
  clear hs hn
  simp_all [Op.keysAttempt]

private theorem newCore_attemptsKept (a : CreateArgs) (priority : Int) (caps : String)
    (h : ∀ i, t.attempt i = none) : AttemptsKept t (newCore a priority now caps) := by
  refine ⟨⟨by simp [ledger,h,newCore],by simp [ledger,newCore],by simp [ledger,h]⟩,
    fun _ i a ha => by simp [ledger,h] at ha,?_,?_⟩ <;> simp [engaged,newCore,AttemptState.begun]

theorem resumed_attemptsKept {delayMs : Int} (h : AttemptsKept s c) (ha : t.attempt = s.attempt)
    (suspended : c.lifecyclePhase = .suspended) : AttemptsKept t (c.resumed delayMs) := by
  refine h.keep ha rfl rfl ?_ ?_ <;> simp [engaged,resumed,AttemptState.begun,suspended]

section
variable (h : AttemptsKept s c)
include h

theorem dependenciesMet_attemptsKept (ha : t.attempt = s.attempt)
    (runnable : c.lifecyclePhase = .runnable) : AttemptsKept t c.dependenciesMet := by
  by_cases hn : c.attemptState = .none
  · refine h.keep ha rfl rfl ?_ ?_ <;> simp [engaged,dependenciesMet,AttemptState.begun,runnable,hn]
  · exact h.frame ha rfl rfl rfl (by simp [dependenciesMet,hn])

theorem endAttempt_attemptsKept {state : AttemptLifecycle} (hi : c.engaged → some key = c.currentAttemptIndex)
    (idle : ¬ (c.lifecyclePhase = .runnable ∧ c.attemptState = .attemptInterrupted))
    (ha : t.attempt = if c.lifecyclePhase = .active ∨ c.lifecyclePhase = .suspended then
      (s.endAttempt c key state now reason).attempt else s.attempt)
    (hn : c'.totalAttemptCount = c.totalAttemptCount) (hc : c'.currentAttemptIndex = c.currentAttemptIndex)
    (hf : state.ended) (ht : c'.lifecyclePhase = .terminal) : AttemptsKept t c' := by
  split at ha
  · rename_i hp
    have he : c.engaged := by unfold engaged; tauto
    have hmap : (c.currentAttemptIndex.map fun _ => key) = c.currentAttemptIndex := by
      rw [← hi he]
      rfl
    exact h.terminate hmap ha hn hc (fun _ => hf) ht
  · rename_i hp
    refine h.terminateIdle ha hn hc ?_ ht
    unfold engaged
    tauto

private theorem skipChild_attemptsKept {a : ResolveArgs}
    (hi : c.engaged → some a.keys.attemptIndex = c.currentAttemptIndex)
    (unfinished : c.lifecyclePhase ≠ .terminal) : AttemptsKept ((s.setDeps d).skipChild a c) (c.skipped a.nowMs) := by
  have hb := h.begun unfinished
  by_cases he : c.engaged
  · have hi : (if c.attemptState.begun then some a.keys.attemptIndex else none) = c.currentAttemptIndex := by
      simp [hb.mpr he,hi he]
    exact h.terminate hi rfl rfl rfl (fun _ => rfl) rfl
  · have hi : ¬ c.attemptState.begun := mt hb.mp he
    refine h.terminateIdle ?_ rfl rfl he rfl
    simp [skipChild,hi,funext_iff]

end

theorem Effect.attemptsKept (h : Effect s now op t) (hs : s.attemptsKept) (hl : s.lives Life.Sound)
    (hk : op.keysAttempt s) (he : op.endsAttempts s) : t.attemptsKept := by
  cases h with
  | created a priority caps absent => exact .of rfl (newCore_attemptsKept a priority caps (hs.1 absent))
  | claimed _ a c r hop hr hc ready =>
    have h := hs.2 c hc
    have idle : ¬ c.engaged := by simp [engaged,ready.runnable,ready.notInterrupted]
    exact .of rfl (attemptsKept_begin h.valid (h.closed idle) rfl rfl rfl (.inl rfl) (.inl rfl))
  | claimRaised _ a c r hop hc ready unpacks =>
    rcases hop with rfl | rfl <;> simp [Op.endsAttempts,unpacks] at he
  | claimResumed a c r timeout hr hc runnable interrupted =>
    have hn : c.engaged := .inr (.inr ⟨runnable,interrupted⟩)
    exact .of rfl ((hs.2 c hc).goOn (key_current hs hk hc rfl hn) rfl rfl rfl hn (.inl rfl) (.inl rfl))
  | grantClaimResumed a c r hr hc runnable interrupted =>
    have hn : c.engaged := .inr (.inr ⟨runnable,interrupted⟩)
    exact .of rfl ((hs.2 c hc).goOn rfl rfl rfl rfl hn (.inl rfl) (.inl rfl))
  | reclaimCapped a c hc lost exhausted => simp [Op.endsAttempts,hc,exhausted] at he
  | reclaimed a c r hr hc lost =>
    have h := (hs.2 c hc).valid
    have hl := @ledger_updateAttempt s (s.interruptAttempt a.keys.attemptIndex now ("lease_" ++ c.ownershipState.text))
      c c _ _ (key_current hs hk hc rfl (.inl lost.active)) rfl rfl rfl
    refine .of rfl (attemptsKept_begin (hl ▸ h.rewrite _) (hl ▸ h.closed_rewrite fun j => ?_) rfl rfl rfl (.inl rfl) (.inl rfl))
    simp [isOpen,AttemptLifecycle.ended]
  | lapsed _ c hc due =>
    unfold markExpired
    split
    · exact hs
    · refine .of rfl ((hs.2 c hc).keep rfl rfl rfl ?_ ?_) <;> simp [engaged,AttemptState.begun,due.active]
  | renewed a c _ _ _ hc | prioritized a c _ _ hc | progressed a c _ _ hc | joined a c hc =>
    exact .of rfl ((hs.2 c hc).frame rfl rfl rfl rfl rfl)
  | revoked a c hc active =>
    refine .of rfl ((hs.2 c hc).keep rfl rfl rfl ?_ ?_) <;>
      simp [ExecCore.engaged,ExecCore.revoked,AttemptState.begun,active]
  | completed a c f hc held | failedTerminal a c f hc held =>
    have hn : c.engaged := .inl held.active
    exact .of rfl ((hs.2 c hc).terminate (key_current hs hk hc rfl hn) rfl rfl rfl (fun _ => rfl) rfl)
  | failRaised a c f hc held =>
    have hn : c.engaged := .inl held.active
    have hb := ((hs.2 c hc).begun (by simp [held.active])).mpr hn
    exact .of hc ((hs.2 c hc).goOn (key_current hs hk hc rfl hn) rfl rfl rfl hn hn hb)
  | failRetried a c f delayUntil hc held =>
    have hn : c.engaged := .inl held.active
    refine .of rfl ((hs.2 c hc).finish (key_current hs hk hc rfl hn) rfl rfl rfl (fun _ => rfl) ?_ ?_) <;>
      simp [engaged,retryScheduled,AttemptState.begun]
  | delayed a c f hc held | moved a c f hc held =>
    have hn : c.engaged := .inl held.active
    exact .of rfl ((hs.2 c hc).goOn (key_current hs hk hc rfl hn) rfl rfl rfl hn (.inr (.inr ⟨rfl,rfl⟩)) (.inr rfl))
  | cancelled a c hc =>
    refine .of rfl (endAttempt_attemptsKept (hs.2 c hc) (key_current hs hk hc rfl) ?_ (cancelPhase_attempt ..) rfl rfl rfl rfl)
    simpa [Op.endsAttempts,hc,imp_iff_not_or] using he
  | expired a c hc =>
    refine .of rfl (endAttempt_attemptsKept (hs.2 c hc) (key_current hs hk hc rfl) ?_ (expirePhase_attempt ..) rfl rfl rfl rfl)
    simpa [Op.endsAttempts,hc,imp_iff_not_or] using he
  | promoted a c hc runnable | blocked a c e hc runnable | unblocked a c hc runnable =>
    exact .of rfl ((hs.2 c hc).frame rfl rfl rfl runnable.symm rfl)
  | suspended a c b w hc held =>
    have hn : c.engaged := .inl held.active
    exact .of rfl ((hs.2 c hc).goOn (key_current hs hk hc rfl hn) rfl rfl rfl hn (.inr (.inl rfl)) (.inr rfl))
  | resumed a c p hc suspended | autoResumed a c p hc suspended =>
    exact .of rfl (resumed_attemptsKept (hs.2 c hc) rfl suspended)
  | escalated a c p hc suspended => exact .of rfl ((hs.2 c hc).frame rfl rfl rfl suspended.symm rfl)
  | timedOut a c p hc suspended =>
    have hn : c.engaged := .inr (.inl suspended)
    have hmap : (c.currentAttemptIndex.map fun _ => a.keys.attemptIndex) = c.currentAttemptIndex := by
      rw [← key_current hs hk hc rfl hn]
      rfl
    refine .of rfl ((hs.2 c hc).terminate hmap rfl rfl rfl (fun _ => ?_) rfl)
    cases p.timeoutBehavior <;> rfl
  | signalResumed a c p cond w taken | compositeResumed a c p cond w taken =>
    simp only [plainResume,compositeResume,resumeSuspended]
    split
    · exact .of rfl (resumed_attemptsKept (hs.2 c taken.core) rfl ‹_›)
    · exact hs.same rfl rfl
  | applied a c hc =>
    unfold blockChild
    split
    · exact .of rfl ((hs.2 c hc).frame rfl rfl rfl rfl rfl)
    · exact hs.same rfl rfl
  | resolved a d t settles settled =>
    cases settled with
    | kept => exact hs.same rfl rfl
    | released c hc hw => exact .of rfl (dependenciesMet_attemptsKept (hs.2 c hc) rfl hw.1)
    | skipped c hc ho =>
      have unfinished : c.lifecyclePhase ≠ .terminal := fun ht => (hl c hc).mpr ht ho
      exact .of rfl (skipChild_attemptsKept (hs.2 c hc) (key_current hs hk hc rfl) unfinished)
  | released c hc runnable => exact .of rfl (dependenciesMet_attemptsKept (hs.2 c hc) rfl runnable)
  | replayedSkipped a c hc finished | replayedNormal a c hc finished =>
    refine .of rfl ((hs.2 c hc).keep rfl rfl rfl ?_ ?_) <;> simp [engaged,ExecCore.replayed,AttemptState.begun,finished]
  | _ => exact hs.same rfl rfl

/-- The current attempt is the same or has a new number, and no record but that of the
current attempt is written. -/
def ReusesNoIndex (s t : Store) : Prop :=
  ∀ c c', s.core = some c → t.core = some c' → (c'.currentAttemptIndex = c.currentAttemptIndex ∨
      ∃ k, c'.currentAttemptIndex = some k ∧ s.attempt k = none) ∧
    ∀ k a, s.attempt k = some a → c.currentAttemptIndex ≠ some k → t.attempt k = some a

theorem reusesNoIndex_of (hc : s.core = some c) (ht : t.core = some c')
    (hi : c'.currentAttemptIndex = c.currentAttemptIndex ∨ ∃ k, c'.currentAttemptIndex = some k ∧ s.attempt k = none)
    (ha : ∀ k a, s.attempt k = some a → c.currentAttemptIndex ≠ some k → t.attempt k = some a) : ReusesNoIndex s t := by
  intro d d' hd hd'
  rw [hc] at hd
  rw [ht] at hd'
  cases hd
  cases hd'
  exact ⟨hi,ha⟩

theorem ReusesNoIndex.same (hc : t.core = s.core) (ha : t.attempt = s.attempt) : ReusesNoIndex s t := by
  intro c c' h h'
  rw [hc,h] at h'
  cases h'
  exact ⟨.inl rfl,fun k a hk _ => by rw [ha]; exact hk⟩

theorem Effect.reusesNoIndex (h : Effect s now op t) (hop : op.isClaim) (hs : s.attemptsKept)
    (keys : op.keysAttempt s) : ReusesNoIndex s t := by
  have unused {c : ExecCore} (hc : s.core = some c) : s.attempt c.totalAttemptCount = none :=
    (hs.2 c hc).valid.record_count
  cases h with
  | claimed _ a c r _ hr hc =>
    refine reusesNoIndex_of hc rfl (.inr ⟨_,rfl,unused hc⟩) fun k old hk _ => ?_
    have hne : c.totalAttemptCount ≠ k := by
      rintro rfl
      simp [unused hc] at hk
    simpa [freshLease,freshAttempt,takeLease,hne] using hk
  | claimRaised _ a c r _ hc =>
    refine reusesNoIndex_of hc hc (.inl rfl) fun k old hk _ => ?_
    have hne : c.totalAttemptCount ≠ k := by
      rintro rfl
      simp [unused hc] at hk
    simpa [freshAttempt,hne] using hk
  | claimResumed a c r timeout hr hc runnable interrupted =>
    refine reusesNoIndex_of hc rfl (.inl rfl) fun k old hk hne => ?_
    rw [← key_current hs keys hc rfl (.inr (.inr ⟨runnable,interrupted⟩))] at hne
    simpa [resumedClaim,takeLease,hne] using hk
  | grantClaimResumed a c r hr hc =>
    refine reusesNoIndex_of hc rfl (.inl rfl) fun k old hk hne => ?_
    simpa [resumedClaim,takeLease,hne] using hk
  | reclaimCapped a c hc => exact reusesNoIndex_of hc rfl (.inl rfl) fun k old hk _ => hk
  | reclaimed a c r hr hc lost =>
    refine reusesNoIndex_of hc rfl (.inr ⟨_,rfl,unused hc⟩) fun k old hk hne => ?_
    have hne' : c.totalAttemptCount ≠ k := by
      rintro rfl
      simp [unused hc] at hk
    rw [← key_current hs keys hc rfl (.inl lost.active)] at hne
    simpa [reclaimCommit,interruptAttempt,takeLease,hne,hne'] using hk
  | lapsed _ c hc =>
    unfold markExpired
    split
    · exact .same rfl rfl
    · exact reusesNoIndex_of hc rfl (.inl rfl) fun k old hk _ => hk
  | kept | granted => exact .same rfl rfl
  | _ => simp [Op.isClaim] at hop

/-- Both conditions on a call that keep the attempt records in order. -/
def Call.keepsAttempts (i : Call) (s : Store) : Bool := i.op.keysAttempt s && i.op.endsAttempts s

private theorem run_attemptsKept {calls : List Call} (h : Along next (fun s i => i.keepsAttempts s) {} calls) :
    (run calls).attemptsKept := by
  have step (s : Store) (i : Call) (hs : s.attemptsKept ∧ s.lives Life.Sound) (hi : i.keepsAttempts s) :
      (next i s).attemptsKept ∧ (next i s).lives Life.Sound := by
    simp only [Call.keepsAttempts,Bool.and_eq_true] at hi
    exact ⟨(next_effect i s).attemptsKept hs.1 hs.2 hi.1 hi.2,sound_next s i hs.2⟩
  exact (h.invariant step ⟨⟨fun _ _ => rfl,by simp⟩,by simp [lives]⟩).1

/-- In every run whose calls name the current attempt and leave none behind, the records are
those below the attempt count, only the current one can be open, none is open once the
execution has finished, and no claim or reclaim gives a number a second time. -/
theorem attempts_are_kept (calls : List Call) (h : Along next (fun s i => i.keepsAttempts s) {} calls)
    (c : ExecCore) (hc : (run calls).core = some c) : (∀ k, ((run calls).attempt k).isSome ↔ k < c.totalAttemptCount) ∧
      (∀ k a, (run calls).attempt k = some a → a.attemptState.ended = false → c.currentAttemptIndex = some k) ∧
      (c.lifecyclePhase = .terminal → ∀ k a, (run calls).attempt k = some a → a.attemptState.ended) ∧
      ∀ j : Call, j.op.isClaim → j.op.keysAttempt (run calls) → ReusesNoIndex (run calls) (next j (run calls)) := by
  have kept := run_attemptsKept h
  have hk := kept.2 c hc
  refine ⟨hk.valid.recorded,hk.valid.open_current,fun ht k a ha => ?_,fun j hj hkey => ?_⟩
  · have idle : ¬ c.engaged := by simp [engaged,ht]
    simpa [isOpen] using hk.closed idle k a ha
  · exact (next_effect j (run calls)).reusesNoIndex hj kept hkey

/-- An execution that was reclaimed once and then completed has two records, both ended. -/
theorem reclaimed_attempts_are_kept : let calls := [create 10,grant 11,claim 12 "L1" "a1",⟨2000,.markLeaseExpiredIfDue⟩,
      reclaimGrant 2001,reclaim 2002 "L2" "a2",complete 2003 ⟨"L2","2","a2"⟩ 1]
    (run calls).core.map (·.totalAttemptCount) = some 2 ∧
      ∀ k a, (run calls).attempt k = some a → a.attemptState.ended := by
  intro calls
  have finished : (run calls).core.map (fun c => (c.totalAttemptCount,c.lifecyclePhase)) =
      some (2,.terminal) := by decide +kernel
  obtain ⟨c,hc,he⟩ := Option.map_eq_some_iff.mp finished
  obtain ⟨hn,hp⟩ := Prod.mk.inj he
  obtain ⟨-,-,hended,-⟩ := attempts_are_kept calls (by decide +kernel) c hc
  exact ⟨by simp [hc,hn],hended hp⟩

/-- A delayed execution that is cancelled leaves its attempt suspended. -/
theorem cancelled_delay_leaves_attempt : let calls := [create 10,grant 11,claim 12 "L1" "a1",
      delay 13 ⟨"L1","1","a1"⟩,cancel 14]
    (run calls).core.map (·.lifecyclePhase) = some .terminal ∧
      ((run calls).attempt 0).map (·.attemptState) = some .suspended := by
  decide +kernel

end FlowFabric
