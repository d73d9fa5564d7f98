import FlowFabric.Effect
import FlowFabric.Refusal

/-! Due times: an execution that is put off until a time can be claimed from that time on
and not before. The due time is kept in the delayed index and in the hash; a promotion
reads the hash. -/
namespace FlowFabric
open Foundation Store

def Store.eligibleNow (s : Store) : Bool := s.core.any fun c => decide (c.eligibilityState = .eligibleNow)

/-- The promotion scanner's call. -/
def promoteAt (executionId : String) (now : Int) : Call := ⟨now,.promoteDelayed ⟨executionId,.number now⟩⟩

/-- At the time a promotion does not raise. From the due time on the execution is eligible and
indexed as such, by then or by the promotion; before it is neither. -/
structure Store.OnTime (s : Store) (executionId : String) (due now : Int) : Prop where
  promotes : (promoteAt executionId now).succeeds s
  late : due ≤ now → (s.eligibleNow ∧ (s.zset .eligible).isSome) ∨ ((next (promoteAt executionId now) s).eligibleNow ∧
      ((next (promoteAt executionId now) s).zset .eligible).isSome)
  early : now < due → s.eligibleNow = false ∧ s.zset .eligible = none ∧
    (next (promoteAt executionId now) s).eligibleNow = false ∧
      (next (promoteAt executionId now) s).zset .eligible = none

inductive Defers (s : Store) : Call → Int → Prop
  /-- Through the typed wrapper, which chooses the index. -/
  | created (now) (a : CreateArgs) (due) (keyed : a.Keyed) (delay : a.delayUntil = some due)
      (fields) (ok : (step ⟨now,.create a⟩ s).1 = .ok fields) : Defers s ⟨now,.create a⟩ due
  | delayed (now a) (ok : Call.succeeds ⟨now,.delay a⟩ s) : Defers s ⟨now,.delay a⟩ a.delayUntil
  /-- Until the first millisecond that is not before the time. -/
  | retried (now) (a : FailArgs) (c delayUntil) (hc : s.core = some c) (decision : a.delayUntil c now = some delayUntil)
      (ok : Call.succeeds ⟨now,.fail a⟩ s) : Defers s ⟨now,.fail a⟩ delayUntil.ceil
  | resumed (now) (a : ResumeArgs) (delay : 0 < a.resumeDelayMs)
      (ok : Call.succeeds ⟨now,.resume a⟩ s) : Defers s ⟨now,.resume a⟩ (now + a.resumeDelayMs)
  | signalled (now) (a : SignalArgs) (c) (delay : 0 < a.resumeDelayMs)
      (hc : s.core = some c) (suspended : c.lifecyclePhase = .suspended)
      (ok : (step ⟨now,.deliverSignal a⟩ s).1 = a.satisfiedReply) :
      Defers s ⟨now,.deliverSignal a⟩ (now + a.resumeDelayMs)

/-- The hash agrees with the due time. A new execution has to be put off into the future. The
hash has the time of a retry with fourteen digits, and that has to be as far off. A resume
leaves it with the due time of an earlier delay, if there is one. -/
def Call.storesDue (i : Call) (s : Store) (due now : Int) : Bool :=
  match i.op with
  | .create _ => decide (i.now < due)
  | .fail a => s.core.any fun c => (a.delayUntil c i.now).any fun d => decide (d.printed.ceil ≤ now ↔ due ≤ now)
  | .resume _ | .deliverSignal _ => s.core.any fun c => c.delayUntil.any fun stored => decide (stored ≤ now ↔ due ≤ now)
  | _ => true

variable {op : Op} {s t : Store} {c c' : ExecCore} {now : Int}

def ExecCore.busy (c : ExecCore) : Prop := c.lifecyclePhase = .active ∨ c.lifecyclePhase = .suspended

open ExecCore

/-- An execution that is not there yet, or that is busy, is not in the eligible index. -/
structure Store.unlisted (s : Store) : Prop where
  unborn : s.core = none → s.zset .eligible = none
  busy : ∀ c, s.core = some c → c.busy → s.zset .eligible = none

namespace Store.unlisted

theorem same (h : s.unlisted) (hc : t.core = s.core) (hz : t.zset .eligible = s.zset .eligible) : t.unlisted :=
  ⟨fun hn => hz ▸ h.unborn (hc ▸ hn),fun c ht => hz ▸ h.busy c (hc ▸ ht)⟩

theorem of (ht : t.core = some c') (h : c'.busy → t.zset .eligible = none) : t.unlisted := by
  refine ⟨fun hn => by simp [ht] at hn,fun c hc => ?_⟩
  rw [ht] at hc
  cases hc
  exact h

theorem idle (ht : t.core = some c') (h : ¬ c'.busy) : t.unlisted := of ht fun hb => (h hb).elim

theorem stay (hs : s.unlisted) (hc : s.core = some c) (ht : t.core = some c')
    (hz : t.zset .eligible = s.zset .eligible) (h : c'.busy → c.busy) : t.unlisted :=
  of ht fun hb => hz.trans (hs.busy c hc (h hb))

end Store.unlisted

variable {delayMs due now : Int} {executionId : String}

theorem Effect.unlisted (h : Effect s now op t) (hs : s.unlisted) : t.unlisted := by
  have held {c c' : ExecCore} {f : Fence} (hc : s.core = some c) (hl : HoldsLease c f now)
      (ht : t.core = some c') (hz : t.zset .eligible = s.zset .eligible) : t.unlisted :=
    hs.stay hc ht hz fun _ => .inl hl.active
  have runnable {c' : ExecCore} (ht : t.core = some c') (hp : c'.lifecyclePhase = .runnable) : t.unlisted :=
    .idle ht (by simp [busy,hp])
  have terminal {c' : ExecCore} (ht : t.core = some c') (hp : c'.lifecyclePhase = .terminal) : t.unlisted :=
    .idle ht (by simp [busy,hp])
  cases h with
  | created | failRetried | delayed | moved | promoted | blocked | unblocked | resumed | autoResumed
  | replayedSkipped | replayedNormal => exact runnable rfl rfl
  | claimed | claimResumed | grantClaimResumed => exact .of rfl fun _ => rfl
  | reclaimCapped | completed | failedTerminal | cancelled | expired | timedOut => exact terminal rfl rfl
  | reclaimed a c r hr hc lost => exact hs.stay hc rfl rfl fun _ => .inl lost.active
  | lapsed _ c hc =>
    unfold markExpired
    split
    · exact hs
    · exact hs.stay hc rfl rfl id
  | renewed a c _ _ _ hc hl | suspended a c b w hc hl => exact held hc hl rfl rfl
  | leaseUnindexed | expireCleaned | delayCleaned | timeoutCleaned => exact hs.same rfl rfl
  | revoked a c hc active => exact hs.stay hc rfl rfl fun _ => .inl active
  | progressed a c _ _ hc | joined a c hc => exact hs.stay hc rfl rfl id
  | prioritized a c _ _ hc hp | released c hc hp => exact runnable rfl hp
  | escalated a c p hc suspended => exact hs.stay hc rfl rfl fun _ => .inr suspended
  | signalResumed | compositeResumed =>
    simp only [plainResume,compositeResume,resumeSuspended]
    split
    · exact .idle rfl (by simp [ExecCore.busy,ExecCore.resumed])
    · exact hs.same rfl rfl
  | applied a c hc =>
    unfold blockChild
    split
    · rename_i hp
      exact .idle rfl (by simp [busy,blockedByDependencies,hp.1])
    · exact hs.stay hc hc rfl id
  | resolved a d t settles settled =>
    cases settled with
    | kept => exact hs.same rfl rfl
    | released c hc hw => exact runnable rfl hw.1
    | skipped => exact terminal rfl rfl
  | _ => exact hs.same rfl rfl

theorem run_unlisted (calls : List Call) : (run calls).unlisted :=
  runFrom_invariant (I := unlisted) (fun s i hs => (next_effect i s).unlisted hs)
    ⟨fun _ => rfl,fun c hc => by cases hc⟩ calls

private theorem promote_waiting (executionId : String) (now : Int) (hc : s.core = some c)
    (hp : c.lifecyclePhase = .runnable) (he : c.eligibilityState = .notEligibleUntilTime) :
    step (promoteAt executionId now) s = match c.delayUntil with
      | none => (.raised,s)
      | some stored =>
        if now < stored then (.ok ["not_yet_due"],s)
        else (.ok ["promoted"],((s.setCore { c.eligible with delayUntil := none }).zrem .delayed).zadd
          .eligible c.eligibleScore) := by
  simp only [step,promoteAt,Op.outcome,promoteDelayed,requireNumber,hc,hp,he,bind,Except.bind]
  cases c.delayUntil with
  | none => rfl
  | some stored => by_cases h : now < stored <;> simp [demand,h,pure,Except.pure]

theorem onTime_waiting (hc : s.core = some c)
    (hp : c.lifecyclePhase = .runnable) (he : c.eligibilityState = .notEligibleUntilTime)
    (hz : s.zset .eligible = none) :
    s.OnTime executionId due now ↔ c.delayUntil.any fun stored => decide (stored ≤ now ↔ due ≤ now) := by
  have hstep := promote_waiting executionId now hc hp he
  have waits : s.eligibleNow = false := by simp [eligibleNow,hc,he]
  cases hd : c.delayUntil with
  | none =>
    rw [hd] at hstep
    refine iff_of_false (fun h => ?_) (by simp)
    simpa [Call.succeeds,hstep] using h.promotes
  | some stored =>
    rw [hd] at hstep
    dsimp only at hstep
    by_cases hn : now < stored
    · rw [if_pos hn] at hstep
      have kept : next (promoteAt executionId now) s = s := by rw [next,hstep]
      simp only [Option.any_some,decide_eq_true_eq]
      constructor
      · intro h
        refine iff_of_false (not_le.mpr hn) fun hdue => ?_
        rcases h.late hdue with ⟨h,-⟩ | ⟨h,-⟩
        · simp [waits] at h
        · simp [kept,waits] at h
      · intro h
        have hdue : now < due := not_le.mp fun hd => absurd (h.mpr hd) (not_le.mpr hn)
        exact ⟨by simp [Call.succeeds,hstep,Reply.isError],fun hd => absurd hd (not_le.mpr hdue),
          fun _ => ⟨waits,hz,by rw [kept,waits],by rw [kept,hz]⟩⟩
    · rw [if_neg hn] at hstep
      have promoted : (next (promoteAt executionId now) s).eligibleNow ∧
          ((next (promoteAt executionId now) s).zset .eligible).isSome := by
        rw [next,hstep]
        simp [eligibleNow,eligible]
      simp only [Option.any_some,decide_eq_true_eq]
      constructor
      · intro h
        refine iff_of_true (not_lt.mp hn) (not_lt.mp fun hdue => ?_)
        have := (h.early hdue).2.2.1
        simp [promoted.1] at this
      · intro h
        exact ⟨by simp [Call.succeeds,hstep,Reply.isError],fun _ => .inr promoted,
          fun hd => absurd (h.mp (not_lt.mp hn)) (not_le.mpr hd)⟩

private theorem not_onTime_unindexed (hc : s.core = some c)
    (he : c.eligibilityState = .eligibleNow) (hz : s.zset .eligible = none) (hd : due ≤ now) :
    ¬ s.OnTime executionId due now := by
  have hnext : (next (promoteAt executionId now) s).zset .eligible = none := by
    simp only [next,step,promoteAt,Op.outcome,promoteDelayed,requireNumber,hc,he,bind,Except.bind]
    by_cases hp : c.lifecyclePhase = .runnable <;> simp [hp,hz,pure,Except.pure]
  intro h
  rcases h.late hd with ⟨-,h⟩ | ⟨-,h⟩
  · simp [hz] at h
  · simp [hnext] at h

private theorem created_onTime {a : CreateArgs} {at_ : Int} {fields : List String}
    (hs : s.unlisted) (keyed : a.Keyed) (delay : a.delayUntil = some due)
    (ok : (step ⟨at_,.create a⟩ s).1 = .ok fields) (hnow : at_ ≤ now) :
    (next ⟨at_,.create a⟩ s).OnTime executionId due now ↔ at_ < due := by
  have hcreated : s.core = none ∧ ∃ priority caps,
      next ⟨at_,.create a⟩ s = createdStore a (newCore a priority at_ caps) s := by
    have hok : Call.succeeds ⟨at_,.create a⟩ s := by simp [Call.succeeds,ok,Reply.isError]
    rcases createExecution_ok (outcome_of_succeeds hok) with ⟨⟨_,hdup⟩,-⟩ | h
    · simp [ok] at hdup
    · exact h
  obtain ⟨absent,priority,caps,ht⟩ := hcreated
  have hkey : a.schedulingZset = .delayed := by simpa [CreateArgs.Keyed,delay] using keyed
  have hz : (next ⟨at_,.create a⟩ s).zset .eligible = none := by
    rw [ht]
    simpa [createdStore,hkey] using hs.unborn absent
  have hc : (next ⟨at_,.create a⟩ s).core = some (newCore a priority at_ caps) := by rw [ht]; rfl
  by_cases hdue : at_ < due
  · refine iff_of_true ((onTime_waiting hc rfl (by simp [newCore,delay,hdue]) hz).mpr ?_) hdue
    simp [newCore,delay,hdue]
  · exact iff_of_false (not_onTime_unindexed hc (by simp [newCore,delay,hdue]) hz (by omega)) hdue

theorem stored_onTime (ht : t.core = some c')
    (hp : c'.lifecyclePhase = .runnable) (he : c'.eligibilityState = .notEligibleUntilTime)
    (hd : c'.delayUntil = some due) (hz : t.zset .eligible = none) : t.OnTime executionId due now :=
  (onTime_waiting ht hp he hz).mpr (by simp [hd])

theorem resumed_onTime (hdelay : 0 < delayMs) (ht : t.core = some (c.resumed delayMs)) (hz : t.zset .eligible = none) :
    t.OnTime executionId due now ↔ c.delayUntil.any fun stored => decide (stored ≤ now ↔ due ≤ now) :=
  onTime_waiting (c := c.resumed delayMs) ht rfl (by simp [resumed,hdelay]) hz

theorem signalled_waits {a : SignalArgs} (hc : s.core = some c)
    (hp : c.lifecyclePhase = .suspended) (hd : 0 < a.resumeDelayMs)
    (ok : (step ⟨now,.deliverSignal a⟩ s).1 = a.satisfiedReply) (hz : s.zset .eligible = none) :
    (next ⟨now,.deliverSignal a⟩ s).core = some (c.resumed a.resumeDelayMs) ∧
      (next ⟨now,.deliverSignal a⟩ s).zset .eligible = none := by
  have resumes (w w' : WaitKeys) :
      let t := (((s.setWait w).resumeSuspended c a.resumeDelayMs now).setWait w').zrem .suspensionTimeout
      t.core = some (c.resumed a.resumeDelayMs) ∧ t.zset .eligible = none := by
    simp [resumeSuspended,hp,indexResumed,hd,hz]
  have hok : Call.succeeds ⟨now,.deliverSignal a⟩ s := by
    simp [Call.succeeds,ok,SignalArgs.satisfiedReply,Reply.isError]
  rcases deliverSignal_ok (outcome_of_succeeds hok) with ⟨-,_,hr⟩ | ⟨c',p,cond,taken,h⟩
  · rw [ok] at hr
    cases hr
  · cases hc.symm.trans taken.core
    split at h
    · rename_i hco
      obtain ⟨w,-,⟨hne,-⟩ | ⟨-,ht⟩⟩ := deliverComposite_eq taken.condition hco h
      · exact (hne ok).elim
      · rw [ht]
        exact resumes _ _
    · obtain ⟨w,-,⟨hne,-⟩ | ⟨-,ht⟩⟩ := deliverPlain_eq taken.condition h
      · exact (hne ok).elim
      · rw [ht]
        exact resumes _ _

/-- Every execution that a call has given a due time can be claimed exactly on time if and
only if the hash agrees with the due time. It does after a retry at a whole millisecond. -/
theorem due_times_are_kept_iff (calls : List Call) (i : Call) (executionId : String) (due now : Int)
    (h : Defers (run calls) i due) (hnow : i.now ≤ now) :
    ((run (calls ++ [i])).OnTime executionId due now ↔ i.storesDue (run calls) due now) ∧
      ∀ a c (n : Int), i.op = .fail a → (run calls).core = some c → a.delayUntil c i.now = some (.finite n) →
        |n| < clockEnd → i.storesDue (run calls) due now := by
  have hs := run_unlisted calls
  have ht : run (calls ++ [i]) = next i (run calls) := runFrom_append _ _ _
  rw [ht]
  refine ⟨?_,fun a c n hop hc whole hn => ?_⟩
  swap
  · cases h with
    | retried at_ a' c' d hc' decision =>
      cases hop
      cases hc.symm.trans hc'
      cases whole.symm.trans decision
      simp [Call.storesDue,hc,whole,Double.printed_intCast hn]
    | _ => cases hop
  cases h with
  | created at_ a due keyed delay fields ok => simpa [Call.storesDue] using created_onTime hs keyed delay ok hnow
  | delayed at_ a ok =>
    obtain ⟨c,f,hc,-,⟨-,hl,-⟩ | ⟨hl,ht⟩⟩ := delayExecution_ok (outcome_of_succeeds ok)
    · simp [Call.succeeds,hl] at ok
    · have hz := hs.busy c hc (.inl hl.active)
      refine iff_of_true ?_ rfl
      rw [ht]
      exact stored_onTime (rfl : _ = some (c.delayed a.delayUntil)) rfl rfl rfl hz
  | retried at_ a c d hc decision ok =>
    obtain ⟨c',f,hc',-,⟨-,hl,-⟩ | ⟨hl,h⟩⟩ := failExecution_ok (outcome_of_succeeds ok)
    · simp [Call.succeeds,hl] at ok
    · cases hc.symm.trans hc'
      have hz := hs.busy c hc (.inl hl.active)
      rcases h with ⟨hd,-⟩ | ⟨d',hd,-,ht⟩ | ⟨hd,-⟩
      · simp [FailArgs.delayUntil,hd] at decision
      · cases decision.symm.trans hd
        rw [ht,onTime_waiting (s := failRetry a c d (failEnd a at_ (run calls)))
          (c := c.retryScheduled a.failureReason d.printed.ceil) rfl rfl rfl hz]
        simp [Call.storesDue,hc,decision,retryScheduled]
      · simp [FailArgs.delayUntil,hd] at decision
  | resumed at_ a delay ok =>
    obtain ⟨c,p,hc,hp,-,ht⟩ := resumeExecution_ok (outcome_of_succeeds ok)
    have hz := hs.busy c hc (.inr hp)
    rw [ht,resumed_onTime (c := c) delay rfl (by simp [resumeCommit,indexResumed,delay,hz])]
    simp [Call.storesDue,hc]
  | signalled at_ a c delay hc suspended ok =>
    have hz := hs.busy c hc (.inr suspended)
    obtain ⟨hcore,hzset⟩ := signalled_waits hc suspended delay ok hz
    rw [resumed_onTime (c := c) delay hcore hzset]
    simp [Call.storesDue,hc]

/-- A worker that puts its execution off gets it promoted when the time has come. -/
theorem worker_delay_is_kept :
    let calls := [Client.create 10,Client.grant 11,Client.claim 12 "L1" "a1"]
    let delay := Client.delay 20 ⟨"L1","1","a1"⟩
    Defers (run calls) delay 1020 ∧ (run (calls ++ [delay])).OnTime "e" 1020 1019 ∧
      (run (calls ++ [delay])).OnTime "e" 1020 1020 := by
  intro calls delay
  have defers : Defers (run calls) delay 1020 := .delayed 20 _ (by decide +kernel)
  exact ⟨defers,(due_times_are_kept_iff calls delay "e" 1020 1019 defers (by decide)).1.mpr rfl,
    (due_times_are_kept_iff calls delay "e" 1020 1020 defers (by decide)).1.mpr rfl⟩

/-- The first retry after a millisecond, the second after a twenty-fifth of one. -/
def Client.failAt (now : Int) (fence : Fence) (attemptIndex : Nat) : Call :=
  ⟨now,.fail
    { executionId := "e", fence, failureReason := "boom", keys := { workerInstanceId := "wi", attemptIndex }
      retryPolicyJson := .doc (.obj [("max_retries",.num 3),("backoff",.obj [("type",.str "exponential"),
        ("initial_delay_ms",.num 1),("multiplier",.float (.ofRat (1 / 25)))])]) }⟩

/-- An execution that is created with a due time in the past is eligible but in the delayed
index, and a promotion takes it off that one. After a resume with a delay a promotion raises.
A retry a fraction of a millisecond later is promoted at once. -/
theorem past_and_resume_delays_are_not_kept :
    let create : Call := ⟨10,.create
      { executionId := "e", priority := .number 5, delayUntil := some 5, schedulingZset := .delayed }⟩
    let resumed := run [Client.create 10,Client.secret 11,Client.grant 12,Client.claim 13 "L1" "a1",
      Client.suspend 14 ⟨"L1","1","a1"⟩ "s1" "w1" "k1",
      ⟨15,.resume { executionId := "e", resumeDelayMs := 100, keys := { waitpointId := "w1" } }⟩]
    let retried := run [Client.create 10,Client.grant 11,Client.claim 12 "L1" "a1",
      Client.failAt 13 ⟨"L1","1","a1"⟩ 0,promoteAt "e" 14,Client.grant 1699999999998,Client.claim 1699999999999 "L2" "a2",
      Client.failAt 1700000000000 ⟨"L2","2","a2"⟩ 1]
    Defers (run []) create 5 ∧ (run [create]).eligibleNow ∧ (run [create]).zset .eligible = none ∧
      (run [create,promoteAt "e" 20]).zset .eligible = none ∧ (run [create,promoteAt "e" 20]).zset .delayed = none ∧
      resumed.zset .delayed = some 115 ∧ (step (promoteAt "e" 200) resumed).1 = .raised ∧
      retried.zset .delayed = some 1700000000001 ∧ (next (promoteAt "e" 1700000000000) retried).eligibleNow = true :=
  ⟨.created 10 _ 5 rfl rfl ["e","waiting"] (by decide +kernel),by decide +kernel⟩

end FlowFabric
