import FlowFabric.Postgres.Fencing

/-! Leases. The claims write the attempt row and the attempt index of the core row by different
conventions, and not all of them look whether the lease is still running. -/
namespace FlowFabric.Postgres
open Foundation Rows Public Option Bool Phase

/-! ### Running leases -/

def Rows.lease (r : Rows) (i : Nat) : Option Int := (r.attempt i).bind AttemptRow.leaseExpiresAtMs

def Rows.live (r : Rows) (i : Nat) (now : Int) : Bool := (r.lease i).any (now < ·)

def Rows.Idle (r : Rows) (now : Int) : Prop := ∀ i, r.live i now = false

variable {i : Nat} {r : Rows} {now : Int} {t : ResumeToken}

private theorem live_mono {t t' : Int} (ht : t ≤ t') (h : r.live i t' = true) : r.live i t = true := by
  unfold live at *
  cases he : r.lease i with
  | none => simp [he] at h
  | some =>
    rw [he,any_some,decide_eq_true_eq] at h
    rw [any_some,decide_eq_true_eq]
    omega

private theorem overdue_not_live (h : r.overdue i now = true) : r.live i now = false := by
  unfold overdue at h
  unfold live lease
  cases hr : r.attempt i with
  | none => rfl
  | some row =>
    rw [hr,any_some] at h
    rw [bind_some]
    cases he : row.leaseExpiresAtMs with
    | none => rfl
    | some =>
      rw [he,any_some,decide_eq_true_eq] at h
      rw [any_some,decide_eq_false_iff_not]
      omega

section
variable {r r' : Rows} {i : Nat} {f : AttemptRow → AttemptRow}

private theorem lease_congr (h : r'.attempts = r.attempts) (j : Nat) : r'.lease j = r.lease j := by
  unfold lease attempt
  rw [h]

theorem lease_of_update (h : r'.attempts = r.attempts.update i f) (j : Nat) :
    r'.lease j = if j = i then (r.attempt i).bind fun row => (f row).leaseExpiresAtMs else r.lease j := by
  unfold lease attempt
  rw [h,Table.lookup_update]
  split
  · rw [bind_map]
    rfl
  · rfl

theorem live_of_lease (h : ∀ j, r'.lease j = r.lease j) {now : Int} (j : Nat) (hl : r'.live j now = true) :
    r.live j now = true := by
  rw [live,← h]
  exact hl

section
variable (h : r'.attempts = r.attempts.update i f)
include h

private theorem lease_of_kept
    (hf : ∀ row, (f row).leaseExpiresAtMs = row.leaseExpiresAtMs) (j : Nat) : r'.lease j = r.lease j := by
  rw [lease_of_update h]
  split
  · rename_i hj
    simp only [hf,hj,lease]
  · rfl

private theorem lease_of_cleared (hf : ∀ row, (f row).leaseExpiresAtMs = none) (j : Nat) :
    r'.lease j = if j = i then none else r.lease j := by
  rw [lease_of_update h]
  split
  · simp [hf]
  · rfl

theorem live_of_cleared (hf : ∀ row, (f row).leaseExpiresAtMs = none)
    {now : Int} (j : Nat) (hl : r'.live j now = true) : r.live j now = true := by
  rw [live,lease_of_cleared h hf] at hl
  split at hl
  · cases hl
  · exact hl

theorem lease_of_update_ne {j : Nat} (hj : j ≠ i) : r'.lease j = r.lease j := by rw [lease_of_update h,if_neg hj]

end

private theorem lease_of_upsert_ne {new : AttemptRow} (h : r'.attempts = r.attempts.upsert i new f) {j : Nat}
    (hj : j ≠ i) : r'.lease j = r.lease j := by
  unfold lease attempt
  rw [h,Table.lookup_upsert,if_neg hj]

end

/-! ### The invariant -/

/-- The states in which the current attempt is taken over without a look at the phase. -/
def CoreRow.takeable (c : CoreRow) : Prop := c.publicState = .resumable ∨ c.attemptState = .attemptInterrupted

instance (c : CoreRow) : Decidable c.takeable := inferInstanceAs (Decidable (_ ∨ _))

/-- At most the current attempt has a running lease, and only in an active or an ended execution. -/
structure Held (now : Int) (r : Rows) : Prop where
  busy : r.core.lifecyclePhase = .active → ¬ r.core.takeable
  sole : ∀ i, r.live i now = true →
    i = r.core.attemptIndex ∧ (r.core.lifecyclePhase = .active ∨ r.core.isEnded) ∧ ¬ r.core.takeable

namespace Held
variable {now : Int} {r r' : Rows}

theorem mono {t' : Int} (h : Held now r) (ht : now ≤ t') : Held t' r := ⟨h.busy,fun i hl => h.sole i (live_mono ht hl)⟩

theorem of_idle (hi : r'.Idle now) (hb : r'.core.lifecyclePhase ≠ .active) : Held now r' where
  busy := fun ha => absurd ha hb
  sole := fun i hl => by rw [hi i] at hl; cases hl

section
variable (h : Held now r)
include h

theorem idle {phase : Phase} (hp : r.core.lifecyclePhase = phase)
    (hn : phase ≠ .active ∧ phase ≠ .terminal ∧ phase ≠ .cancelled) : r.Idle now := by
  subst hp
  intro i
  rw [← not_eq_true]
  intro hl
  exact (h.sole i hl).2.1.elim hn.1 (not_or.mpr hn.2)

theorem idle_of_takeable (ht : r.core.takeable) : r.Idle now := by
  intro i
  rw [← not_eq_true]
  intro hl
  exact (h.sole i hl).2.2 ht

theorem idle_of_current (hc : r.live r.core.attemptIndex now = false) : r.Idle now := by
  intro i
  rw [← not_eq_true]
  intro hl
  rw [(h.sole i hl).1,hc] at hl
  cases hl

variable (hl : ∀ j, r'.live j now = true → r.live j now = true)
include hl

theorem same (hi : r'.core.attemptIndex = r.core.attemptIndex)
    (hp : r'.core.lifecyclePhase = r.core.lifecyclePhase) (hs : r'.core.publicState = r.core.publicState)
    (ha : r'.core.attemptState = r.core.attemptState) : Held now r' := by
  have ht : r'.core.takeable ↔ r.core.takeable := by rw [CoreRow.takeable,hs,ha]; rfl
  have he : r'.core.isEnded ↔ r.core.isEnded := by rw [CoreRow.isEnded,hp]; rfl
  constructor
  · rw [hp,ht]
    exact h.busy
  · intro j hj
    rw [hi,hp,ht,he]
    exact h.sole j (hl j hj)

private theorem same_core (hc : r'.core = r.core) :
    Held now r' := h.same hl (by rw [hc]) (by rw [hc]) (by rw [hc]) (by rw [hc])

theorem ended
    (hi : r'.core.attemptIndex = r.core.attemptIndex) (he : r'.core.isEnded)
    (ht : r'.core.takeable → r.core.takeable) : Held now r' where
  busy := by
    intro ha
    rcases he with hp | hp <;> rw [ha] at hp <;> cases hp
  sole := by
    intro j hj
    obtain ⟨hj',-,hn⟩ := h.sole j (hl j hj)
    exact ⟨hj'.trans hi.symm,.inr he,fun h' => hn (ht h')⟩

end

theorem claimed (hl : ∀ j, j ≠ r'.core.attemptIndex → r'.live j now = false)
    (ha : r'.core.lifecyclePhase = .active) (ht : ¬ r'.core.takeable) : Held now r' where
  busy := fun _ => ht
  sole := by
    intro j hj
    refine ⟨?_,.inl ha,ht⟩
    by_contra hne
    rw [hl j hne] at hj
    cases hj

end Held

/-! ### Careful calls -/

def handsOut (c : Call) (r : Rows) : Prop :=
  c.op.isClaim = true ∧ ∃ done h, step c r = .ok done ∧ done.reply = .handle h

/-- What an operation under a handle has to meet. A lease is renewed on the current attempt of an active
execution, and one that sends the execution back to the queue gives up the lease that is running. -/
def WorkerOp.careful (h : Handle) (now : Int) (r : Rows) : WorkerOp → Prop
  | .renew => r.fences h → r.core.lifecyclePhase = .active ∧ h.attemptIndex = r.core.attemptIndex
  | .fail _ | .delay _ | .waitChildren | .suspend .. => r.fences h → ∀ i, r.live i now = true → i = h.attemptIndex
  | .progress .. | .complete _ | .appendFrame .. => True

/-- What a call has to meet. The claims by name leave the core row at the index after the one that they
give out, so none of them is given out at all. -/
def Op.careful (now : Int) (r : Rows) : Op → Prop
  | .claimExecution a => ¬ handsOut ⟨.claimExecution a,now⟩ r
  | .issueGrantAndClaim leaseDurationMs attemptId =>
    handsOut ⟨.issueGrantAndClaim leaseDurationMs attemptId,now⟩ r → r.core.attemptState = .attemptInterrupted
  | .claimFromResumeGrant _ => ∀ i ∈ r.newestFree now, i = r.core.attemptIndex ∧ r.core.publicState ≠ .resumable
  | .reclaimExecution a => handsOut ⟨.reclaimExecution a,now⟩ r → r.Idle now
  | .worker h op => op.careful h now r
  | .failExecution a _ => min a.attemptIndex i32Max = r.core.attemptIndex ∨ r.Idle now
  | .deliver key s => (r.recorded key s).any SuspensionRow.satisfied = true → r.Idle now
  | .releaseOne i | .expireAttempt i => r.overdue i now = true → i = r.core.attemptIndex ∨ r.Idle now
  | _ => True

namespace Held
variable {now : Int} {r r' : Rows}

variable {f : AttemptRow → AttemptRow} {i : Nat}

theorem requeued (hu : r'.attempts = r.attempts.update i f)
    (hf : ∀ row, (f row).leaseExpiresAtMs = none) (hi : ∀ j, r.live j now = true → j = i)
    (hp : r'.core.lifecyclePhase ≠ .active) : Held now r' := by
  refine of_idle ?_ hp
  intro j
  rw [live,lease_of_cleared hu hf]
  split
  · rfl
  · rename_i hj
    rw [← not_eq_true]
    exact fun hl => hj (hi j hl)

theorem closed (h : Held now r) (hu : r'.attempts = r.attempts.update i f) (hf : ∀ row, (f row).leaseExpiresAtMs = none)
    (hi : r'.core.attemptIndex = r.core.attemptIndex) (he : r'.core.isEnded)
    (ht : r'.core.takeable → r.core.takeable) : Held now r' := by
  exact h.ended (live_of_cleared hu hf) hi he ht

theorem relet (hr : r.Idle now) (hu : ∀ j, j ≠ i → r'.lease j = r.lease j) (hi : r'.core.attemptIndex = i)
    (ha : r'.core.lifecyclePhase = .active) (ht : ¬ r'.core.takeable) : Held now r' := by
  refine claimed ?_ ha ht
  intro j hj
  rw [hi] at hj
  rw [live,hu j hj]
  exact hr j

end Held

theorem not_takeable {c : CoreRow} (hp : c.publicState ≠ .resumable) (ha : c.attemptState ≠ .attemptInterrupted) :
    ¬ c.takeable := not_or.mpr ⟨hp,ha⟩

theorem takeable_elim {c : CoreRow} {q : Prop} (hp : c.publicState ≠ .resumable)
    (ha : c.attemptState ≠ .attemptInterrupted) (h : c.takeable) : q := absurd h (not_takeable hp ha)

variable {r' : Rows}

open Held

theorem live_congr (h : r'.attempts = r.attempts) (j : Nat) (hl : r'.live j now = true) : r.live j now = true :=
  live_of_lease (lease_congr h) j hl

theorem Held.renewed (hr : Held now r) (hp : r.core.lifecyclePhase = .active) (hi : i = r.core.attemptIndex)
    {f : AttemptRow → AttemptRow} : Held now (r.updateAttempt i f) := by
  refine claimed (fun j hj => ?_) hp (hr.busy hp)
  rw [live,lease_of_update_ne rfl (hi ▸ hj),← not_eq_true]
  exact fun hl => hj (hr.sole j hl).1

theorem WorkerWrites.held {h : Handle} {op : WorkerOp} (hw : WorkerWrites h now r op r')
    (hr : Held now r) (hc : op.careful h now r) : Held now r' := by
  cases hw with
  | renew hf =>
    obtain ⟨ha,hi⟩ := hc hf
    exact hr.renewed ha hi
  | progress | appendFrame => exact hr.same (live_congr rfl) rfl rfl rfl rfl
  | complete | fail =>
    refine hr.closed rfl (fun _ => rfl) rfl (.inl rfl) ?_
    exact fun ht => .inl (ht.resolve_right Attempt.noConfusion)
  | retry classification hf | delay delayUntil hf | waitChildren hf | suspend a cached kid hf =>
    exact requeued rfl (fun _ => rfl) (hc hf) noConfusion

theorem idle_of_live (hr : r.Idle now) (hl : ∀ j, r'.live j now = true → r.live j now = true) : r'.Idle now := by
  intro j
  rw [← not_eq_true]
  intro hj
  have h := hl j hj
  rw [hr j] at h
  cases h

private theorem newestFree_not_live (h : r.newestFree now = some i) : r.live i now = false := by
  obtain ⟨e,hn,he⟩ := bind_eq_some_iff.mp h
  split at he
  · cases he
  · rename_i hl
    cases he
    rw [live,lease,attempt,Table.lookup_of_newest hn]
    exact eq_false_iff.mpr hl

private theorem reclaimed_lease_ne (r : Rows) (a : ReclaimArgs) (g : GrantRow) (now : Int) {j : Nat}
    (hj : j ≠ r.core.attemptIndex + 1) : (r.reclaimed a g now).lease j = r.lease j := by
  unfold reclaimed
  rw [lease,attempt,Table.lookup_insert,if_neg hj]
  have kept (f : AttemptRow → AttemptRow)
      (hf : ∀ row, (f row).leaseExpiresAtMs = row.leaseExpiresAtMs) :
      (r.updateAttempt r.core.attemptIndex f).lease j = r.lease j :=
    lease_of_kept rfl hf j
  refine kept _ ?_
  intro row
  rfl

theorem lease_clearOutcome (r : Rows) (f : CoreRow → CoreRow) (j : Nat) :
    (r.updateCore f).clearOutcome.lease j = r.lease j := by
  refine lease_of_kept (r := r.updateCore f) rfl ?_ j
  intro row
  rfl

theorem Held.idle_of_overdue (h : Held now r) (ho : r.overdue i now = true)
    (hc : i = r.core.attemptIndex ∨ r.Idle now) : r.Idle now := by
  rcases hc with rfl | hi
  · exact h.idle_of_current (overdue_not_live ho)
  · exact hi

theorem freed_not_active (c : CoreRow) : c.freed.lifecyclePhase ≠ .active := by
  unfold CoreRow.freed
  split
  · exact noConfusion
  · assumption

theorem Writes.held {op : Op} (hw : Writes now r op r') (hr : Held now r) (hc : op.careful now r) : Held now r' := by
  cases hw with
  | worker hw => exact hw.held hr hc
  | claim p hp =>
    exact relet (hr.idle hp.2.1 (by decide)) (fun j hj => lease_of_upsert_ne rfl hj) rfl rfl
      (not_takeable noConfusion Attempt.noConfusion)
  | claimExecution a h hp he hd => exact absurd ⟨rfl,_,_,hd,rfl⟩ hc
  | claimByOperator leaseDurationMs attemptId h ha hp he hd => exact absurd (hc ⟨rfl,_,_,hd,rfl⟩) ha
  | resumeByOperator leaseDurationMs attemptId ha =>
    exact relet (hr.idle_of_takeable (.inr ha)) (fun j hj => lease_of_update_ne rfl hj) rfl rfl
      (not_takeable noConfusion Attempt.noConfusion)
  | claimFromResumeGrant t i hi =>
    obtain ⟨rfl,hp⟩ := hc i hi
    exact relet (hr.idle_of_current (newestFree_not_live hi)) (fun j hj => lease_of_update_ne rfl hj) rfl rfl
      (not_takeable hp Attempt.noConfusion)
  | claimResumedExecution t hp =>
    exact relet (hr.idle_of_takeable (.inl hp)) (fun j hj => lease_of_update_ne rfl hj) rfl rfl
      (not_takeable noConfusion Attempt.noConfusion)
  | reclaimCap => exact hr.ended (live_congr rfl) rfl (.inl rfl) (takeable_elim noConfusion Attempt.noConfusion)
  | reclaim a g h hn hg hi hd =>
    have hidle : r.Idle now := hc ⟨rfl,_,_,hd,rfl⟩
    exact relet hidle (fun j hj => reclaimed_lease_ne r a g now hj) rfl rfl
      (not_takeable noConfusion Attempt.noConfusion)
  | claimForWorker | issueReclaimGrant | timeoutSignal | close | changePriority | joinFlow | promoteDelayed =>
    exact hr.same (live_congr rfl) rfl rfl rfl rfl
  | renewLease a hp hl =>
    obtain ⟨row,ha,hl⟩ := hl
    have hi : a.attemptIndex = r.core.attemptIndex := by
      refine (hr.sole a.attemptIndex ?_).1
      rw [live,lease,ha]
      exact hl
    exact hr.renewed hp hi
  | completeExecution | failExecution =>
    exact hr.closed rfl (fun _ => rfl) rfl (.inl rfl) (takeable_elim noConfusion Attempt.noConfusion)
  | failedRetry =>
    refine requeued rfl (fun _ => rfl) ?_ noConfusion
    intro j hj
    rcases hc with hi | hi
    · exact (hr.sole j hj).1.trans hi.symm
    · rw [hi j] at hj
      cases hj
  | resumeExecution resumeDelayMs hp =>
    refine of_idle (idle_of_live (hr.idle hp (by decide)) (live_congr rfl)) ?_
    unfold resumedAfter
    split <;> exact noConfusion
  | deliver key s recorded hd =>
    by_cases hsat : recorded.satisfied = true
    · have hidle : r.Idle now := hc (by rw [hd]; exact hsat)
      refine of_idle (idle_of_live hidle (live_congr rfl)) ?_
      rw [signalled,if_pos hsat]
      exact noConfusion
    · have hcore : (r.signalled recorded).core = r.core := if_neg hsat
      exact hr.same_core (live_congr rfl) hcore
  | expireSuspension =>
    exact hr.ended (live_congr rfl) rfl (.inl rfl) fun ht => .inl (ht.resolve_right Attempt.noConfusion)
  | cancel =>
    exact hr.ended (live_of_lease (lease_clearOutcome r _)) rfl (.inl rfl)
      (takeable_elim noConfusion Attempt.noConfusion)
  | cancelExecution =>
    unfold cancelledBy
    split
    · exact hr.closed rfl (fun _ => rfl) rfl (.inr rfl) (takeable_elim noConfusion Attempt.noConfusion)
    · exact hr.ended (live_congr rfl) rfl (.inr rfl) (takeable_elim noConfusion Attempt.noConfusion)
  | revokeLease =>
    by_cases ha : r.core.lifecyclePhase = .active
    · refine requeued rfl (fun _ => rfl) (fun j hj => (hr.sole j hj).1) ?_
      change (if r.core.lifecyclePhase = .active then r.core.freed.mutatedAt now else r.core).lifecyclePhase ≠ _
      rw [if_pos ha]
      exact freed_not_active r.core
    · exact hr.same_core (live_of_cleared rfl fun _ => rfl) (if_neg ha)
  | replayExecution => exact requeued rfl (fun _ => rfl) (fun j hj => (hr.sole j hj).1) noConfusion
  | cancelMember =>
    exact hr.ended (live_of_lease (lease_clearOutcome r _)) rfl (.inr rfl) fun ht => .inr (ht.resolve_left noConfusion)
  | cancelHeader reason hn =>
    rw [updateCore,CoreRow.headerCancelled,if_neg hn]
    exact hr.ended (live_congr rfl) rfl (.inr rfl) fun ht => .inr (ht.resolve_left noConfusion)
  | unblock hn =>
    rw [updateCore,CoreRow.unblocked,if_neg hn]
    by_cases hb : r.core.lifecyclePhase = .blocked
    · rw [if_pos hb]
      exact of_idle (idle_of_live (hr.idle hb (by decide)) (live_congr rfl))
        noConfusion
    · rw [if_neg hb]
      exact hr.same (live_congr rfl) rfl rfl rfl rfl
  | skip flowId hn =>
    rw [updateCore,CoreRow.skipped,if_neg hn]
    exact hr.ended (live_congr rfl) rfl (.inl rfl) (takeable_elim noConfusion Attempt.noConfusion)
  | cancelSibling hn =>
    rw [updateCore,CoreRow.siblingCancelled,if_neg hn]
    exact hr.ended (live_congr rfl) rfl (.inl rfl) (takeable_elim noConfusion Attempt.noConfusion)
  | releaseOne i ho =>
    exact of_idle (idle_of_live (hr.idle_of_overdue ho (hc ho)) (live_of_cleared rfl fun _ => rfl)) (freed_not_active _)
  | retryAttempt i hp ho =>
    exact of_idle (idle_of_live (hr.idle_of_overdue ho (hc ho)) (live_of_cleared rfl fun _ => rfl)) noConfusion
  | expireAttempt | expireExecution =>
    exact hr.closed rfl (fun _ => rfl) rfl (.inl rfl) fun ht => .inl (ht.resolve_right Attempt.noConfusion)

/-! ### Claims -/

theorem claim_handsOut {p : ClaimPolicy} (h : handsOut ⟨.claim p,now⟩ r) : r.core.claimable p.lane := by
  obtain ⟨-,done,lease,hs,hh⟩ := h
  change claim p now r = .ok done at hs
  unfold claim at hs
  split at hs
  · rename_i hc
    exact hc.1
  · cases hs
    cases hh

private theorem claimResumedExecution_handsOut
    (h : handsOut ⟨.claimResumedExecution t,now⟩ r) : r.core.publicState = .resumable := by
  obtain ⟨-,done,lease,hs,hh⟩ := h
  obtain ⟨u,hp,-⟩ := (bind_ok _ _ _).mp hs
  exact (ensure_ok _ _ _).mp hp

theorem claimFromResumeGrant_handsOut
    (h : handsOut ⟨.claimFromResumeGrant t,now⟩ r) : ∃ i, r.newestFree now = some i := by
  obtain ⟨-,done,lease,hs,hh⟩ := h
  change claimFromResumeGrant t now r = .ok done at hs
  unfold claimFromResumeGrant at hs
  unfold newestFree
  cases hn : r.attempts.newest with
  | none =>
    rw [hn] at hs
    cases hs
  | some e =>
    rw [hn] at hs
    by_cases hl : e.2.live now = true
    · dsimp only at hs
      rw [if_pos hl] at hs
      cases hs
      cases hh
    · exact ⟨e.1,if_neg hl⟩

theorem Held.idle_of_handsOut {c : Call} (hr : Held c.now r) (hc : c.op.careful c.now r)
    (h : handsOut c r) : r.Idle c.now := by
  obtain ⟨op,now⟩ := c
  cases op with
  | claim => exact hr.idle (claim_handsOut h).2.1 (by decide)
  | claimExecution => exact absurd h hc
  | issueGrantAndClaim => exact hr.idle_of_takeable (.inr (hc h))
  | claimFromResumeGrant =>
    obtain ⟨i,hi⟩ := claimFromResumeGrant_handsOut h
    obtain ⟨rfl,-⟩ := hc i hi
    exact hr.idle_of_current (newestFree_not_live hi)
  | claimResumedExecution => exact hr.idle_of_takeable (.inl (claimResumedExecution_handsOut h))
  | reclaimExecution => exact hc h
  | _ => cases h.1

/-! ### Runs -/

structure Clocked where
  now : Int
  rows : Rows

def tick (c : Call) (s : Clocked) : Clocked := ⟨c.now,next c s.rows⟩

variable (s : Clocked)

def Careful (c : Call) : Prop := s.now ≤ c.now ∧ c.op.careful c.now s.rows

/-- From now on until the next call at most one attempt has a running lease, and while the execution is
active it is the one that the core row designates. -/
def SoleLease : Prop :=
  ∀ t, s.now ≤ t → (∀ i j, s.rows.live i t = true → s.rows.live j t = true → i = j) ∧
      (s.rows.core.lifecyclePhase = .active → ∀ i, s.rows.live i t = true → i = s.rows.core.attemptIndex)

/-- The call hands the execution out only if no lease is running. -/
def TakesFree (c : Call) : Prop := handsOut c s.rows → s.rows.Idle c.now

theorem Held.soleLease {s : Clocked} (h : Held s.now s.rows) : SoleLease s := by
  intro t ht
  have later := h.mono ht
  refine ⟨?_,fun _ i hi => (later.sole i hi).1⟩
  intro i j hi hj
  exact (later.sole i hi).1.trans (later.sole j hj).1.symm

theorem held_tick (c : Call) (h : Held s.now s.rows) (hc : Careful s c) : Held (tick c s).now (tick c s).rows := by
  have hnow := h.mono hc.1
  change Held c.now (next c s.rows)
  exact next_of_writes hnow fun _ hw => hw.held hnow hc.2

theorem Rows.Fresh.held (hr : r.Fresh) (now : Int) : Held now r := by
  refine of_idle ?_ ?_
  · intro i
    rw [live,lease,attempt,hr.noAttempts]
    rfl
  · rw [hr.runnable]
    decide

/-- Along a run of careful calls no running lease is taken over, and nobody else holds one. -/
theorem leases_exclusive {r : Rows} (hr : r.Fresh) (start : Int) (cs : List Call)
    (h : Along tick Careful ⟨start,r⟩ cs) :
    Throughout tick SoleLease ⟨start,r⟩ cs ∧ Along tick TakesFree ⟨start,r⟩ cs := by
  have first : Held start r := hr.held start
  constructor
  · exact Along.throughout held_tick (fun _ => soleLease) first h
  · exact Along.weaken (fun s c hs hc => (hs.mono hc.1).idle_of_handsOut hc.2) held_tick first h

namespace Client

def handedOver : List Call := [claims alice 1,does 0 1 .renew 5,releases 20,claims bob 30]

private theorem handedOver_careful : Along tick Careful ⟨0,fresh⟩ handedOver :=
  ⟨⟨by decide,trivial⟩,⟨by decide,fun _ => ⟨rfl,rfl⟩⟩,⟨by decide,fun _ => .inl rfl⟩,⟨by decide,trivial⟩,trivial⟩

theorem handedOver_exclusive :
    Throughout tick SoleLease ⟨0,fresh⟩ handedOver ∧ Along tick TakesFree ⟨0,fresh⟩ handedOver :=
  leases_exclusive fresh_fresh 0 handedOver handedOver_careful

def reclaims (w : Worker) (now : Int) : Call := ⟨.reclaimExecution { worker := w, leaseTtlMs := 100 },now⟩

def grants (w : Worker) (now : Int) : Call := ⟨.issueReclaimGrant ⟨w,100,some "k1"⟩,now⟩

/-- The operator's claim leaves the core row at an index without a row, which counts as a lease that
has run out. -/
def byOperator : List Call := [⟨.issueGrantAndClaim 100 "a1",1⟩,grants bob 2,reclaims bob 3]

/-- A lease that has run out is renewed after the reclaim grant was issued. -/
def renewedLate : List Call := [claims alice 1,grants bob 12,does 0 1 .renew 13,reclaims bob 14]

/-- In both runs the lease that the second worker takes over is running, and is left running. In the
first one it is not even that of the index which the core row designates. -/
theorem lease_taken_over : (¬ SoleLease (runFrom tick ⟨0,fresh⟩ (byOperator.take 1)) ∧
      ¬ TakesFree (runFrom tick ⟨0,fresh⟩ (byOperator.take 2)) (reclaims bob 3) ∧
      (runFrom tick ⟨0,fresh⟩ byOperator).rows.live 0 3 = true ∧
      (runFrom tick ⟨0,fresh⟩ byOperator).rows.live 2 3 = true) ∧
    (¬ TakesFree (runFrom tick ⟨0,fresh⟩ (renewedLate.take 3)) (reclaims bob 14) ∧
      (runFrom tick ⟨0,fresh⟩ renewedLate).rows.live 0 14 = true ∧
      (runFrom tick ⟨0,fresh⟩ renewedLate).rows.live 1 14 = true) := by
  refine ⟨⟨?_,?_,rfl,rfl⟩,?_,rfl,rfl⟩
  · intro h
    exact Nat.zero_ne_one ((h 1 (by decide)).2 rfl 0 rfl)
  · intro h
    exact Bool.noConfusion ((h ⟨rfl,_,_,rfl,rfl⟩ 0).symm.trans rfl)
  · intro h
    exact Bool.noConfusion ((h ⟨rfl,_,_,rfl,rfl⟩ 0).symm.trans rfl)

end Client
end FlowFabric.Postgres
