import FlowFabric.Postgres.Machine

/-! Deadlines and due times. The column deadline_at_ms holds the deadline of an execution, and the time
until which a worker has delayed it. A retry that waits for its backoff and a delayed resume have their
due time elsewhere, but the promoter reads the column for them too. -/
namespace FlowFabric.Postgres
open Foundation Option CoreRow

def Rows.delayed (r : Rows) : Prop :=
  r.core.lifecyclePhase = .runnable ∧ r.core.eligibilityState = .notEligibleUntilTime

instance (r : Rows) : Decidable r.delayed := inferInstanceAs (Decidable (_ ∧ _))

variable {r : Rows} {now : Int} {done : Committed}

theorem not_delayed (eligibility : Eligibility) (he : r.core.eligibilityState = eligibility)
    (hn : eligibility ≠ .notEligibleUntilTime) : ¬ r.delayed := fun hd => hn (he.symm.trans hd.2)

theorem not_delayed_of_phase (phase : Phase) (hp : r.core.lifecyclePhase = phase)
    (hn : phase ≠ .runnable) : ¬ r.delayed := fun hd => hn (hp.symm.trans hd.1)

def Op.delays : Op → Bool
  | .worker _ (.delay _) | .failExecution .. | .resumeExecution _ => true
  | _ => false

/-! ### What calls do to a delay -/

variable {r' : Rows}

theorem WorkerWrites.delayed {h : Handle} {op : WorkerOp} (hw : WorkerWrites h now r op r')
    (ho : (Op.worker h op).delays = false) (hd : r'.delayed) : r.delayed := by
  cases hw with
  | renew | progress | appendFrame => exact hd
  | complete | fail | suspend => exact absurd hd (not_delayed .notApplicable rfl (by decide))
  | retry => exact absurd hd (not_delayed .eligibleNow rfl (by decide))
  | waitChildren => exact absurd hd (not_delayed .blockedByDependencies rfl (by decide))
  | delay => cases ho

private theorem delayed_of_freed (hp : r'.core.lifecyclePhase = r.core.freed.lifecyclePhase)
    (he : r'.core.eligibilityState = r.core.freed.eligibilityState) (hd : r'.delayed) : r.delayed := by
  rw [freed] at hp he
  split at he
  · exact absurd hd (not_delayed .eligibleNow he (by decide))
  · rename_i hn
    rw [if_neg hn] at hp
    exact ⟨hp.symm.trans hd.1,he.symm.trans hd.2⟩

theorem Writes.delayed {op : Op} (hw : Writes now r op r') (ho : op.delays = false) (hd : r'.delayed) : r.delayed := by
  cases hw with
  | worker hw => exact hw.delayed ho hd
  | failedRetry | failExecution | resumeExecution => cases ho
  | renewLease | issueReclaimGrant | timeoutSignal | close | joinFlow | changePriority => exact hd
  | claimForWorker => exact absurd hd (not_delayed .pendingClaim rfl (by decide))
  | claim | claimExecution | resumeByOperator | claimByOperator | claimFromResumeGrant | claimResumedExecution
  | reclaimCap | reclaim | completeExecution | expireSuspension | expireAttempt | expireExecution | cancel =>
    exact absurd hd (not_delayed .notApplicable rfl (by decide))
  | retryAttempt | promoteDelayed => exact absurd hd (not_delayed .eligibleNow rfl (by decide))
  | deliver =>
    rw [Rows.signalled] at hd
    split at hd
    · exact absurd hd (not_delayed .eligibleNow rfl (by decide))
    · exact hd
  | cancelExecution =>
    rw [Rows.cancelledBy] at hd
    split at hd <;> exact absurd hd (not_delayed .notApplicable rfl (by decide))
  | revokeLease =>
    rw [Rows.revoked,Rows.updateCore] at hd
    split at hd
    · exact delayed_of_freed rfl rfl hd
    · exact hd
  | replayExecution =>
    by_cases hs : r.skippedMember
    · exact absurd hd (not_delayed .blockedByDependencies (if_pos hs) (by decide))
    · exact absurd hd (not_delayed .eligibleNow (if_neg hs) (by decide))
  | cancelMember => exact absurd hd (not_delayed .cancelled rfl (by decide))
  | cancelHeader reason hn =>
    rw [Rows.updateCore,headerCancelled,if_neg hn] at hd
    exact absurd hd (not_delayed .cancelled rfl (by decide))
  | unblock hn =>
    rw [Rows.updateCore,unblocked,if_neg hn] at hd
    exact absurd hd (not_delayed .eligibleNow rfl (by decide))
  | skip flowId hn =>
    rw [Rows.updateCore,skipped,if_neg hn] at hd
    exact absurd hd (not_delayed .notApplicable rfl (by decide))
  | cancelSibling hn =>
    rw [Rows.updateCore,siblingCancelled,if_neg hn] at hd
    exact absurd hd (not_delayed .notApplicable rfl (by decide))
  | releaseOne => exact delayed_of_freed rfl rfl hd

def commits (c : Call) (r : Rows) : Bool :=
  match step c r with
  | .ok _ => true
  | .error _ => false

theorem commits_ok {c : Call} (h : commits c r = true) : ∃ done, step c r = .ok done := by
  rw [commits] at h
  split at h
  · rename_i done hs
    exact ⟨done,hs⟩
  · cases h

private theorem next_of_not_commits {c : Call} (h : ¬ commits c r = true) : next c r = r := by
  rw [commits] at h
  split at h
  · exact absurd rfl h
  · rename_i e hs
    exact next_of_error hs

private theorem failExecution_active {a : EndArgs} {maxRetries : Nat}
    (hs : failExecution a maxRetries now r = .ok done) : r.core.lifecyclePhase = .active := by
  simp only [failExecution,bind_ok,ensure_ok] at hs
  obtain ⟨-,-,row,-,-,-,-,hp,-⟩ := hs
  exact hp

private theorem resumeExecution_suspended {resumeDelayMs : Nat}
    (hs : resumeExecution resumeDelayMs r = .ok done) : r.core.lifecyclePhase = .suspended := by
  simp only [resumeExecution,bind_ok,ensure_ok] at hs
  obtain ⟨-,hp,-⟩ := hs
  exact hp

theorem promoteDelayed_eq (now : Int) (r : Rows) : (promoteDelayed now r).rows r =
      if r.delayed ∧ r.core.deadlineAtMs.any (· ≤ now) = true then r.updateCore CoreRow.promoted else r := by
  simp only [promoteDelayed,Rows.delayed,and_assoc]
  split <;> rfl

/-! ### Times -/

/-- The time an execution waits for, and whether it is the one in deadline_at_ms. -/
structure Due where
  time : Int
  inColumn : Bool
  deriving DecidableEq

/-- A call, with the time that the backoff gives the retry of fail_execution. -/
structure TimedCall where
  call : Call
  retryAt : Int := 0

def TimedCall.due (q : TimedCall) : Option Due :=
  match q.call.op with
  | .worker _ (.delay delayUntil) => some ⟨delayUntil,true⟩
  | .failExecution .. => some ⟨q.retryAt,false⟩
  | .resumeExecution resumeDelayMs => some ⟨q.call.now + resumeDelayMs,false⟩
  | _ => none

/-- The rows with the deadline that was asked for and with what the execution waits for, if it is delayed. -/
structure Timed where
  rows : Rows
  deadline : Option Int
  due : Option Due := none

open Timed

namespace Timed

def newDue (q : TimedCall) (s : Timed) : Option Due := if commits q.call s.rows = true then q.due else none

def newDeadline (q : TimedCall) (s : Timed) : Option Int :=
  match q.call.op with
  | .claimExecution a => if commits q.call s.rows = true then a.executionDeadlineAt.or s.deadline else s.deadline
  | _ => s.deadline

def after (q : TimedCall) (s : Timed) : Timed where
  rows := next q.call s.rows
  deadline := s.newDeadline q
  due := if (next q.call s.rows).delayed then (s.newDue q).or s.due else none

/-- A promotion is for the due time, and the end of an overdue execution for the deadline. -/
structure Punctual (s : Timed) (q : TimedCall) : Prop where
  promote : q.call.op = .promoteDelayed → ∀ d ∈ s.due,
    ((next q.call s.rows).core.eligibilityState = .eligibleNow ↔ d.time ≤ q.call.now)
  expire : q.call.op = .expireExecution → ¬ s.rows.core.isEnded →
    ((next q.call s.rows).core.isEnded ↔ ∃ deadline ∈ s.deadline, deadline ≤ q.call.now)

structure Separate (s : Timed) (q : TimedCall) : Prop where
  promote : q.call.op = .promoteDelayed → ∀ d ∈ s.due,if d.inColumn = true then d.time ≤ q.call.now → s.deadline = none
    else q.call.now < d.time ∧ ∀ deadline ∈ s.deadline, q.call.now < deadline
  expire : q.call.op = .expireExecution → ¬ s.rows.core.isEnded → ∀ deadline ∈ s.deadline, deadline ≤ q.call.now →
    s.rows.core.lifecyclePhase = .active ∧ deadline < q.call.now
  leave : q.call.op ≠ .promoteDelayed → ∀ d ∈ s.due, d.inColumn = true →
    (next q.call s.rows).delayed ∨ s.deadline = some d.time

def column (s : Timed) : Option Int :=
  match s.due with
  | some ⟨time,true⟩ => some time
  | _ => s.deadline

structure Tracked (s : Timed) : Prop where
  known : s.due.isSome = true ↔ s.rows.delayed
  stored : s.rows.core.deadlineAtMs = s.column

variable {q : TimedCall} {s : Timed}

theorem column_none (h : s.due = none) : s.column = s.deadline := by rw [column,h]

variable {d : Due} {now retryAt : Int}

theorem column_of_due (h : s.due = some d) : s.column = if d.inColumn = true then some d.time else s.deadline := by
  obtain ⟨time,inColumn⟩ := d
  rw [column,h]
  cases inColumn <;> rfl

theorem Tracked.due_none (h : s.Tracked) (hn : ¬ s.rows.delayed) : s.due = none :=
  not_isSome_iff_eq_none.mp fun hd => hn (h.known.mp hd)

theorem after_due_delayed (h : (next q.call s.rows).delayed) : (s.after q).due = (s.newDue q).or s.due := if_pos h

theorem after_due_none (h : ¬ (next q.call s.rows).delayed) : (s.after q).due = none := if_neg h

theorem Tracked.after_known (h : s.Tracked)
    (hw : (next q.call s.rows).delayed → s.rows.delayed ∨ (s.newDue q).isSome = true) :
    (s.after q).due.isSome = true ↔ (next q.call s.rows).delayed := by
  by_cases hd : (next q.call s.rows).delayed
  · rw [after_due_delayed hd,isSome_or,Bool.or_eq_true,h.known]
    exact iff_of_true (hw hd).symm hd
  · rw [after_due_none hd]
    exact iff_of_false Bool.false_ne_true hd

theorem Tracked.of_column (h : s.Tracked)
    (hc : (next q.call s.rows).core.deadlineAtMs = s.rows.core.deadlineAtMs) (hd : s.newDeadline q = s.deadline)
    (hn : ∀ d ∈ s.newDue q, ¬ s.rows.delayed ∧ d.inColumn = false)
    (hw : (next q.call s.rows).delayed → s.rows.delayed ∨ (s.newDue q).isSome = true)
    (hl : ∀ d ∈ s.due, d.inColumn = true → (next q.call s.rows).delayed ∨ s.deadline = some d.time) :
    (s.after q).Tracked := by
  have deadline : (s.after q).deadline = s.deadline := hd
  refine ⟨h.after_known hw,?_⟩
  change (next q.call s.rows).core.deadlineAtMs = _
  rw [hc,h.stored]
  by_cases hx : (next q.call s.rows).delayed
  · cases hnew : s.newDue q with
    | some d =>
      -- it was not delayed, so the column is free
      obtain ⟨hr,hi⟩ := hn d hnew
      have due : (s.after q).due = some d := by rw [after_due_delayed hx,hnew,some_or]
      rw [column_none (h.due_none hr),column_of_due due,deadline,if_neg (by rw [hi]; decide)]
    | none =>
      have due : (s.after q).due = s.due := by rw [after_due_delayed hx,hnew,none_or]
      rw [column,column,due,deadline]
  · rw [column_none (after_due_none hx),deadline]
    cases hs : s.due with
    | none => exact column_none hs
    | some d =>
      rw [column_of_due hs]
      split
      · rename_i hi
        exact ((hl d hs hi).resolve_left hx).symm
      · rfl

/-! ### One call -/

theorem due_isSome (q : TimedCall) : q.due.isSome = q.call.op.delays := by
  obtain ⟨⟨op,now⟩,retryAt⟩ := q
  cases op with
  | worker h op => cases op <;> rfl
  | _ => rfl

private theorem newDue_of_not_delays (h : q.call.op.delays = false) : s.newDue q = none := by
  rw [newDue]
  split
  · rwa [← due_isSome,isSome_eq_false_iff,isNone_iff_eq_none] at h
  · rfl

private theorem newDeadline_of_ne (h : ∀ a, q.call.op ≠ .claimExecution a) : s.newDeadline q = s.deadline := by
  rw [newDeadline]
  split
  · rename_i a ho
    exact absurd ho (h a)
  · rfl

theorem Tracked.idle (h : s.Tracked) (hi : next q.call s.rows = s.rows) (hd : s.newDeadline q = s.deadline)
    (hn : s.newDue q = none) : (s.after q).Tracked := by
  refine h.of_column (by rw [hi]) hd (by simp [hn]) (fun hx => .inl (hi ▸ hx)) fun d hs _ => ?_
  rw [hi]
  exact .inl (h.known.mp (by rw [hs]; rfl))

theorem Tracked.refused (h : s.Tracked) (hc : ¬ commits q.call s.rows = true) : (s.after q).Tracked := by
  refine h.idle (next_of_not_commits hc) ?_ (if_neg hc)
  rw [newDeadline]
  split
  · exact if_neg hc
  · rfl

private theorem deadlineAtMs_of_not_sets (h : q.call.op.setsDeadline = false) :
    (next q.call s.rows).core.deadlineAtMs = s.rows.core.deadlineAtMs := by
  rcases next_writes q.call s.rows with hi | hw
  · rw [hi]
  · exact (hw.sameTerms h).2

private theorem newDue_elsewhere (hs : q.call.op.setsDeadline = false) (hd : s.newDue q = some d) :
    ¬ s.rows.delayed ∧ d.inColumn = false := by
  obtain ⟨⟨op,now⟩,retryAt⟩ := q
  rw [newDue] at hd
  split at hd
  · rename_i hc
    obtain ⟨done,hok⟩ := commits_ok hc
    rw [TimedCall.due] at hd
    split at hd
    · rename_i ho
      cases ho
      cases hs
    · rename_i ho
      cases ho
      cases hd
      exact ⟨not_delayed_of_phase .active (failExecution_active hok) (by decide),rfl⟩
    · rename_i ho
      cases ho
      cases hd
      exact ⟨not_delayed_of_phase .suspended (resumeExecution_suspended hok) (by decide),rfl⟩
    · cases hd
  · cases hd

theorem delayed_or_newDue (hd : (next q.call s.rows).delayed) : s.rows.delayed ∨ (s.newDue q).isSome = true := by
  by_cases hc : commits q.call s.rows = true
  · cases ho : q.call.op.delays with
    | true =>
      rw [newDue,if_pos hc,due_isSome]
      exact .inr ho
    | false =>
      left
      rcases next_writes q.call s.rows with hi | hw
      · rwa [hi] at hd
      · exact hw.delayed ho hd
  · rw [next_of_not_commits hc] at hd
    exact .inl hd

section
variable (h : s.Tracked)
include h

theorem Tracked.claimExecution {a : ClaimExecutionArgs} : (s.after ⟨⟨.claimExecution a,now⟩,retryAt⟩).Tracked := by
  by_cases hc : commits ⟨.claimExecution a,now⟩ s.rows = true
  · obtain ⟨done,hok⟩ := commits_ok hc
    obtain ⟨-,he,hd⟩ := claimExecution_ok hok
    have rows : next ⟨.claimExecution a,now⟩ s.rows = s.rows.claimedByName a now := by rw [next_of_ok hok,hd]
    have active : ¬ (next ⟨.claimExecution a,now⟩ s.rows).delayed := by
      rw [rows]
      exact not_delayed .notApplicable rfl (by decide)
    refine ⟨h.after_known delayed_or_newDue,?_⟩
    have deadline : (s.after ⟨⟨.claimExecution a,now⟩,retryAt⟩).deadline = a.executionDeadlineAt.or s.deadline :=
      if_pos hc
    rw [column_none (after_due_none active),deadline]
    change (next ⟨.claimExecution a,now⟩ s.rows).core.deadlineAtMs = _
    rw [rows,← column_none (h.due_none (not_delayed .eligibleNow he (by decide))),← h.stored]
    rfl
  · exact h.refused hc

theorem Tracked.delay {w : Handle} {delayUntil : Int} :
    (s.after ⟨⟨.worker w (.delay delayUntil),now⟩,retryAt⟩).Tracked := by
  by_cases hc : commits ⟨.worker w (.delay delayUntil),now⟩ s.rows = true
  · obtain ⟨done,hok⟩ := commits_ok hc
    have hd : Postgres.delay w delayUntil s.rows = .ok done := hok
    simp only [Postgres.delay,fenced,bind_ok,pure_ok] at hd
    obtain ⟨-,-,rfl⟩ := hd
    refine ⟨h.after_known delayed_or_newDue,?_⟩
    have delayed : (next ⟨.worker w (.delay delayUntil),now⟩ s.rows).delayed := by
      rw [next_of_ok hok]
      exact ⟨rfl,rfl⟩
    have due : (s.after ⟨⟨.worker w (.delay delayUntil),now⟩,retryAt⟩).due = some ⟨delayUntil,true⟩ := by
      rw [after_due_delayed delayed,newDue,if_pos hc]
      rfl
    rw [column_of_due due]
    change (next ⟨.worker w (.delay delayUntil),now⟩ s.rows).core.deadlineAtMs = _
    rw [next_of_ok hok]
    rfl
  · exact h.refused hc

theorem Tracked.overdue_iff (hl : s.Separate ⟨⟨.promoteDelayed,now⟩,retryAt⟩)
    (hd : s.due = some d) : s.rows.core.deadlineAtMs.any (· ≤ now) = true ↔ d.time ≤ now := by
  have apart := hl.promote rfl d hd
  rw [h.stored,column_of_due hd]
  split
  · rw [any_some,decide_eq_true_eq]
  · rename_i hi
    rw [if_neg hi] at apart
    refine iff_of_false (fun hx => ?_) (not_le.mpr apart.1)
    obtain ⟨deadline,hm,hle⟩ := (any_eq_true _ _).mp hx
    exact absurd (of_decide_eq_true hle) (not_le.mpr (apart.2 deadline hm))

theorem Tracked.after (hl : s.Separate q) : (s.after q).Tracked := by
  cases hs : q.call.op.setsDeadline with
  | false =>
    refine h.of_column (deadlineAtMs_of_not_sets hs) (newDeadline_of_ne ?_) (fun d => newDue_elsewhere hs)
      delayed_or_newDue (hl.leave ?_)
    · intro a ho
      rw [ho] at hs
      cases hs
    · intro ho
      rw [ho] at hs
      cases hs
  | true =>
    obtain ⟨⟨op,now⟩,retryAt⟩ := q
    cases op with
    | claimExecution => exact h.claimExecution
    | promoteDelayed =>
      have rows : next ⟨.promoteDelayed,now⟩ s.rows = _ := promoteDelayed_eq now s.rows
      split at rows
      · rename_i hp
        obtain ⟨d,hd⟩ := isSome_iff_exists.mp (h.known.mpr hp.1)
        have hle : d.time ≤ now := (h.overdue_iff hl hd).mp hp.2
        have apart := hl.promote rfl d hd
        have hi : d.inColumn = true := by
          by_contra hi
          rw [if_neg hi] at apart
          exact absurd apart.1 (not_lt.mpr hle)
        rw [if_pos hi] at apart
        have free : ¬ (next ⟨.promoteDelayed,now⟩ s.rows).delayed := by
          rw [rows]
          exact not_delayed .eligibleNow rfl (by decide)
        refine ⟨h.after_known delayed_or_newDue,?_⟩
        have deadline : (s.after ⟨⟨.promoteDelayed,now⟩,retryAt⟩).deadline = none := apart hle
        rw [column_none (after_due_none free),deadline]
        change (next ⟨.promoteDelayed,now⟩ s.rows).core.deadlineAtMs = _
        rw [rows]
        rfl
      · exact h.idle rows rfl (newDue_of_not_delays rfl)
    | worker w op =>
      cases op with
      | delay => exact h.delay
      | _ => cases hs
    | _ => cases hs

end

/-! ### The two scans -/

theorem Tracked.punctual (h : s.Tracked) (hl : s.Separate q) : s.Punctual q := by
  obtain ⟨⟨op,now⟩,retryAt⟩ := q
  constructor
  · rintro ⟨⟩ d hd
    have delayed : s.rows.delayed := h.known.mp (by rw [hd]; rfl)
    have rows : next ⟨.promoteDelayed,now⟩ s.rows = _ := promoteDelayed_eq now s.rows
    rw [← h.overdue_iff hl hd,rows]
    split
    · rename_i hp
      exact iff_of_true rfl hp.2
    · rename_i hp
      refine iff_of_false ?_ fun hx => hp ⟨delayed,hx⟩
      rw [delayed.2]
      decide
  · rintro ⟨⟩ ho
    have rows : next ⟨.expireExecution,now⟩ s.rows = _ := expireExecution_rows now s.rows
    have apart := hl.expire rfl ho
    rw [rows]
    split
    · rename_i hx
      refine iff_of_true (.inl rfl) ?_
      have free : ¬ s.rows.delayed := not_delayed_of_phase .active hx.1 (by decide)
      rw [h.stored,column_none (h.due_none free)] at hx
      obtain ⟨deadline,hm,hlt⟩ := (any_eq_true _ _).mp hx.2
      exact ⟨deadline,hm,(of_decide_eq_true hlt).le⟩
    · rename_i hx
      refine iff_of_false ho ?_
      rintro ⟨deadline,hm,hle⟩
      obtain ⟨active,hlt⟩ := apart deadline hm hle
      have free : ¬ s.rows.delayed := not_delayed_of_phase .active active (by decide)
      refine hx ⟨active,?_⟩
      rw [h.stored,column_none (h.due_none free),hm,any_some]
      exact decide_eq_true hlt

/-- Where the column is not needed for both, a delayed execution is promoted at its due time, and one with
a deadline ends at its deadline. -/
theorem delays_and_deadlines {r : Rows} (hr : ¬ r.delayed) {qs : List TimedCall}
    (hq : Along after Separate ⟨r,r.core.deadlineAtMs,none⟩ qs) :
    Along after Punctual ⟨r,r.core.deadlineAtMs,none⟩ qs := by
  have start : Tracked ⟨r,r.core.deadlineAtMs,none⟩ := ⟨iff_of_false Bool.false_ne_true hr,rfl⟩
  refine Along.weaken (J := Tracked) ?_ ?_ start hq
  · intro s q hs hl
    exact hs.punctual hl
  · intro s q hs hl
    exact hs.after hl

end Timed

namespace Client

def timed (op : Op) (now : Int) : TimedCall := { call := ⟨op,now⟩ }

def postponed : List TimedCall :=
  [{ call := claims alice 0 },{ call := does 0 1 (.delay 5) 1 },timed .promoteDelayed 3,timed .promoteDelayed 6]

def urgent : Rows := { core := { waiting with deadlineAtMs := some 10 } }

def overdue : List TimedCall := [{ call := claims alice 0 },timed .expireExecution 5,timed .expireExecution 12]

theorem postponed_or_overdue : Along after Timed.Punctual ⟨fresh,none,none⟩ postponed ∧
      (runFrom after ⟨fresh,none,none⟩ postponed).rows.core.eligibilityState = .eligibleNow ∧
      Along after Timed.Punctual ⟨urgent,some 10,none⟩ overdue ∧
      (runFrom after ⟨urgent,some 10,none⟩ overdue).rows.core.lifecyclePhase = .terminal := by
  have free {s : Timed} {q : TimedCall} (hd : s.due = none) (he : q.call.op ≠ .expireExecution) : s.Separate q := by
    refine ⟨fun _ d h => ?_,fun h => absurd h he,fun _ d h => ?_⟩ <;>
    · rw [hd] at h
      cases h
  have scan {s : Timed} {now : Int} (hd : s.due = none) (he : ∀ deadline ∈ s.deadline, deadline ≤ now →
      s.rows.core.lifecyclePhase = .active ∧ deadline < now) : s.Separate (timed .expireExecution now) := by
    refine ⟨fun h => (nomatch h),fun _ _ => he,fun _ d h => ?_⟩
    rw [hd] at h
    cases h
  have promote {s : Timed} {now : Int} {d : Due} (hs : s.due = some d) (hi : d.inColumn = true)
      (hd : s.deadline = none) : s.Separate (timed .promoteDelayed now) := by
    refine ⟨fun _ d' h => ?_,fun h => (nomatch h),fun h => absurd rfl h⟩
    obtain rfl : d = d' := some_inj.mp (hs.symm.trans h)
    rw [if_pos hi]
    exact fun _ => hd
  refine ⟨delays_and_deadlines (by decide) ⟨?_,?_,?_,?_,trivial⟩,by decide,
    delays_and_deadlines (by decide) ⟨?_,?_,?_,trivial⟩,by decide⟩
  · exact free rfl (fun h => (nomatch h))
  · exact free (by decide) (fun h => (nomatch h))
  · exact promote (d := ⟨5,true⟩) (by decide) rfl (by decide)
  · exact promote (d := ⟨5,true⟩) (by decide) rfl (by decide)
  · exact free rfl (fun h => (nomatch h))
  · refine scan (by decide) ?_
    rintro deadline ⟨⟩ h
    exact absurd h (by decide)
  · refine scan (by decide) ?_
    rintro deadline ⟨⟩ -
    decide

/-- An execution with a deadline is delayed past it, promoted and claimed again. -/
def outlives : List TimedCall :=
  [{ call := claims alice 0 },{ call := does 0 1 (.delay 100) 1 },timed .promoteDelayed 100,
    { call := claims alice 101 },timed .expireExecution 200]

/-- The retry of an execution without a deadline. -/
def neverDue : List TimedCall :=
  [{ call := claims alice 0 },{ call := ⟨.failExecution ⟨some 1,.leaseHolder,0⟩ 1,1⟩, retryAt := 50 },
    timed .promoteDelayed 60]

/-- The delay has cleared the deadline, and the retry is not promoted. -/
theorem deadline_lost : ¬ Along after Timed.Punctual ⟨urgent,some 10,none⟩ outlives ∧
      ¬ Along after Timed.Punctual ⟨fresh,none,none⟩ neverDue := by
  refine ⟨fun h => ?_,fun h => ?_⟩
  · have last := h.2.2.2.2.1.expire rfl (by decide)
    exact absurd (last.mpr ⟨10,rfl,by decide⟩) (by decide)
  · have last := h.2.2.1.promote rfl ⟨50,false⟩ (by decide)
    exact absurd (last.mpr (by decide)) (by decide)

end Client
end FlowFabric.Postgres
