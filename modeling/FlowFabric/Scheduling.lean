import FlowFabric.Create
import FlowFabric.Fence

/-! Moves between the indexes of a runnable execution: ff_change_priority,
ff_promote_delayed, ff_block_execution_for_admission and ff_unblock_execution. -/
namespace FlowFabric
open Foundation

structure PriorityArgs where
  executionId : String
  newPriority : Argument
  /-- The lane whose index the caller passes is the one of the execution. -/
  ownLane : Bool := true

/-- The script never compares the lanes. An entry in the index of another one is not among the keys here. -/
def changePriority (a : PriorityArgs) (s : Store) : Outcome := do
  let newPriority ← requireNumber "new_priority" a.newPriority
  let c ← demand s.core (.fail .executionNotFound)
  ensure (c.lifecyclePhase = .runnable) (.fail .executionNotEligible)
  ensure (c.eligibilityState = .eligibleNow) (.fail .executionNotEligible)
  let updated := { c with priority := clampPriority newPriority }
  return (.ok [toString c.priority,toString updated.priority],
    (s.setCore updated).zaddSome .eligible (if a.ownLane then some updated.eligibleScore else none))

/-- The hash of a runnable execution that waits for a worker. The attempt state is kept. -/
def ExecCore.eligible (c : ExecCore) : ExecCore :=
  { c with
    lifecyclePhase := .runnable, ownershipState := .unowned, eligibilityState := .eligibleNow
    blockingReason := .waitingForWorker, terminalOutcome := .none, publicState := .waiting }

structure PromoteArgs where
  executionId : String
  nowMs : Argument

/-- The time is the caller's. Entries of the delayed index that do not belong there
are removed. -/
def promoteDelayed (a : PromoteArgs) (s : Store) : Outcome := do
  let nowMs ← requireNumber "now_ms" a.nowMs
  match s.core with
  | none => return (.ok ["not_found_cleaned"],s.zrem .delayed)
  | some c =>
    if c.lifecyclePhase ≠ .runnable then return (.ok ["not_runnable_cleaned"],s.zrem .delayed)
    else if c.eligibilityState ≠ .notEligibleUntilTime then
      return (.ok ["not_delayed_cleaned"],s.zrem .delayed)
    else
      let delayUntil ← demand c.delayUntil .raised
      if nowMs < delayUntil then return (.ok ["not_yet_due"],s)
      else
        return (.ok ["promoted"],((s.setCore { c.eligible with delayUntil := none }).zrem .delayed).zadd .eligible
            c.eligibleScore)

/-- The admission reasons and the eligibility each of them stands for. -/
def BlockingReason.toEligibility : BlockingReason → Option EligibilityState
  | .waitingForBudget => some .blockedByBudget
  | .waitingForQuota => some .blockedByQuota
  | .waitingForCapableWorker => some .blockedByRoute
  | .pausedByOperator => some .blockedByOperator
  | .pausedByPolicy => some .blockedByLaneState
  | _ => .none

/-- The eligible key is the lane's; the blocked key is the caller's choice. -/
structure BlockArgs where
  executionId : String
  blockingReason : BlockingReason
  nowMs : Int
  blockedZset : Index

def ExecCore.blocked (c : ExecCore) (eligibility : EligibilityState) (reason : BlockingReason) : ExecCore :=
  { c with
    lifecyclePhase := .runnable, ownershipState := .unowned, eligibilityState := eligibility, blockingReason := reason
    terminalOutcome := .none, publicState := .rateLimited }

def blockExecutionForAdmission (a : BlockArgs) (s : Store) : Outcome := do
  let c ← demand s.core (.fail .executionNotFound)
  ensure (c.lifecyclePhase ≠ .terminal) c.notActive
  ensure (c.lifecyclePhase = .runnable) (.fail .executionNotEligible)
  let eligibility ← demand a.blockingReason.toEligibility (.fail .invalidBlockingReason)
  return (.ok ["blocked"],
    ((s.setCore (c.blocked eligibility a.blockingReason)).zrem .eligible).zadd a.blockedZset a.nowMs)

structure UnblockArgs where
  executionId : String
  expectedBlockingReason : Option BlockingReason := none
  blockedZset : Index

/-- The eligibility states an unblock lifts. A lane that is paused is not among them. -/
def EligibilityState.unblockable : EligibilityState → Bool
  | .blockedByBudget | .blockedByQuota | .blockedByRoute | .blockedByOperator => true
  | _ => false

def unblockExecution (a : UnblockArgs) (s : Store) : Outcome := do
  let c ← demand s.core (.fail .executionNotFound)
  ensure (c.lifecyclePhase = .runnable) (.fail .executionNotEligible)
  ensure (c.eligibilityState.unblockable = true) (.fail .executionNotEligible)
  ensure (a.expectedBlockingReason.all fun reason => decide (c.blockingReason = reason)) (.fail .executionNotEligible)
  return (.ok ["unblocked"],((s.setCore c.eligible).zrem a.blockedZset).zadd .eligible c.eligibleScore)

variable {reply : Reply} {s t : Store}

theorem changePriority_ok {a : PriorityArgs} (h : changePriority a s = .ok (reply,t)) :
    ∃ c priority score, s.core = some c ∧ c.lifecyclePhase = .runnable ∧
      c.eligibilityState = .eligibleNow ∧ t = (s.setCore { c with priority }).zaddSome .eligible score := by
  simp only [changePriority,bind_ok,requireNumber_ok,demand_ok,ensure_ok] at h
  obtain ⟨_,-,c,hc,_,hp,_,he,h⟩ := h
  cases h
  exact ⟨c,_,_,hc,hp,he,rfl⟩

theorem promoteDelayed_ok {a : PromoteArgs} (h : promoteDelayed a s = .ok (reply,t)) : t = s ∨
      (t = s.zrem .delayed ∧ ∀ c, s.core = some c → c.lifecyclePhase = .runnable →
        c.eligibilityState ≠ .notEligibleUntilTime) ∨
      ∃ c, s.core = some c ∧ c.lifecyclePhase = .runnable ∧ c.eligibilityState = .notEligibleUntilTime ∧
        t = ((s.setCore { c.eligible with delayUntil := none }).zrem .delayed).zadd .eligible
          c.eligibleScore := by
  simp only [promoteDelayed,bind_ok,requireNumber_ok] at h
  obtain ⟨_,-,h⟩ := h
  split at h
  · rename_i hc
    cases h; exact .inr (.inl ⟨rfl,by simp [hc]⟩)
  · rename_i c hc
    split at h
    · rename_i hp
      cases h; exact .inr (.inl ⟨rfl,by simp_all⟩)
    · rename_i hp
      split at h
      · rename_i he
        cases h; exact .inr (.inl ⟨rfl,by simp_all⟩)
      · rename_i he
        simp only [bind_ok,demand_ok] at h
        obtain ⟨_,-,h⟩ := h
        split at h
        · cases h; exact .inl rfl
        · cases h; exact .inr (.inr ⟨c,hc,by simpa using hp,by simpa using he,rfl⟩)

theorem blockExecutionForAdmission_ok {a : BlockArgs} (h : blockExecutionForAdmission a s = .ok (reply,t)) :
    ∃ c eligibility, s.core = some c ∧ c.lifecyclePhase = .runnable ∧
      a.blockingReason.toEligibility = some eligibility ∧
      t = ((s.setCore (c.blocked eligibility a.blockingReason)).zrem .eligible).zadd a.blockedZset a.nowMs := by
  simp only [blockExecutionForAdmission,bind_ok,demand_ok,ensure_ok] at h
  obtain ⟨c,hc,_,-,_,hp,e,he,h⟩ := h
  cases h
  exact ⟨c,e,hc,hp,he,rfl⟩

theorem unblockExecution_ok {a : UnblockArgs} (h : unblockExecution a s = .ok (reply,t)) :
    ∃ c, s.core = some c ∧ c.lifecyclePhase = .runnable ∧ c.eligibilityState.unblockable ∧
      t = ((s.setCore c.eligible).zrem a.blockedZset).zadd .eligible c.eligibleScore := by
  simp only [unblockExecution,bind_ok,demand_ok,ensure_ok] at h
  obtain ⟨c,hc,_,hp,_,he,_,-,h⟩ := h
  cases h
  exact ⟨c,hc,hp,he,rfl⟩

end FlowFabric
