import FlowFabric.Postgres.SuspendOps

/-! Cancelling, revoking and replaying, the part of the flow's methods that falls on one member, and
the reconcilers of leases and deadlines. -/
namespace FlowFabric.Postgres
open Foundation Transaction

/-! ### create_execution -/

structure CreateArgs where
  (laneId fieldNamespace : String := "default")
  priority : Int := 0
  executionDeadlineAt : Option Int := none
  maxRetries : Nat := 0
  requiredCapabilities : List String := []

def CoreRow.created (a : CreateArgs) (now : Int) : CoreRow :=
  { laneId := a.laneId
    lifecyclePhase := .submitted, ownershipState := .unowned, eligibilityState := .eligibleNow, publicState := .waiting
    attemptState := .pending, priority := a.priority, createdAtMs := now, deadlineAtMs := a.executionDeadlineAt
    maxRetries := a.maxRetries
    rawFields := {
      fieldNamespace := some a.fieldNamespace, lastMutationAt := some now, totalAttemptCount := some 0 } }

/-! ### Cancelling -/

def Rows.clearOutcome (r : Rows) : Rows := r.updateAttempt r.core.attemptIndex fun row => { row with outcome := none }

variable (reason : String)

def Rows.cancelledByWorker (now : Int) (r : Rows) : Rows :=
  (r.updateCore fun c =>
    { (c.mutatedAt now).ended now with
      publicState := .cancelled, attemptState := .cancelled, cancellationReason := some reason
      cancelledBy := some "worker" }).clearOutcome

/-- The cancel under a handle. It knows one of the two spellings of an ended execution. -/
def cancel (reason : String) (now : Int) (r : Rows) : Transaction :=
  if r.core.lifecyclePhase = .terminal then
    if r.core.publicState = .cancelled then .ok { reply := .done, rows := r }
    else .error (.invalidInput
      ("cancel: already terminal in state '" ++ r.core.publicState.text ++ "'"))
  else .ok { reply := .done, rows := r.cancelledByWorker reason now }

theorem cancel_rows (now : Int) (r : Rows) : (cancel reason now r).rows r =
      if r.core.lifecyclePhase = .terminal then r else r.cancelledByWorker reason now := by
  unfold cancel
  split
  · split <;> rfl
  · rfl

def AttemptRow.held (row : AttemptRow) : Bool := row.workerInstanceId.any (· ≠ "")

structure CancelExecutionArgs where
  reason : String
  source : CancelSource
  leaseEpoch : Option Nat

/-- The current attempt is one a worker holds. -/
def Rows.leaseActive (r : Rows) : Bool := r.current.any AttemptRow.held

variable (a : CancelExecutionArgs)

/-- Everyone but an operator has to know the epoch of a lease that is held. -/
def CancelExecutionArgs.checksLease (r : Rows) : Except EngineError Unit :=
  if a.source ≠ .operatorOverride ∧ r.leaseActive = true then do
    let epoch ← demand a.leaseEpoch (.invalidInput
      "cancel_execution: lease_epoch required when source != operator_override and execution is active")
    ensure (r.epochAt r.core.attemptIndex = epoch) (.state .staleLease)
  else .ok ()

def Rows.cancelledBy (a : CancelExecutionArgs) (now : Int) (r : Rows) : Rows :=
  let flipped := r.updateCore fun c =>
    { c.mutatedAt now with
      lifecyclePhase := .cancelled, ownershipState := .unowned, eligibilityState := .notApplicable
      publicState := .cancelled, attemptState := .cancelled, terminalAtMs := c.terminalAtMs.or (some now)
      cancellationReason := c.cancellationReason.or (some a.reason)
      cancelledBy := c.cancelledBy.or (some a.source.text) }
  if r.leaseActive = true then
    flipped.updateAttempt r.core.attemptIndex fun row =>
      { row with
        workerInstanceId := none, leaseExpiresAtMs := none, leaseEpoch := row.leaseEpoch + 1, terminalAtMs := some now
        outcome := some .cancelled }
  else flipped

def cancelExecution (now : Int) (r : Rows) : Transaction :=
  if r.core.isEnded then
    if r.core.publicState = .cancelled then .ok { reply := .publicly .cancelled, rows := r }
    else .error (.invalidInput
      ("cancel_execution: already terminal in state '" ++ r.core.publicState.text ++ "'"))
  else do
    a.checksLease r
    return { reply := .publicly .cancelled, rows := r.cancelledBy a now }

theorem cancelExecution_rows (now : Int) (r : Rows) : (cancelExecution a now r).rows r = r ∨
      ¬ r.core.isEnded ∧ (cancelExecution a now r).rows r = r.cancelledBy a now := by
  unfold cancelExecution
  split
  · split <;> exact .inl rfl
  · rename_i hn
    cases a.checksLease r with
    | error => exact .inl rfl
    | ok => exact .inr ⟨hn,rfl⟩

/-! ### Revoking and replaying -/

def CoreRow.freed (c : CoreRow) : CoreRow :=
  if c.lifecyclePhase = .active then c.requeued .eligibleNow .attemptInterrupted else c

structure RevokeArgs where
  /-- An empty one stands for whoever holds the lease. -/
  workerInstanceId : String := ""
  /-- The attempt index and the epoch, which make up the lease id. -/
  expectedLease : Option (Nat × Nat) := none

def Rows.revoked (now : Int) (r : Rows) : Rows :=
  (r.updateAttempt r.core.attemptIndex fun row =>
    { row with
      workerInstanceId := none, leaseExpiresAtMs := none
      leaseEpoch := row.leaseEpoch + 1 }).updateCore fun c =>
        if c.lifecyclePhase = .active then c.freed.mutatedAt now else c

def revokeLease (a : RevokeArgs) (now : Int) (r : Rows) : Transaction :=
  match r.current with
  | none => .ok { reply := .alreadySatisfied "no_active_lease", rows := r }
  | some row =>
    if row.held = false then .ok { reply := .alreadySatisfied "no_active_lease", rows := r }
    else if a.workerInstanceId ≠ "" ∧ row.workerInstanceId ≠ some a.workerInstanceId then
      .ok { reply := .alreadySatisfied "different_worker_instance_id", rows := r }
    else if ∃ lease ∈ a.expectedLease, lease ≠ (r.core.attemptIndex,row.leaseEpoch) then
      .ok { reply := .alreadySatisfied "lease_id_mismatch", rows := r }
    else .ok { reply := .revoked (row.leaseEpoch + 1), rows := r.revoked now }

theorem revokeLease_rows (a : RevokeArgs) (now : Int) (r : Rows) :
    (revokeLease a now r).rows r = r ∨ (revokeLease a now r).rows r = r.revoked now := by
  unfold revokeLease
  cases r.current with
  | none => exact .inl rfl
  | some =>
    dsimp only
    split
    · exact .inl rfl
    · split
      · exact .inl rfl
      · split
        · exact .inl rfl
        · exact .inr rfl

def changePriority (newPriority : Int) (now : Int) (r : Rows) : Transaction := do
  ensure (r.core.lifecyclePhase = .runnable ∧ r.core.eligibilityState = .eligibleNow)
    (.contention .executionNotEligible)
  return {
    reply := .done, rows := r.updateCore fun c => { c.mutatedAt now with priority := max 0 (min newPriority 9000) } }

theorem changePriority_rows (newPriority : Int) (now : Int) (r : Rows) : (changePriority newPriority now r).rows r =
      if r.core.lifecyclePhase = .runnable ∧ r.core.eligibilityState = .eligibleNow then
        r.updateCore fun c => { c.mutatedAt now with priority := max 0 (min newPriority 9000) }
      else r :=
  rows_ensure r _ _ _

/-- The current attempt says that the flow skipped the execution. -/
def Rows.skippedMember (r : Rows) : Prop := r.current.bind AttemptRow.outcome = some .skipped ∧ r.core.flowId ≠ none

instance (r : Rows) : Decidable r.skippedMember := inferInstanceAs (Decidable (_ ∧ _))

def Rows.replayed (now : Int) (r : Rows) : Rows :=
  (r.updateCore fun c =>
    { (c.mutatedAt now).requeued (if r.skippedMember then .blockedByDependencies else .eligibleNow)
        .pendingReplayAttempt with
      publicState := if r.skippedMember then .waitingChildren else .waiting, terminalAtMs := none, result := none
      cancellationReason := none
      cancelledBy := none }).updateAttempt r.core.attemptIndex fun row =>
        { row with
          outcome := none, terminalAtMs := none, workerId := none, workerInstanceId := none, leaseExpiresAtMs := none
          leaseEpoch := row.leaseEpoch + 1 }

/-- Only one of the two spellings of an ended execution can be replayed. -/
def replayExecution (now : Int) (r : Rows) : Transaction := do
  ensure (r.core.lifecyclePhase = .terminal) (.state .executionNotTerminal)
  return {
    reply := .publicly (if r.skippedMember then .waitingChildren else .waiting), rows := r.replayed now }

variable (now : Int) (r : Rows) (i : Nat)

theorem replayExecution_rows :
    (replayExecution now r).rows r = if r.core.lifecyclePhase = .terminal then r.replayed now else r :=
  rows_ensure r _ _ _

/-! ### A member of a flow -/

/-- What a flow that is cancelled writes on a member. Its ownership and its attempt state stay. -/
def CoreRow.flowCancelled (reason cause : String) (now : Int) (c : CoreRow) : CoreRow :=
  { c with
    lifecyclePhase := .cancelled, eligibilityState := .cancelled, publicState := .cancelled
    terminalAtMs := c.terminalAtMs.or (some now), cancellationReason := c.cancellationReason.or (some reason)
    cancelledBy := c.cancelledBy.or (some cause) }

inductive CancelFlowPolicy where
  | flowOnly | cancelAll | cancelPending
  deriving DecidableEq

/-- The filter of cancel_flow on the phase of a member. -/
def CancelFlowPolicy.selects : CancelFlowPolicy → Phase → Bool
  | .flowOnly, _ => false
  | .cancelAll, phase => phase ∉ [.completed,.failed,.cancelled,.expired]
  | .cancelPending, phase => phase ∈ [.pending,.blocked,.eligible]

def Rows.cancelledMember (now : Int) (r : Rows) : Rows :=
  (r.updateCore (.flowCancelled "flow_cancelled" "cancel_flow" now)).clearOutcome

/-- cancel_flow on one member. -/
def cancelMember (policy : CancelFlowPolicy) (now : Int) (r : Rows) : Transaction :=
  if policy.selects r.core.lifecyclePhase = true then
    .ok { reply := .done, rows := r.cancelledMember now, events := [r.completion .cancelled now] }
  else .ok { reply := .nothing, rows := r }

theorem cancelMember_rows (policy : CancelFlowPolicy) (now : Int) (r : Rows) : (cancelMember policy now r).rows r =
      if policy.selects r.core.lifecyclePhase = true then r.cancelledMember now else r := by
  unfold cancelMember
  split <;> rfl

/-- cancel_flow_header on one member. -/
def CoreRow.headerCancelled (now : Int) (c : CoreRow) : CoreRow :=
  if c.isEnded then c else c.flowCancelled reason "cancel_flow_header" now

def CoreRow.unblocked (c : CoreRow) : CoreRow :=
  if c.isEnded then c
  else { c with
    eligibilityState := .eligibleNow
    lifecyclePhase := if c.lifecyclePhase = .blocked then .runnable else c.lifecyclePhase }

/-- The edge group of the execution cannot be satisfied any more. -/
def CoreRow.skipped (now : Int) (c : CoreRow) : CoreRow :=
  if c.isEnded then c
  else { c with
    lifecyclePhase := .terminal, eligibilityState := .notApplicable, publicState := .skipped
    attemptState := .attemptTerminal, terminalAtMs := c.terminalAtMs.or (some now) }

/-- A sibling of an upstream whose edge group does not need it any more. -/
def CoreRow.siblingCancelled (now : Int) (c : CoreRow) : CoreRow :=
  if c.isEnded then c
  else { c.mutatedAt now with
    lifecyclePhase := .terminal, ownershipState := .unowned, eligibilityState := .notApplicable
    publicState := .cancelled, attemptState := .cancelled, terminalAtMs := c.terminalAtMs.or (some now)
    cancellationReason := c.cancellationReason.or (some "sibling_quorum_satisfied")
    cancelledBy := c.cancelledBy.or (some "engine") }

/-! ### Reconcilers -/

/-- The lease of the attempt has run out. Any attempt is looked at, not only the current one. -/
def Rows.overdue (r : Rows) (i : Nat) (now : Int) : Bool :=
  (r.attempt i).any fun row => row.leaseExpiresAtMs.any (· < now)

def Rows.releasedOne (i : Nat) (r : Rows) : Rows :=
  (r.updateAttempt i (.interrupted .leaseExpiredReclaimable)).updateCore CoreRow.freed

/-- lease_expiry -/
def releaseOne (i : Nat) (now : Int) (r : Rows) : Transaction :=
  if r.overdue i now = true then .ok { reply := .done, rows := r.releasedOne i }
  else .ok { reply := .nothing, rows := r }

theorem releaseOne_rows (now : Int) (r : Rows) :
    (releaseOne i now r).rows r = if r.overdue i now = true then r.releasedOne i else r := by
  unfold releaseOne
  split <;> rfl

def Rows.retriedAfter (i : Nat) (now : Int) (r : Rows) : Rows :=
  (r.updateAttempt i (.closed .interrupted now)).updateCore CoreRow.retried

def Rows.expiredAt (i : Nat) (now : Int) (r : Rows) : Rows :=
  (r.updateAttempt i (.closed .interrupted now)).updateCore (.ended now)

/-- attempt_timeout. The retries are counted by the index of the core row. -/
def expireAttempt (i : Nat) (now : Int) (r : Rows) : Transaction :=
  if r.overdue i now = true ∧ r.core.lifecyclePhase = .active then
    if r.core.attemptIndex < r.core.maxRetries then do
      ensure (r.core.attemptIndex < i32Max) .transport
      return { reply := .done, rows := r.retriedAfter i now }
    else
      return { reply := .done, rows := r.expiredAt i now, events := [r.completion .expired now] }
  else .ok { reply := .nothing, rows := r }

theorem expireAttempt_rows (now : Int) (r : Rows) : (expireAttempt i now r).rows r = r ∨
      r.core.lifecyclePhase = .active ∧ r.overdue i now = true ∧
        ((expireAttempt i now r).rows r = r.retriedAfter i now ∨
          (expireAttempt i now r).rows r = r.expiredAt i now) := by
  unfold expireAttempt
  split
  · rename_i h
    split
    · rw [rows_ensure]
      split
      · exact .inr ⟨h.2,h.1,.inl rfl⟩
      · exact .inl rfl
    · exact .inr ⟨h.2,h.1,.inr rfl⟩
  · exact .inl rfl

/-- execution_deadline -/
def expireExecution (now : Int) (r : Rows) : Transaction :=
  if r.core.lifecyclePhase = .active ∧ r.core.deadlineAtMs.any (· < now) = true then
    .ok {
      reply := .done, rows := r.expiredAt r.core.attemptIndex now, events := [r.completion .expired now] }
  else .ok { reply := .nothing, rows := r }

theorem expireExecution_rows : (expireExecution now r).rows r =
      if r.core.lifecyclePhase = .active ∧ r.core.deadlineAtMs.any (· < now) = true then
        r.expiredAt r.core.attemptIndex now
      else r := by
  unfold expireExecution
  split <;> rfl

def CoreRow.promoted (c : CoreRow) : CoreRow := { c with eligibilityState := .eligibleNow, deadlineAtMs := none }

/-- delayed_promoter -/
def promoteDelayed (now : Int) (r : Rows) : Transaction :=
  if r.core.lifecyclePhase = .runnable ∧ r.core.eligibilityState = .notEligibleUntilTime ∧
      r.core.deadlineAtMs.any (· ≤ now) = true then
    .ok { reply := .done, rows := r.updateCore CoreRow.promoted }
  else .ok { reply := .nothing, rows := r }

theorem promoteDelayed_rows : (promoteDelayed now r).rows r = r ∨
      r.core.lifecyclePhase = .runnable ∧ r.core.eligibilityState = .notEligibleUntilTime ∧
        (promoteDelayed now r).rows r = r.updateCore CoreRow.promoted := by
  unfold promoteDelayed
  split
  · rename_i h
    exact .inr ⟨h.1,h.2.1,rfl⟩
  · exact .inl rfl

end FlowFabric.Postgres
