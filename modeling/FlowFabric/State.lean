import Mathlib.Logic.Basic

/-! The state vector of an execution and the public state derived from it. -/
namespace FlowFabric

/-- Times below it, in milliseconds, are printed by Lua with all their digits: 14 of them. -/
def clockEnd : Int := 100000000000000

inductive LifecyclePhase where
  | submitted | runnable | active | suspended | terminal
  deriving DecidableEq

inductive OwnershipState where
  | unowned | leased | leaseExpiredReclaimable | leaseRevoked
  deriving DecidableEq

inductive EligibilityState where
  | eligibleNow | notEligibleUntilTime | blockedByDependencies | blockedByBudget | blockedByQuota
  | blockedByRoute | blockedByLaneState | blockedByOperator | notApplicable
  deriving DecidableEq

inductive BlockingReason where
  | none | waitingForWorker | waitingForRetryBackoff | waitingForResumeDelay | waitingForDelay
  | waitingForSignal | waitingForApproval | waitingForCallback | waitingForToolResult
  | waitingForChildren | waitingForBudget | waitingForQuota | waitingForCapableWorker
  | waitingForLocalityMatch | pausedByOperator | pausedByPolicy | pausedByFlowCancel
  deriving DecidableEq

inductive TerminalOutcome where
  | none | success | failed | cancelled | expired | skipped
  deriving DecidableEq

inductive AttemptState where
  | none | pendingFirstAttempt | runningAttempt | attemptInterrupted | pendingRetryAttempt
  | pendingReplayAttempt | attemptTerminal
  deriving DecidableEq

inductive PublicState where
  | waiting | delayed | rateLimited | waitingChildren | active | suspended | resumable
  | completed | failed | cancelled | expired | skipped
  deriving DecidableEq

def LifecyclePhase.text : LifecyclePhase → String
  | .submitted => "submitted"
  | .runnable => "runnable"
  | .active => "active"
  | .suspended => "suspended"
  | .terminal => "terminal"

def TerminalOutcome.text : TerminalOutcome → String
  | .none => "none"
  | .success => "success"
  | .failed => "failed"
  | .cancelled => "cancelled"
  | .expired => "expired"
  | .skipped => "skipped"

def OwnershipState.text : OwnershipState → String
  | .unowned => "unowned"
  | .leased => "leased"
  | .leaseExpiredReclaimable => "lease_expired_reclaimable"
  | .leaseRevoked => "lease_revoked"

def PublicState.text : PublicState → String
  | .waiting => "waiting"
  | .delayed => "delayed"
  | .rateLimited => "rate_limited"
  | .waitingChildren => "waiting_children"
  | .active => "active"
  | .suspended => "suspended"
  | .resumable => "resumable"
  | .completed => "completed"
  | .failed => "failed"
  | .cancelled => "cancelled"
  | .expired => "expired"
  | .skipped => "skipped"

/-- The state of one attempt record. -/
inductive AttemptLifecycle where
  | created | started | suspended | endedSuccess | endedFailure | endedCancelled
  | interruptedReclaimed
  deriving DecidableEq

/-- The attempt record takes no further part in the execution. -/
def AttemptLifecycle.ended : AttemptLifecycle → Bool
  | .endedSuccess | .endedFailure | .endedCancelled | .interruptedReclaimed => true
  | .created | .started | .suspended => false

structure StateVector where
  lifecyclePhase : LifecyclePhase
  ownershipState : OwnershipState
  eligibilityState : EligibilityState
  blockingReason : BlockingReason
  terminalOutcome : TerminalOutcome
  attemptState : AttemptState
  publicState : PublicState

/-- The user-facing label, a function of three of the dimensions. A terminal
vector without an outcome is corrupt and is shown as failed. -/
def derivePublicState (phase : LifecyclePhase) (eligibility : EligibilityState)
    (outcome : TerminalOutcome) : PublicState :=
  match phase with
  | .terminal =>
    match outcome with
    | .success => .completed
    | .failed => .failed
    | .cancelled => .cancelled
    | .expired => .expired
    | .skipped => .skipped
    | .none => .failed
  | .suspended => .suspended
  | .active => .active
  | .runnable =>
    match eligibility with
    | .eligibleNow => .waiting
    | .notEligibleUntilTime => .delayed
    | .blockedByDependencies => .waitingChildren
    | .blockedByBudget | .blockedByQuota => .rateLimited
    | .blockedByRoute | .blockedByLaneState | .blockedByOperator => .waiting
    | .notApplicable => .waiting
  | .submitted => .waiting

def StateVector.derivePublicState (v : StateVector) : PublicState :=
  FlowFabric.derivePublicState v.lifecyclePhase v.eligibilityState v.terminalOutcome

def StateVector.isConsistent (v : StateVector) : Bool := v.publicState == v.derivePublicState

end FlowFabric
