import FlowFabric.Foundation.Script
import FlowFabric.Store

/-! What a script returns, and the numbers it requires of its caller. -/
namespace FlowFabric
open Foundation

inductive ErrorCode where
  | executionNotFound | executionNotLeaseable | leaseConflict | activeAttemptExists
  | useClaimResumedExecution | invalidClaimGrant | claimGrantExpired | executionNotActive
  | leaseRevoked | leaseExpired | staleLease | partialFenceTriple | fenceRequired | invalidInput
  | invalidPolicyJson | invalidCapabilities | executionNotReclaimable | maxRetriesExhausted
  | noActiveLease | executionNotEligible | grantAlreadyExists | executionNotInEligibleSet
  | capabilityMismatch | additionalWaitpointBindingMalformed | invalidLeaseForSuspend
  | alreadySuspended | waitpointNotFound | waitpointNotPending | invalidWaitpointForExecution
  | pendingWaitpointExpired | waitpointNotTokenBound | usePendingWithExtrasUnsupported
  | hmacSecretNotInitialized | invalidSecret | missingToken | invalidToken | tokenExpired
  | executionNotSuspended | waitpointAlreadyExists | waitpointNotOpen | invalidKid
  | invalidSecretHex | invalidGraceMs | rotationConflict | targetNotSignalable
  | waitpointPendingUseBufferScript | waitpointClosed | signalLimitExceeded
  | notAResumedExecution | flowNotFound | flowAlreadyTerminal | alreadyMemberOfDifferentFlow
  | executionAlreadyInFlow | invalidDependency | invariantViolation | notRunnable
  | notBlockedByDeps | terminal | depsNotSatisfied | executionNotTerminal | maxReplaysExhausted
  | invalidBlockingReason | retentionLimitExceeded | streamClosed | staleOwnerCannotAppend
  | invalidTagKey | selfReferencingEdge | staleGraphRevision | executionNotInFlow | cycleDetected
  | dependencyAlreadyExists
  deriving DecidableEq

/-- The tuple a script returns. A script that raises returns none of them. -/
inductive Reply where
  | ok (fields : List String)
  | alreadySatisfied (fields : List String)
  | duplicate (fields : List String)
  | err (code : ErrorCode) (details : List String)
  | raised
  deriving DecidableEq

/-- An error without detail. -/
abbrev Reply.fail (code : ErrorCode) : Reply := .err code []

def Reply.isError : Reply → Bool
  | .err _ _ | .raised => true
  | .ok _ | .alreadySatisfied _ | .duplicate _ => false

/-- A script's outcome: an early return, or a reply with the store it wrote. -/
abbrev Outcome := Except Reply (Reply × Store)

inductive Argument where
  | number (n : Int)
  | text (raw : String)

def Argument.toNumber : Argument → Option Int
  | .number n => some n
  | .text _ => none

def requireNumber (name : String) : Argument → Except Reply Int
  | .number n => .ok n
  | .text raw => .error (.err .invalidInput [name ++ " must be a number, got: " ++ raw])

@[simp] theorem requireNumber_ok (name : String) (a : Argument) (n : Int) :
    requireNumber name a = .ok n ↔ a = .number n := by
  cases a <;> simp [requireNumber]

/-- The keys a caller derives from what it knows of the execution: which attempt,
which worker instance and which waitpoint they belong to. -/
structure Keys where
  attemptIndex : Nat := 0
  (workerInstanceId waitpointId : String := "")

end FlowFabric
