import FlowFabric.Condition
import FlowFabric.Foundation.Json
import FlowFabric.State

/-! The records the scripts keep about one execution, its keys and the commands issued on them. A
field that can be the empty text is an option or an empty string; times are milliseconds. -/
namespace FlowFabric
open Foundation

/-- The exec_core hash. -/
structure ExecCore where
  executionId : String
  priority : Int
  lifecyclePhase : LifecyclePhase
  ownershipState : OwnershipState
  eligibilityState : EligibilityState
  blockingReason : BlockingReason
  terminalOutcome : TerminalOutcome
  attemptState : AttemptState
  publicState : PublicState
  totalAttemptCount : Nat := 0
  currentAttemptIndex : Option Nat := none
  (currentAttemptId currentLeaseId : String := "")
  currentLeaseEpoch : Nat := 0
  (currentWorkerId currentWorkerInstanceId : String := "")
  (retryCount replayCount leaseReclaimCount : Nat := 0)
  createdAt : Int
  (startedAt completedAt leaseExpiresAt leaseRenewalDeadline leaseRevokedAt delayUntil : Option Int := none)
  (currentSuspensionId currentWaitpointId progressPct progressMessage flowId : String := "")
  (requiredCapabilities failureReason cancellationReason : String := "")
  deriving DecidableEq

def ExecCore.stateVector (c : ExecCore) : StateVector where
  lifecyclePhase := c.lifecyclePhase
  ownershipState := c.ownershipState
  eligibilityState := c.eligibilityState
  blockingReason := c.blockingReason
  terminalOutcome := c.terminalOutcome
  attemptState := c.attemptState
  publicState := c.publicState

/-- The score in the eligible index: priority first, then creation time. -/
def ExecCore.eligibleScore (c : ExecCore) : Int := 0 - c.priority * 1000000000000 + c.createdAt

def indexText : Option Nat → String
  | some n => toString n
  | none => ""

inductive AttemptType where
  | initial | retry | replay | reclaim

/-- One attempt hash. Writing to an absent hash fills the other fields with nothing. -/
structure Attempt where
  attemptId : String := ""
  attemptType : AttemptType := .initial
  attemptState : AttemptLifecycle := .created
  leaseId : String := ""
  leaseEpoch : Nat := 0
  (workerId workerInstanceId : String := "")
  endedAt : Option Int := none
  (failureReason suspensionId : String := "")

/-- The claim_grant hash. The key expires when the grant does. -/
structure Grant where
  (workerId workerInstanceId : String)
  grantExpiresAt : Int

/-- The lease_current hash with the expiry of its key, if a renewal has set one. -/
structure LeaseRecord where
  leaseId : String := ""
  leaseEpoch : Nat := 0
  (attemptId workerId workerInstanceId : String := "")
  expiresAt : Int
  keyExpiresAt : Option Int := none

/-- The stream_meta hash of an attempt. -/
structure StreamMeta where
  closedAt : Option Int := none
  closedReason : String := ""
  frameCount : Nat := 0

inductive WaitpointState where
  | pending | active | closed | expired
  deriving DecidableEq

/-- A waitpoint hash. It has no creation time when it was only ever closed. -/
structure Waitpoint where
  (executionId attemptIndex suspensionId waitpointKey waitpointToken : String := "")
  state : WaitpointState
  (createdAt expiresAt : Option Int := none)

inductive TimeoutBehavior where
  | fail | cancel | expire | autoResume | autoResumeWithTimeoutSignal | escalate | unset
  deriving DecidableEq

/-- The suspension_current hash. -/
structure Suspension where
  (suspensionId waitpointId waitpointKey : String)
  additionalWaitpoints : List (String × String)
  reasonCode : String
  timeoutAt : Option Int
  timeoutBehavior : TimeoutBehavior
  closedAt : Option Int := none
  closeReason : String := ""

inductive DependencyState where
  | unsatisfied | satisfied | impossible
  deriving DecidableEq

/-- The record of one inbound edge. -/
structure Dependency where
  state : DependencyState
  dataPassingRef : String

inductive PolicyVariant where
  | allOf | anyOf | quorum
  deriving DecidableEq

inductive OnSatisfied where
  | cancelRemaining | letRun | unset
  deriving DecidableEq

inductive GroupState where
  | pending | satisfied | impossible | cancelled
  deriving DecidableEq

structure EdgeGroup where
  policyVariant : PolicyVariant
  onSatisfied : OnSatisfied := .unset
  k : Int := 0
  n : Int
  (succeeded failed skipped : Int := 0)
  groupState : GroupState := .pending
  cancelSiblingsPending : Option (List String) := none

/-- The waitpoint signing secrets of the partition. The kids with an expiry are listed
so that they can be counted. -/
structure HmacSecrets where
  currentKid : Option String := none
  secret : String → Option String := fun _ => none
  expiresAt : String → Option Int := fun _ => none
  expiring : Finset String := ∅
  mem_expiring : ∀ kid, kid ∈ expiring ↔ (expiresAt kid).isSome := by simp

structure Completion where
  (executionId flowId : String)
  outcome : TerminalOutcome
  deriving DecidableEq

/-- The sorted sets an execution id can be a member of. The first ten are the
indexes of its lane. -/
inductive Index where
  | eligible | delayed | active | suspended | terminal | blockedDependencies | blockedBudget
  | blockedQuota | blockedRoute | blockedOperator | leaseExpiry | suspensionTimeout
  | attemptTimeout | executionDeadline
  deriving DecidableEq

/-- The keys behind suspension and signal delivery. Waitpoint keys are indexed by the
waitpoint id, deduplication keys by what the caller put into them. -/
structure WaitKeys where
  suspension : Option Suspension := none
  waitpoint : String → Option Waitpoint := fun _ => none
  condition : String → Option Condition := fun _ => none
  signals : String → List Signal := fun _ => []
  (satisfiedSet satisfierSignals : Finset String := ∅)
  memberMap : List (String × String) := []
  execSignals : Finset String := ∅
  signalIdem : String → String → Option (String × Int) := fun _ _ => none
  suspendDedup : String → Option (String × Option Int) := fun _ => none

namespace WaitKeys
variable (w : WaitKeys)

variable (id : String)

@[simps] def setWaitpoint (p : Waitpoint) : WaitKeys :=
  { w with waitpoint := fun j => if j = id then some p else w.waitpoint j }

@[simps] def setCondition (cond : Condition) : WaitKeys :=
  { w with condition := fun j => if j = id then some cond else w.condition j }

@[simps] def setSuspension (p : Suspension) : WaitKeys := { w with suspension := some p }

@[simps] def delSuspension : WaitKeys := { w with suspension := none }

/-- Close the suspension record if there is one. -/
@[simps] def closeSuspension (now : Int) (reason : String) : WaitKeys :=
  { w with suspension := w.suspension.map fun p => { p with closedAt := some now, closeReason := reason } }

/-- Mark a waitpoint closed, also one that has no hash yet. -/
@[simps] def closeWaitpoint : WaitKeys :=
  { w with waitpoint := fun j =>
      if j = id then some { (w.waitpoint j).getD { state := .closed } with state := .closed }
      else w.waitpoint j }

/-- Mark a condition closed, also one that has no hash yet. -/
@[simps] def closeCondition : WaitKeys :=
  { w with condition := fun j =>
      if j = id then some { (w.condition j).getD {} with closed := true } else w.condition j }

/-- Close the waitpoints and conditions that exist among the listed ones. -/
@[simps] def closeExisting (ids : List String) : WaitKeys :=
  { w with
    waitpoint := fun j =>
      if j ∈ ids then (w.waitpoint j).map fun p => { p with state := .closed } else w.waitpoint j
    condition := fun j =>
      if j ∈ ids then (w.condition j).map fun p => { p with closed := true } else w.condition j }

@[simps] def setSatisfied (tokens signalIds : Finset String) : WaitKeys :=
  { w with satisfiedSet := tokens, satisfierSignals := signalIds }

@[simps] def seedMemberMap (spec : ResumeSpec) (waitpointKeys : List String) : WaitKeys :=
  { w with memberMap :=
      match spec with
      | .composite _ (some tree) => seedCompositeMemberMap tree waitpointKeys w.memberMap
      | _ => w.memberMap }

/-- Forget the satisfiers and the members of a composite condition. -/
@[simps] def compositeCleanup : WaitKeys :=
  { w with satisfiedSet := ∅, satisfierSignals := ∅, memberMap := [] }

/-- The ids of the waitpoints a suspension owns besides its first one. An empty id
names no key. -/
def additionalIds : List String :=
  match w.suspension with
  | some p => (p.additionalWaitpoints.map (·.1)).filter fun id => decide (id ≠ "")
  | none => []

end WaitKeys

structure DependencyKeys where
  dependency : String → Option Dependency := fun _ => none
  unresolved : Finset String := ∅
  (unsatisfiedRequiredCount impossibleRequiredCount : Int := 0)
  edgeGroup : Option EdgeGroup := none

/-- Everything stored about one execution. -/
structure Store where
  core : Option ExecCore := none
  policy : JsonText := .empty
  grant : Option Grant := none
  lease : Option LeaseRecord := none
  zset : Index → Option Int := fun _ => none
  workerLeases : String → Bool := fun _ => false
  attempt : Nat → Option Attempt := fun _ => none
  stream : Nat → Option StreamMeta := fun _ => none
  wait : WaitKeys := {}
  deps : DependencyKeys := {}
  secrets : HmacSecrets := {}
  published : List Completion := []

namespace Store
variable (s : Store)

@[simps] def setCore (c : ExecCore) : Store := { s with core := some c }

@[simps] def setPolicy (text : JsonText) : Store := { s with policy := text }

@[simps] def delGrant : Store := { s with grant := none }

@[simps] def setLease (l : LeaseRecord) : Store := { s with lease := some l }

@[simps] def delLease : Store := { s with lease := none }

@[simps] def zadd (i : Index) (score : Int) : Store :=
  { s with zset := fun j => if j = i then some score else s.zset j }

/-- Add to an index only when the caller gave a score. -/
@[simps] def zaddSome (i : Index) (score : Option Int) : Store :=
  { s with zset := fun j => if j = i then score.or (s.zset j) else s.zset j }

@[simps] def zrem (i : Index) : Store :=
  { s with zset := fun j => if j = i then none else s.zset j }

@[simps] def zremAll (is : List Index) : Store :=
  { s with zset := fun j => if j ∈ is then none else s.zset j }

variable (instanceId : String)

@[simps] def saddWorker : Store :=
  { s with workerLeases := fun w => decide (w = instanceId) || s.workerLeases w }

@[simps] def sremWorker : Store :=
  { s with workerLeases := fun w => !decide (w = instanceId) && s.workerLeases w }

@[simps] def sremNamedWorker : Store :=
  { s with workerLeases := fun w => !decide (instanceId ≠ "" ∧ w = instanceId) && s.workerLeases w }

@[simps] def updateAttempt (i : Option Nat) (f : Attempt → Attempt) : Store :=
  { s with attempt := fun j => if i = some j then some (f ((s.attempt j).getD {})) else s.attempt j }

@[simps] def setStream (i : Nat) (m : StreamMeta) : Store :=
  { s with stream := fun j => if j = i then some m else s.stream j }

@[simps] def closeStream (i : Option Nat) (closedAt : Int) (reason : String) : Store :=
  { s with stream := fun j =>
      if i = some j then
        (s.stream j).map fun m => { m with closedAt := some closedAt, closedReason := reason }
      else s.stream j }

@[simps] def setWait (w : WaitKeys) : Store := { s with wait := w }

@[simps] def setDeps (d : DependencyKeys) : Store := { s with deps := d }

@[simps] def setSecrets (h : HmacSecrets) : Store := { s with secrets := h }

def grantAt (now : Int) : Option Grant := s.grant.filter fun g => decide (now ≤ g.grantExpiresAt)

variable {s}

theorem of_core {P : Prop} {Q : ExecCore → Prop} {c : ExecCore} (hc : s.core = some c) (h : Q c) :
    (s.core = none → P) ∧ ∀ c, s.core = some c → Q c := by
  simp [hc,h]

end Store

end FlowFabric
