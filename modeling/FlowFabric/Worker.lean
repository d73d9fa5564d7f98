import Mathlib.Algebra.Group.Int.Defs
import FlowFabric.Lease

/-! The scripts a lease holder gives up its lease with: ff_complete_execution,
ff_fail_execution, ff_delay_execution and ff_move_to_waiting_children. -/
namespace FlowFabric
open Foundation

/-- Delete the lease and take the execution off the indexes of running work. -/
@[simps] def Store.releaseLease (s : Store) (workerKey : String) : Store :=
  { s with
    lease := none, workerLeases := fun w => !decide (w = workerKey) && s.workerLeases w
    zset := fun j => if j = .leaseExpiry ∨ j = .active ∨ j = .attemptTimeout then none else s.zset j }

variable (c : ExecCore)

/-- The hash without the fields of a lease. -/
def ExecCore.clearLease : ExecCore :=
  { c with
    currentLeaseId := "", currentWorkerId := "", currentWorkerInstanceId := "", leaseExpiresAt := none
    leaseRenewalDeadline := none }

/-- Completions of flow members are announced under the id that the script was called with. -/
@[simps] def Store.announce (s : Store) (executionId : String) (c : ExecCore) (outcome : TerminalOutcome)
    (wanted : Bool := true) : Store :=
  { s with published :=
      if c.flowId ≠ "" ∧ wanted then s.published ++ [⟨executionId,c.flowId,outcome⟩] else s.published }

structure CompleteArgs where
  executionId : String
  fence : Fence := {}
  source : String := ""
  keys : Keys := {}

def ExecCore.completed (now : Int) : ExecCore :=
  { c.clearLease with
    lifecyclePhase := .terminal, ownershipState := .unowned, eligibilityState := .notApplicable, blockingReason := .none
    terminalOutcome := .success, attemptState := .attemptTerminal, publicState := .completed, completedAt := some now
    leaseRevokedAt := none }

def completeCommit (a : CompleteArgs) (c : ExecCore) (now : Int) (s : Store) : Store :=
  let s := s.updateAttempt (some a.keys.attemptIndex) fun old =>
    { old with attemptState := .endedSuccess, endedAt := some now }
  let s := s.closeStream (some a.keys.attemptIndex) now "attempt_success"
  let s := (s.setCore (c.completed now)).releaseLease a.keys.workerInstanceId
  ((s.zadd .terminal now).zrem .executionDeadline).announce a.executionId c .success

def completeExecution (a : CompleteArgs) (now : Int) (s : Store) : Outcome := do
  let c ← demand s.core (.fail .executionNotFound)
  let fence ← fenceOrOverride c a.fence a.source
  validateLeaseAndMarkExpired c fence now s <| .ok (.ok ["completed"],completeCommit a c now s)

structure DelayArgs where
  executionId : String
  fence : Fence := {}
  delayUntil : Int
  source : String := ""
  keys : Keys := {}

/-- The attempt is paused, not ended. -/
def Store.pauseAttempt (s : Store) (attemptKey : Nat) (suspensionId : String) : Store :=
  s.updateAttempt (some attemptKey) fun old => { old with attemptState := .suspended, suspensionId }

def ExecCore.delayed (delayUntil : Int) : ExecCore :=
  { c.clearLease with
    lifecyclePhase := .runnable, ownershipState := .unowned, eligibilityState := .notEligibleUntilTime
    blockingReason := .waitingForDelay, terminalOutcome := .none, attemptState := .attemptInterrupted
    publicState := .delayed, delayUntil := some delayUntil }

def delayCommit (a : DelayArgs) (c : ExecCore) (s : Store) : Store :=
  (((s.setCore (c.delayed a.delayUntil)).pauseAttempt a.keys.attemptIndex "worker_delay").releaseLease
    a.keys.workerInstanceId).zadd .delayed a.delayUntil

def delayExecution (a : DelayArgs) (now : Int) (s : Store) : Outcome := do
  let c ← demand s.core (.fail .executionNotFound)
  let fence ← fenceOrOverride c a.fence a.source
  validateLeaseAndMarkExpired c fence now s <| .ok (.ok [toString a.delayUntil],delayCommit a c s)

structure MoveArgs where
  executionId : String
  fence : Fence := {}
  source : String := ""
  keys : Keys := {}

def ExecCore.waitingChildren : ExecCore :=
  { c.clearLease with
    lifecyclePhase := .runnable, ownershipState := .unowned, eligibilityState := .blockedByDependencies
    blockingReason := .waitingForChildren, terminalOutcome := .none, attemptState := .attemptInterrupted
    publicState := .waitingChildren }

def moveCommit (a : MoveArgs) (c : ExecCore) (s : Store) : Store :=
  (((s.setCore c.waitingChildren).pauseAttempt a.keys.attemptIndex "waiting_children").releaseLease
    a.keys.workerInstanceId).zadd .blockedDependencies c.createdAt

def moveToWaitingChildren (a : MoveArgs) (now : Int) (s : Store) : Outcome := do
  let c ← demand s.core (.fail .executionNotFound)
  let fence ← fenceOrOverride c a.fence a.source
  validateLeaseAndMarkExpired c fence now s <| .ok (.ok [],moveCommit a c s)

structure FailArgs where
  executionId : String
  fence : Fence := {}
  failureReason : String
  retryPolicyJson : JsonText := .empty
  source : String := ""
  keys : Keys := {}

def backoffField (backoff : Json) (key : String) (default : ℚ) : Double :=
  ((backoff.field key).bind Json.toNumber).getD (.finite default)

def tableBackoffMs (table : Json) (retryCount : Nat) : Double :=
  match table.field "type" with
  | some (.str "exponential") =>
    ((backoffField table "initial_delay_ms" 1000).mul
      ((backoffField table "multiplier" 2).pow retryCount)).min (backoffField table "max_delay_ms" 60000)
  | some (.str "fixed") => backoffField table "delay_ms" 1000
  | _ => .finite 1000

/-- The delay before the next attempt. Looking into a backoff that is neither a table
nor a text raises. -/
def backoffMs (backoff : Option Json) (retryCount : Nat) : Option Double :=
  match backoff with
  | none | some (.bool false) | some (.str _) => some (.finite 1000)
  | some .null | some (.bool true) | some (.num _) | some (.float _) => none
  | some table => some (tableBackoffMs table retryCount)

/-- Whether to retry and after how long; nothing when evaluating the policy raises. -/
def retryDecision (policy : JsonText) (retryCount : Nat) : Option (Option Double) :=
  match policy with
  | .doc document =>
    if document.isTable then do
      let maxRetries ← match document.field "max_retries" with
        | none | some (.bool false) => some (.finite 0)
        | some limit => limit.toNumber
      if (Double.ofInt retryCount).lt maxRetries then (backoffMs (document.field "backoff") retryCount).map some
      else some none
    else some none
  | _ => some none

variable (a : FailArgs)

/-- When the next attempt is due, if there is one. -/
def FailArgs.delayUntil (c : ExecCore) (now : Int) : Option Double :=
  (retryDecision a.retryPolicyJson c.retryCount).join.map (Double.ofInt now).add

def ExecCore.retryScheduled (reason : String) (delayUntil : Int) : ExecCore :=
  { c.clearLease with
    lifecyclePhase := .runnable, ownershipState := .unowned, eligibilityState := .notEligibleUntilTime
    blockingReason := .waitingForRetryBackoff, terminalOutcome := .none, attemptState := .pendingRetryAttempt
    publicState := .delayed, retryCount := c.retryCount + 1, currentAttemptId := "", delayUntil := some delayUntil
    failureReason := reason }

def ExecCore.failedTerminal (reason : String) (now : Int) : ExecCore :=
  { c.clearLease with
    lifecyclePhase := .terminal, ownershipState := .unowned, eligibilityState := .notApplicable, blockingReason := .none
    terminalOutcome := .failed, attemptState := .attemptTerminal, publicState := .failed, completedAt := some now
    failureReason := reason }

/-- The attempt is ended before the retry policy is looked at. -/
def failEnd (now : Int) (s : Store) : Store :=
  (s.updateAttempt (some a.keys.attemptIndex) fun old =>
    { old with attemptState := .endedFailure, endedAt := some now, failureReason := a.failureReason }
    ).closeStream (some a.keys.attemptIndex) now "attempt_failure"

/-- The time goes into the hash with fourteen digits and into the index as it is, which refuses one that is
not a number. Of both the model keeps the first millisecond that is not before them. -/
def failRetry (c : ExecCore) (delayUntil : Double) (s : Store) : Store :=
  ((s.setCore (c.retryScheduled a.failureReason delayUntil.printed.ceil)).releaseLease
    a.keys.workerInstanceId).zaddSome .delayed (if delayUntil = .nan then none else some delayUntil.ceil)

def failTerminal (c : ExecCore) (now : Int) (s : Store) : Store :=
  ((((s.setCore (c.failedTerminal a.failureReason now)).releaseLease a.keys.workerInstanceId).zrem
    .executionDeadline).zadd .terminal now).announce a.executionId c .failed

def failExecution (now : Int) (s : Store) : Outcome := do
  let c ← demand s.core (.fail .executionNotFound)
  let fence ← fenceOrOverride c a.fence a.source
  validateLeaseAndMarkExpired c fence now s <| .ok <|
    match retryDecision a.retryPolicyJson c.retryCount with
    | none => (.raised,failEnd a now s)
    | some (some backoff) =>
      let delayUntil := (Double.ofInt now).add backoff
      (if delayUntil = .nan then .raised else .ok ["retry_scheduled",delayUntil.text],
        failRetry a c delayUntil (failEnd a now s))
    | some none => (.ok ["terminal_failed"],failTerminal a c now (failEnd a now s))

variable {reply : Reply} {s t : Store} {now : Int}

/-- How a holder's script answers: it marks a lapsed lease, or goes on under the one that is held. -/
def HolderAnswer (f : Fence) (source : String) (now : Int) (s : Store) (reply : Reply) (t : Store)
    (done : ExecCore → Prop) : Prop :=
  ∃ c fence, s.core = some c ∧ fenceOrOverride c f source = .ok fence ∧
    ((LeaseLapsed c now ∧ reply = .fail .leaseExpired ∧ t = markExpired c now s) ∨ (HoldsLease c fence now ∧ done c))

theorem holderAnswer {f : Fence} {source : String} {rest : ExecCore → Outcome} {done : ExecCore → Prop} (h : (do
      let c ← demand s.core (.fail .executionNotFound)
      let fence ← fenceOrOverride c f source
      validateLeaseAndMarkExpired c fence now s (rest c) : Outcome) = .ok (reply,t))
    (hd : ∀ c, rest c = .ok (reply,t) → done c) : HolderAnswer f source now s reply t done := by
  simp only [bind_ok,demand_ok] at h
  obtain ⟨c,hc,fence,hf,h⟩ := h
  refine ⟨c,fence,hc,hf,?_⟩
  rcases validateLease_ok h with hlapsed | ⟨hl,h⟩
  · exact .inl hlapsed
  · exact .inr ⟨hl,hd c h⟩

theorem completeExecution_ok {a : CompleteArgs} (h : completeExecution a now s = .ok (reply,t)) :
    HolderAnswer a.fence a.source now s reply t (t = completeCommit a · now s) :=
  holderAnswer h fun _ h => by cases h; rfl

theorem delayExecution_ok {a : DelayArgs} (h : delayExecution a now s = .ok (reply,t)) :
    HolderAnswer a.fence a.source now s reply t (t = delayCommit a · s) :=
  holderAnswer h fun _ h => by cases h; rfl

theorem moveToWaitingChildren_ok {a : MoveArgs} (h : moveToWaitingChildren a now s = .ok (reply,t)) :
    HolderAnswer a.fence a.source now s reply t (t = moveCommit a · s) :=
  holderAnswer h fun _ h => by cases h; rfl

theorem failExecution_ok {a : FailArgs} (h : failExecution a now s = .ok (reply,t)) :
    HolderAnswer a.fence a.source now s reply t fun c =>
      (retryDecision a.retryPolicyJson c.retryCount = none ∧ reply = .raised ∧ t = failEnd a now s) ∨
      (∃ delayUntil, a.delayUntil c now = some delayUntil ∧
        reply = (if delayUntil = .nan then .raised else .ok ["retry_scheduled",delayUntil.text]) ∧
        t = failRetry a c delayUntil (failEnd a now s)) ∨
      (retryDecision a.retryPolicyJson c.retryCount = some none ∧ reply = .ok ["terminal_failed"] ∧
        t = failTerminal a c now (failEnd a now s)) := by
  refine holderAnswer h fun c h => ?_
  injection h with h
  split at h
  · rename_i hd
    cases h; exact .inl ⟨hd,rfl,rfl⟩
  · rename_i backoff hd
    cases h; exact .inr (.inl ⟨_,by rw [FailArgs.delayUntil,hd]; rfl,rfl,rfl⟩)
  · rename_i hd
    cases h; exact .inr (.inr ⟨hd,rfl,rfl⟩)

end FlowFabric
