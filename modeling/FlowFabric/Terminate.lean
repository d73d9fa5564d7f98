import FlowFabric.Worker

/-! The scripts that finish an execution from outside: ff_cancel_execution and
ff_expire_execution. -/
namespace FlowFabric
open Foundation

/-- End the attempt of the key, provided the execution has a current attempt. -/
def Store.endAttempt (s : Store) (c : ExecCore) (attemptKey : Nat) (state : AttemptLifecycle)
    (now : Int) (reason : String) : Store :=
  s.updateAttempt (c.currentAttemptIndex.map fun _ => attemptKey) fun old =>
    { old with attemptState := state, endedAt := some now, failureReason := reason }

structure CancelArgs where
  executionId : String
  (reason source leaseId leaseEpoch : String := "")
  keys : Keys := {}

/-- Without an attempt the attempt state is left as it is. -/
def ExecCore.cancelled (c : ExecCore) (reason : String) (now : Int) : ExecCore :=
  { c.clearLease with
    lifecyclePhase := .terminal, ownershipState := .unowned, eligibilityState := .notApplicable, blockingReason := .none
    terminalOutcome := .cancelled
    attemptState := if c.currentAttemptIndex.isSome then .attemptTerminal else c.attemptState, publicState := .cancelled
    cancellationReason := reason, completedAt := some now, currentSuspensionId := "", currentWaitpointId := "" }

/-- Every index but the terminal one. -/
def scheduledIndexes : List Index :=
  [.eligible,.delayed,.active,.suspended,.blockedDependencies,.blockedBudget,.blockedQuota,
    .blockedRoute,.blockedOperator,.leaseExpiry,.suspensionTimeout,.attemptTimeout,.executionDeadline]

def WaitKeys.cancelSuspension (w : WaitKeys) (waitpointKey : String) (now : Int) : WaitKeys :=
  ((w.closeSuspension now "cancelled").closeExisting [waitpointKey]).compositeCleanup.closeExisting
    w.additionalIds

/-- The part of a cancellation that depends on the phase. A runnable execution keeps
its attempt record as it is. -/
def cancelPhase (a : CancelArgs) (c : ExecCore) (now : Int) (s : Store) : Store :=
  let ended := (s.endAttempt c a.keys.attemptIndex .endedCancelled now ("cancelled: " ++ a.reason)
    ).closeStream (some a.keys.attemptIndex) now "attempt_cancelled"
  match c.lifecyclePhase with
  | .active => ended.delLease
  | .suspended => ended.setWait (ended.wait.cancelSuspension a.keys.waitpointId now)
  | _ => s

def cancelCommit (a : CancelArgs) (c : ExecCore) (now : Int) (s : Store) : Store :=
  let s := (cancelPhase a c now s).setCore (c.cancelled a.reason now)
  let s := (s.zremAll scheduledIndexes).sremWorker a.keys.workerInstanceId
  (s.zadd .terminal now).announce a.executionId c .cancelled (decide (a.source ≠ "flow_cascade"))

def cancelExecution (a : CancelArgs) (now : Int) (s : Store) : Outcome := do
  let c ← demand s.core (.fail .executionNotFound)
  ensure (c.lifecyclePhase ≠ .terminal) c.notActive
  -- an active execution is cancelled by its lease holder or by an operator
  let unchecked := c.lifecyclePhase ≠ .active ∨ a.source = "operator_override"
  ensure (unchecked ∨ c.ownershipState ≠ .leaseRevoked) (.fail .leaseRevoked)
  ensure (unchecked ∨ a.leaseId = "" ∨
    (c.currentLeaseId = a.leaseId ∧ toString c.currentLeaseEpoch = a.leaseEpoch)) (.fail .staleLease)
  return (.ok ["cancelled",c.lifecyclePhase.text],cancelCommit a c now s)

structure ExpireArgs where
  executionId : String
  expireReason : String := "attempt_timeout"
  keys : Keys := {}

/-- The renewal deadline is not cleared. -/
def ExecCore.expired (c : ExecCore) (reason : String) (now : Int) : ExecCore :=
  { c with
    lifecyclePhase := .terminal, ownershipState := .unowned, eligibilityState := .notApplicable, blockingReason := .none
    terminalOutcome := .expired
    attemptState := if c.currentAttemptIndex.isSome then .attemptTerminal else c.attemptState, publicState := .expired
    failureReason := reason, completedAt := some now, currentLeaseId := "", currentWorkerId := ""
    currentWorkerInstanceId := "", leaseExpiresAt := none, currentSuspensionId := "", currentWaitpointId := "" }

/-- The indexes a runnable execution is taken off when it expires. -/
def EligibilityState.expiryIndexes : EligibilityState → List Index
  | .eligibleNow => [.eligible]
  | .notEligibleUntilTime => [.delayed]
  | .blockedByDependencies => [.blockedDependencies]
  | .blockedByBudget => [.blockedBudget]
  | .blockedByQuota => [.blockedQuota]
  | .blockedByRoute => [.blockedRoute]
  | .blockedByOperator => [.blockedOperator]
  | .blockedByLaneState | .notApplicable =>
    [.eligible,.delayed,.blockedDependencies,.blockedBudget,.blockedQuota,.blockedRoute,.blockedOperator]

/-- The part of an expiry that depends on the phase. The waitpoints and conditions of
a suspension stay open. -/
def expirePhase (a : ExpireArgs) (c : ExecCore) (now : Int) (s : Store) : Store :=
  let ended := (s.endAttempt c a.keys.attemptIndex .endedFailure now a.expireReason).closeStream
    (some a.keys.attemptIndex) now "expired"
  match c.lifecyclePhase with
  | .active =>
    (((ended.delLease.zrem .leaseExpiry).sremWorker a.keys.workerInstanceId).sremNamedWorker
      c.currentWorkerInstanceId).zrem .active
  | .suspended =>
    ((ended.setWait (ended.wait.closeSuspension now ("expired:" ++ a.expireReason))).zrem
      .suspended).zrem .suspensionTimeout
  | .runnable => s.zremAll c.eligibilityState.expiryIndexes
  | _ => s

def expireCommit (a : ExpireArgs) (c : ExecCore) (now : Int) (s : Store) : Store :=
  let s := (expirePhase a c now s).setCore (c.expired a.expireReason now)
  (((s.zrem .attemptTimeout).zrem .executionDeadline).zadd .terminal now).announce a.executionId c .expired

/-- The timeout scanners' call. On a finished or missing execution it only cleans the
two timeout indexes. -/
def expireExecution (a : ExpireArgs) (now : Int) (s : Store) : Outcome :=
  match s.core with
  | none => .ok (.ok ["not_found_cleaned"],(s.zrem .attemptTimeout).zrem .executionDeadline)
  | some c =>
    if c.lifecyclePhase = .terminal then
      .ok (.ok ["already_terminal"],(s.zrem .attemptTimeout).zrem .executionDeadline)
    else .ok (.ok ["expired",c.lifecyclePhase.text],expireCommit a c now s)

section
variable (c : ExecCore) (now : Int) (s : Store) (a : CancelArgs)

theorem cancelCommit_wait : (cancelCommit a c now s).wait =
    if c.lifecyclePhase = .suspended then s.wait.cancelSuspension a.keys.waitpointId now else s.wait := by
  unfold cancelCommit cancelPhase
  cases c.lifecyclePhase <;> rfl

theorem expireCommit_wait (a : ExpireArgs) : (expireCommit a c now s).wait =
    if c.lifecyclePhase = .suspended then s.wait.closeSuspension now ("expired:" ++ a.expireReason)
    else s.wait := by
  unfold expireCommit expirePhase
  cases c.lifecyclePhase <;> rfl

@[simp] theorem cancelPhase_frame : (cancelPhase a c now s).deps = s.deps ∧
    (cancelPhase a c now s).secrets = s.secrets ∧ (cancelPhase a c now s).published = s.published := by
  unfold cancelPhase
  cases c.lifecyclePhase <;> refine ⟨?_,?_,?_⟩ <;> rfl

@[simp] theorem expirePhase_frame (a : ExpireArgs) : (expirePhase a c now s).deps = s.deps ∧
    (expirePhase a c now s).secrets = s.secrets ∧ (expirePhase a c now s).published = s.published := by
  unfold expirePhase
  cases c.lifecyclePhase <;> refine ⟨?_,?_,?_⟩ <;> rfl

theorem cancelPhase_attempt : (cancelPhase a c now s).attempt =
    if c.lifecyclePhase = .active ∨ c.lifecyclePhase = .suspended then
      (s.endAttempt c a.keys.attemptIndex .endedCancelled now ("cancelled: " ++ a.reason)).attempt
    else s.attempt := by
  unfold cancelPhase
  cases c.lifecyclePhase <;> rfl

theorem expirePhase_attempt (a : ExpireArgs) : (expirePhase a c now s).attempt =
    if c.lifecyclePhase = .active ∨ c.lifecyclePhase = .suspended then
      (s.endAttempt c a.keys.attemptIndex .endedFailure now a.expireReason).attempt
    else s.attempt := by
  unfold expirePhase
  cases c.lifecyclePhase <;> rfl

end

variable {reply : Reply} {now : Int} {s t : Store}

theorem cancelExecution_ok {a : CancelArgs} (h : cancelExecution a now s = .ok (reply,t)) :
    ∃ c, s.core = some c ∧ c.lifecyclePhase ≠ .terminal ∧ t = cancelCommit a c now s := by
  simp only [cancelExecution,bind_ok,demand_ok,ensure_ok] at h
  obtain ⟨c,hc,_,hp,_,-,_,-,h⟩ := h
  cases h; exact ⟨c,hc,hp,rfl⟩

theorem expireExecution_ok {a : ExpireArgs}
    (h : expireExecution a now s = .ok (reply,t)) : ((∀ c, s.core = some c → c.lifecyclePhase = .terminal) ∧
        t = (s.zrem .attemptTimeout).zrem .executionDeadline) ∨
      ∃ c, s.core = some c ∧ c.lifecyclePhase ≠ .terminal ∧ t = expireCommit a c now s := by
  unfold expireExecution at h
  split at h
  · rename_i hc
    cases h; exact .inl ⟨by simp [hc],rfl⟩
  · rename_i c hc
    split at h
    · rename_i hp
      cases h; exact .inl ⟨by simp_all,rfl⟩
    · rename_i hp
      cases h; exact .inr ⟨c,hc,hp,rfl⟩

end FlowFabric
