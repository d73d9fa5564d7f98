import FlowFabric.Token
import FlowFabric.Worker

/-! Suspensions and their waitpoints: ff_suspend_execution, ff_resume_execution,
ff_create_pending_waitpoint, ff_expire_suspension and ff_close_waitpoint. -/
namespace FlowFabric
open Foundation

/-- Unknown reason codes wait for a signal. -/
def mapReasonToBlocking (reasonCode : String) : BlockingReason :=
  match reasonCode with
  | "waiting_for_approval" => .waitingForApproval
  | "waiting_for_callback" => .waitingForCallback
  | "waiting_for_tool_result" => .waitingForToolResult
  | "waiting_for_operator_review" | "manual_pause" => .pausedByOperator
  | "paused_by_policy" => .pausedByPolicy
  | "paused_by_budget" => .waitingForBudget
  | _ => .waitingForSignal

/-- The arguments as the typed wrapper passes them. -/
structure SuspendArgs where
  (executionId attemptIndex : String)
  fence : Fence
  (suspensionId waitpointId waitpointKey : String)
  reasonCode : String := "waiting_for_signal"
  timeoutAt : Option Int := none
  resumeCondition : ResumeSpec
  usePendingWaitpoint : Bool := false
  timeoutBehavior : TimeoutBehavior := .fail
  idempotencyKey : String := ""
  dedupTtlMs : Int := 0
  extras : List (String × String) := []
  keys : Keys := {}

/-- A stage of the suspension that fails keeps the waitpoint keys written so far. -/
abbrev WaitError := Reply × WaitKeys

variable (a : SuspendArgs)

@[simps] def SuspendArgs.opened (now : Int) (key token : String) : Waitpoint :=
  { executionId := a.executionId, attemptIndex := a.attemptIndex, suspensionId := a.suspensionId
    waitpointKey := key, waitpointToken := token, state := .active, createdAt := some now, expiresAt := a.timeoutAt }

/-- Create a waitpoint with its token and its condition. A condition that does not
decode raises when the waitpoint is already there. -/
def openWaitpoint (h : HmacSecrets) (now : Int) (id key : String) (w : WaitKeys) :
    Except WaitError (String × WaitKeys) :=
  match mintWaitpointToken h id key now with
  | .error reply => .error (reply,w)
  | .ok token =>
    let w := w.setWaitpoint id (a.opened now key token)
    match initializeCondition a.resumeCondition with
    | none => .error (.raised,w)
    | some cond => .ok (token,w.setCondition id (writeConditionHash (w.condition id) cond))

/-- The additional waitpoints in their order, each with its id, key and token. -/
def openExtras (a : SuspendArgs) (h : HmacSecrets) (now : Int) :
    List (String × String) → WaitKeys → Except WaitError (List (String × String × String) × WaitKeys)
  | [], w => .ok ([],w)
  | (id,key) :: rest, w => do
    let (token,w) ← openWaitpoint a h now id key w
    let (extras,w) ← openExtras a h now rest w
    return ((id,key,token) :: extras,w)

/-- The waitpoints a suspension ends up with, and whether signals that came early
have satisfied its condition already. -/
structure Binding where
  (waitpointKey waitpointToken : String)
  extras : List (String × String × String) := []
  satisfied : Bool := false

def replayBuffered (cond : Condition) (buffered : List Signal) : Condition :=
  buffered.foldl (fun cond sig => evaluateSignalAgainstCondition cond sig.signalName sig.signalId) cond

structure PendingFor (a : SuspendArgs) (now : Int) (p : Waitpoint) : Prop where
  state : p.state = .pending
  execution : p.executionId = a.executionId
  attempt : p.attemptIndex = a.attemptIndex
  lasting : p.expiresAt.all fun t => decide (now < t)
  token : p.waitpointToken ≠ ""

/-- Activate a pending waitpoint and replay its buffered signals. A condition that
they satisfy is written open although its waitpoint is closed. -/
def activatePending (now : Int) (w : WaitKeys) : Except WaitError (Binding × WaitKeys) := do
  let p ← demand (w.waitpoint a.waitpointId) (.fail .waitpointNotFound,w)
  ensure (p.state = .pending) (.fail .waitpointNotPending,w)
  ensure (p.executionId = a.executionId) (.fail .invalidWaitpointForExecution,w)
  ensure (p.attemptIndex = a.attemptIndex) (.fail .invalidWaitpointForExecution,w)
  ensure (p.expiresAt.all fun t => decide (now < t)) (.fail .pendingWaitpointExpired,w)
  ensure (p.waitpointToken ≠ "") (.fail .waitpointNotTokenBound,w)
  let activated := { p with suspensionId := a.suspensionId, state := .active, expiresAt := a.timeoutAt }
  let w := w.setWaitpoint a.waitpointId activated
  let cond ← demand (initializeCondition a.resumeCondition) (.raised,w)
  let buffered := w.signals a.waitpointId
  let cond := replayBuffered cond buffered
  -- the condition is only evaluated when there is something to replay
  let satisfied ← if buffered.isEmpty then pure false
    else demand (isConditionSatisfied cond) (.raised,w)
  let w := if satisfied then w.setWaitpoint a.waitpointId { activated with state := .closed } else w
  return (⟨p.waitpointKey,p.waitpointToken,[],satisfied⟩,
    w.setCondition a.waitpointId (writeConditionHash (w.condition a.waitpointId) cond))

def bindWaitpoints (h : HmacSecrets) (now : Int) (w : WaitKeys) : Except WaitError (Binding × WaitKeys) :=
  if a.usePendingWaitpoint then do
    let (b,w) ← activatePending a now w
    ensure (b.satisfied = true ∨ a.extras = []) (.fail .usePendingWithExtrasUnsupported,w)
    return (b,w)
  else do
    let (token,w) ← openWaitpoint a h now a.waitpointId a.waitpointKey w
    let (extras,w) ← openExtras a h now a.extras w
    return (⟨a.waitpointKey,token,extras,false⟩,w)

def Binding.fields (b : Binding) (a : SuspendArgs) : List String :=
  [a.suspensionId,a.waitpointId,b.waitpointKey,b.waitpointToken,toString b.extras.length] ++
    b.extras.flatMap fun e => [e.1,e.2.1,e.2.2]

/-- The stored outcome of an earlier request with the key, while it lasts. -/
def WaitKeys.outcomeAt (w : WaitKeys) (key : String) (now : Int) : Option (String × Option Int) :=
  (w.suspendDedup key).filter fun o => o.2.all fun t => decide (now ≤ t)

/-- Store the outcome under the idempotency key, if there is one. -/
def WaitKeys.recordOutcome (w : WaitKeys) (a : SuspendArgs) (now : Int) (parts : List String) : WaitKeys :=
  if a.idempotencyKey = "" then w
  else
    let expiry := if 0 < a.dedupTtlMs then some (now + a.dedupTtlMs)
      else (w.outcomeAt a.idempotencyKey now).bind (·.2)
    { w with suspendDedup := fun key =>
        if key = a.idempotencyKey then some ("\t".intercalate parts,expiry) else w.suspendDedup key }

section
variable (w : WaitKeys) (a : SuspendArgs) (now : Int) (parts : List String)

open WaitKeys

@[simp] theorem recordOutcome_keys : (w.recordOutcome a now parts).suspension = w.suspension ∧
    (w.recordOutcome a now parts).waitpoint = w.waitpoint ∧ (w.recordOutcome a now parts).condition = w.condition ∧
    (w.recordOutcome a now parts).satisfiedSet = w.satisfiedSet ∧ (w.recordOutcome a now parts).satisfierSignals = w.satisfierSignals ∧
    (w.recordOutcome a now parts).memberMap = w.memberMap ∧ (w.recordOutcome a now parts).signals = w.signals ∧
    (w.recordOutcome a now parts).execSignals = w.execSignals ∧ (w.recordOutcome a now parts).signalIdem = w.signalIdem := by
  unfold recordOutcome
  split <;> exact ⟨rfl,rfl,rfl,rfl,rfl,rfl,rfl,rfl,rfl⟩

end

/-- The reply a stored outcome stands for. Fewer than five parts are taken for none. -/
def replayOutcome (outcome : String) : Option Reply :=
  match (outcome.toList.splitOn '\t').map String.ofList with
  | status :: suspensionId :: waitpointId :: waitpointKey :: waitpointToken :: rest =>
    let n := ((rest.head?.bind Json.numeral).getD 0).toNat
    let extras := (List.range (3 * n)).map fun i => rest.getD (i + 1) ""
    let fields := [suspensionId,waitpointId,waitpointKey,waitpointToken,toString n] ++ extras
    some (if status = "ALREADY_SATISFIED" then .alreadySatisfied fields else .ok fields)
  | _ => none

variable (a : SuspendArgs)

/-- An earlier outcome is replayed before anything else is looked at. -/
def suspendReplay (now : Int) (w : WaitKeys) : Option Reply :=
  if a.idempotencyKey = "" then none
  else (w.outcomeAt a.idempotencyKey now).bind fun o => replayOutcome o.1

def ExecCore.suspendedOn (c : ExecCore) (a : SuspendArgs) : ExecCore :=
  { c.clearLease with
    lifecyclePhase := .suspended, ownershipState := .unowned, eligibilityState := .notApplicable
    blockingReason := mapReasonToBlocking a.reasonCode, terminalOutcome := .none, attemptState := .attemptInterrupted
    publicState := .suspended, currentSuspensionId := a.suspensionId, currentWaitpointId := a.waitpointId }

def Binding.suspension (b : Binding) (a : SuspendArgs) : Suspension :=
  { suspensionId := a.suspensionId
    waitpointId := a.waitpointId, waitpointKey := b.waitpointKey
    additionalWaitpoints := b.extras.map fun e => (e.1,e.2.1), reasonCode := a.reasonCode, timeoutAt := a.timeoutAt
    timeoutBehavior := a.timeoutBehavior }

/-- The point of no return comes first. -/
def suspendRelease (c : ExecCore) (s : Store) : Store :=
  ((s.setCore (c.suspendedOn a)).pauseAttempt a.keys.attemptIndex a.suspensionId).releaseLease a.keys.workerInstanceId

def Binding.record (b : Binding) (a : SuspendArgs) (w : WaitKeys) : WaitKeys :=
  (w.setSuspension (b.suspension a)).seedMemberMap a.resumeCondition (b.waitpointKey :: b.extras.map (·.2.1))

def suspendCommit (c : ExecCore) (b : Binding) (w : WaitKeys) (now : Int) (s : Store) : Store :=
  let s := (suspendRelease a c s).setWait ((b.record a w).recordOutcome a now ("OK" :: b.fields a))
  (s.zadd .suspended (a.timeoutAt.getD 9999999999999)).zaddSome .suspensionTimeout a.timeoutAt

section
variable (a : SuspendArgs) (c : ExecCore) (b : Binding) (w : WaitKeys) (now : Int) (s : Store)

@[simp] theorem suspendCommit_keys : (suspendCommit a c b w now s).wait.suspension = some (b.suspension a) ∧
    (suspendCommit a c b w now s).wait.waitpoint = w.waitpoint ∧
    (suspendCommit a c b w now s).wait.condition = w.condition ∧
    (suspendCommit a c b w now s).wait.satisfiedSet = w.satisfiedSet := by
  have keys (w' : WaitKeys) := recordOutcome_keys w' a now ("OK" :: b.fields a)
  exact ⟨(keys _).1,(keys _).2.1,(keys _).2.2.1,(keys _).2.2.2.1⟩

end

/-- The arguments that are texts where a number is needed. A text is stored like a number. -/
structure SuspendTexts where
  (leaseHistoryMaxlen timeoutAt dedupTtlMs : Bool := false)

/-- The suspension of an execution whose lease is valid. The record of an earlier
suspension is gone whatever comes out. At a text the script raises, and keeps what it has written. -/
def suspendUnderLease (a : SuspendArgs) (c : ExecCore) (now : Int) (s : Store) (texts : SuspendTexts := {}) :
    Reply × Store :=
  match bindWaitpoints a s.secrets now s.wait.delSuspension with
  | .error (reply,w) => (reply,s.setWait w)
  | .ok (b,w) =>
    let a' := if texts.dedupTtlMs then { a with dedupTtlMs := 0 } else a
    let told (reply : List String → Reply) := if texts.dedupTtlMs ∧ a.idempotencyKey ≠ "" then .raised else reply (b.fields a)
    if b.satisfied then
      (told .alreadySatisfied,s.setWait (w.recordOutcome a' now ("ALREADY_SATISFIED" :: b.fields a)))
    else if texts.leaseHistoryMaxlen then (.raised,(suspendRelease a c s).setWait w)
    else if texts.timeoutAt then (.raised,((suspendRelease a c s).setWait (b.record a w)).zadd .suspended 9999999999999)
    else (told .ok,suspendCommit a' c b w now s)

/-- A suspension record without a closing time. -/
def WaitKeys.suspensionOpen (w : WaitKeys) : Bool := w.suspension.any fun p => decide (p.closedAt = none)

def suspendExecution (a : SuspendArgs) (now : Int) (s : Store) (texts : SuspendTexts := {}) : Outcome := do
  ensure (∀ e ∈ a.extras, e.1 ≠ "" ∧ e.2 ≠ "") (.fail .additionalWaitpointBindingMalformed)
  match suspendReplay a now s.wait with
  | some reply => return (reply,s)
  | none =>
    let c ← demand s.core (.fail .executionNotFound)
    let fence ← fencePresented c a.fence
    validateLeaseAndMarkExpired c fence now s do
      ensure (indexText c.currentAttemptIndex = a.attemptIndex) (.fail .invalidLeaseForSuspend)
      ensure (s.wait.suspensionOpen = false) (.fail .alreadySuspended)
      return suspendUnderLease a c now s texts

/-- The open suspension with a name, if there is one. -/
def WaitKeys.activeSuspension (w : WaitKeys) : Option Suspension :=
  w.suspension.filter fun p => decide (p.suspensionId ≠ "" ∧ p.closedAt = none)

structure ResumeArgs where
  executionId : String
  resumeDelayMs : Int := 0
  keys : Keys := {}

variable (c : ExecCore)

/-- The hash of an execution that has left its suspension. The due time of a delay is
not stored in it. -/
def ExecCore.resumed (delayMs : Int) : ExecCore :=
  { c with
    lifecyclePhase := .runnable, ownershipState := .unowned
    eligibilityState := if 0 < delayMs then .notEligibleUntilTime else .eligibleNow
    blockingReason := if 0 < delayMs then .waitingForResumeDelay else .waitingForWorker, terminalOutcome := .none
    attemptState := .attemptInterrupted, publicState := if 0 < delayMs then .delayed else .waiting
    currentSuspensionId := "", currentWaitpointId := "" }

/-- Take a resumed execution from the suspended index to the one it waits in. -/
def Store.indexResumed (s : Store) (c : ExecCore) (delayMs now : Int) : Store :=
  (s.zrem .suspended).zadd (if 0 < delayMs then .delayed else .eligible)
    (if 0 < delayMs then now + delayMs else c.eligibleScore)

/-- The condition of the first waitpoint stays as it is. -/
def resumeCommit (a : ResumeArgs) (c : ExecCore) (now : Int) (s : Store) : Store :=
  let w := ((s.wait.closeWaitpoint a.keys.waitpointId).closeSuspension now "resumed").compositeCleanup
  ((((s.setCore (c.resumed a.resumeDelayMs)).indexResumed c a.resumeDelayMs now).zrem
    .suspensionTimeout).setWait (w.closeExisting s.wait.additionalIds))

def resumeExecution (a : ResumeArgs) (now : Int) (s : Store) : Outcome := do
  let c ← demand s.core (.fail .executionNotFound)
  ensure (c.lifecyclePhase = .suspended) (.fail .executionNotSuspended)
  let _ ← demand s.wait.activeSuspension (.fail .executionNotSuspended)
  return (.ok [(c.resumed a.resumeDelayMs).publicState.text],resumeCommit a c now s)

structure PendingArgs where
  (executionId attemptIndex waitpointId waitpointKey : String)
  expiresAt : Int

def createPendingWaitpoint (a : PendingArgs) (now : Int) (s : Store) : Outcome := do
  let c ← demand s.core (.fail .executionNotFound)
  ensure (c.lifecyclePhase = .active) c.notActive
  ensure (c.ownershipState = .leased) (.fail .noActiveLease)
  ensure (indexText c.currentAttemptIndex = a.attemptIndex) (.fail .staleLease)
  ensure ((s.wait.waitpoint a.waitpointId).all fun p => decide (p.state ≠ .pending ∧ p.state ≠ .active))
    (.fail .waitpointAlreadyExists)
  let token ← mintWaitpointToken s.secrets a.waitpointId a.waitpointKey now
  return (.ok [a.waitpointId,a.waitpointKey,token],s.setWait (s.wait.setWaitpoint a.waitpointId
    { executionId := a.executionId, attemptIndex := a.attemptIndex, waitpointKey := a.waitpointKey
      waitpointToken := token, state := .pending, createdAt := some now, expiresAt := some a.expiresAt }))

def TimeoutBehavior.text : TimeoutBehavior → String
  | .fail => "fail"
  | .cancel => "cancel"
  | .expire => "expire"
  | .autoResume => "auto_resume"
  | .autoResumeWithTimeoutSignal => "auto_resume_with_timeout_signal"
  | .escalate => "escalate"
  | .unset => ""

/-- The outcome and the label of an execution that a timeout ends. -/
def TimeoutBehavior.outcome : TimeoutBehavior → TerminalOutcome × PublicState
  | .cancel => (.cancelled,.cancelled)
  | .expire => (.expired,.expired)
  | _ => (.failed,.failed)

def TimeoutBehavior.closeReason : TimeoutBehavior → String
  | .cancel => "timed_out_cancel"
  | .expire => "timed_out_expire"
  | _ => "timed_out_fail"

def TimeoutBehavior.attemptEnd : TimeoutBehavior → AttemptLifecycle
  | .cancel => .endedCancelled
  | _ => .endedFailure

structure ExpireSuspensionArgs where
  executionId : String
  keys : Keys := {}

def WaitKeys.timeOut (w : WaitKeys) (waitpointKey : String) (now : Int) (reason : String) : WaitKeys :=
  (((w.closeWaitpoint waitpointKey).closeCondition waitpointKey).closeSuspension now
    reason).compositeCleanup.closeExisting w.additionalIds

def autoResumeCommit (a : ExpireSuspensionArgs) (c : ExecCore) (now : Int) (s : Store) : Store :=
  (((s.setCore (c.resumed 0)).indexResumed c 0 now).zrem .suspensionTimeout).setWait
    (s.wait.timeOut a.keys.waitpointId now "timed_out_auto_resume")

def ExecCore.escalated : ExecCore :=
  { c with
    lifecyclePhase := .suspended, ownershipState := .unowned, eligibilityState := .notApplicable
    blockingReason := .pausedByOperator, terminalOutcome := .none, publicState := .suspended }

/-- The suspension stays open and has no timeout any more. -/
def escalateCommit (p : Suspension) (s : Store) : Store :=
  ((s.setCore c.escalated).setWait (s.wait.setSuspension
    { p with reasonCode := "waiting_for_operator_review", timeoutAt := none, timeoutBehavior := .unset }
    )).zrem .suspensionTimeout

def ExecCore.timedOut (behavior : TimeoutBehavior) (now : Int) : ExecCore :=
  { c with
    lifecyclePhase := .terminal, ownershipState := .unowned, eligibilityState := .notApplicable, blockingReason := .none
    terminalOutcome := behavior.outcome.1, attemptState := .attemptTerminal, publicState := behavior.outcome.2
    failureReason := "suspension_timeout:" ++ behavior.text, completedAt := some now, currentSuspensionId := ""
    currentWaitpointId := "" }

/-- The execution deadline of the execution stays indexed. -/
def timeoutCommit (a : ExpireSuspensionArgs) (c : ExecCore) (behavior : TimeoutBehavior) (now : Int)
    (s : Store) : Store :=
  let s := s.setCore (c.timedOut behavior now)
  let s := s.updateAttempt (c.currentAttemptIndex.map fun _ => a.keys.attemptIndex) fun old =>
    { old with
      attemptState := behavior.attemptEnd, endedAt := some now, failureReason := "suspension_timeout:" ++ behavior.text
      suspensionId := "" }
  let s := s.closeStream (some a.keys.attemptIndex) now "suspension_timeout"
  let s := s.setWait (s.wait.timeOut a.keys.waitpointId now behavior.closeReason)
  (((s.zrem .suspensionTimeout).zrem .suspended).zadd .terminal now).announce a.executionId c behavior.outcome.1

/-- The timeout scanner's call. A suspension without a timeout makes it raise. -/
def expireSuspension (a : ExpireSuspensionArgs) (now : Int) (s : Store) : Outcome :=
  match s.core with
  | none => .ok (.ok ["not_found_cleaned"],s.zrem .suspensionTimeout)
  | some c =>
    if c.lifecyclePhase ≠ .suspended then
      .ok (.ok ["not_suspended_cleaned"],s.zrem .suspensionTimeout)
    else
      match s.wait.activeSuspension with
      | none => .ok (.ok ["no_active_suspension_cleaned"],s.zrem .suspensionTimeout)
      | some p =>
        match p.timeoutAt with
        | none => .error .raised
        | some timeoutAt =>
          if timeoutAt = 0 ∨ now < timeoutAt then .ok (.ok ["not_yet_due"],s)
          else
            match p.timeoutBehavior with
            | .autoResume | .autoResumeWithTimeoutSignal =>
              .ok (.ok ["auto_resume","waiting"],autoResumeCommit a c now s)
            | .escalate => .ok (.ok ["escalate","suspended"],escalateCommit c p s)
            | behavior => .ok (.ok [behavior.text,behavior.outcome.2.text],timeoutCommit a c behavior now s)

/-- Close a waitpoint without looking at the execution. Its condition is left alone. -/
def closeWaitpointScript (waitpointId : String) (s : Store) : Outcome := do
  let p ← demand (s.wait.waitpoint waitpointId) (.fail .waitpointNotFound)
  match p.state with
  | .closed | .expired => return (.ok ["already_closed"],s)
  | .pending | .active => return (.ok [],s.setWait (s.wait.closeWaitpoint waitpointId))

variable {reply : Reply} {s t : Store} {now : Int} {a : SuspendArgs}

/-- The call gets past the checks that come before its waitpoints. -/
structure SuspendArgs.Reaches (a : SuspendArgs) (c : ExecCore) (now : Int) (s : Store) : Prop where
  bindings : ∀ e ∈ a.extras, e.1 ≠ "" ∧ e.2 ≠ ""
  new : suspendReplay a now s.wait = none
  core : s.core = some c
  presented : fencePresented c a.fence = .ok a.fence
  held : HoldsLease c a.fence now
  attempt : indexText c.currentAttemptIndex = a.attemptIndex
  closed : s.wait.suspensionOpen = false

theorem SuspendArgs.Reaches.outcome {c : ExecCore} (h : a.Reaches c now s) (texts : SuspendTexts) :
    suspendExecution a now s texts = .ok (suspendUnderLease a c now s texts) := by
  simp only [suspendExecution,bind_ok,ensure_ok,h.new,demand_ok]
  refine ⟨(),h.bindings,c,h.core,a.fence,h.presented,?_⟩
  rw [validateLeaseAndMarkExpired,h.held.checkLease]
  simp only [bind_ok,ensure_ok]
  exact ⟨(),h.attempt,(),h.closed,rfl⟩

theorem suspendExecution_ok {texts : SuspendTexts} (h : suspendExecution a now s texts = .ok (reply,t)) :
    (suspendReplay a now s.wait = some reply ∧ t = s) ∨ ∃ c, s.core = some c ∧ suspendReplay a now s.wait = none ∧
        ((LeaseLapsed c now ∧ reply = .fail .leaseExpired ∧ t = markExpired c now s) ∨
          (a.Reaches c now s ∧ (reply,t) = suspendUnderLease a c now s texts)) := by
  simp only [suspendExecution,bind_ok,ensure_ok] at h
  obtain ⟨_,hb,h⟩ := h
  split at h
  · rename_i r hr
    cases h; exact .inl ⟨hr,rfl⟩
  · rename_i hr
    simp only [bind_ok,demand_ok] at h
    obtain ⟨c,hc,fence,hf,h⟩ := h
    cases fencePresented_ok hf
    refine .inr ⟨c,hc,hr,?_⟩
    rcases validateLease_ok h with hlapsed | ⟨hl,h⟩
    · exact .inl hlapsed
    · simp only [bind_ok,ensure_ok,pure_ok] at h
      obtain ⟨_,hi,_,ho,h⟩ := h
      exact .inr ⟨⟨hb,hr,hc,hf,hl,hi,ho⟩,h.symm⟩

theorem suspendUnderLease_eq {c : ExecCore} (h : (reply,t) = suspendUnderLease a c now s) :
    (∃ w, bindWaitpoints a s.secrets now s.wait.delSuspension = .error (reply,w) ∧ t = s.setWait w) ∨
      (∃ b w, bindWaitpoints a s.secrets now s.wait.delSuspension = .ok (b,w) ∧ b.satisfied ∧
        t = s.setWait (w.recordOutcome a now ("ALREADY_SATISFIED" :: b.fields a))) ∨
      (∃ b w, bindWaitpoints a s.secrets now s.wait.delSuspension = .ok (b,w) ∧ b.satisfied = false ∧
        t = suspendCommit a c b w now s) := by
  simp only [suspendUnderLease,Bool.false_eq_true,false_and,if_false] at h
  split at h
  · rename_i hb
    cases h; exact .inl ⟨_,hb,rfl⟩
  · rename_i b w hb
    split at h
    · rename_i hs
      cases h; exact .inr (.inl ⟨b,w,hb,hs,rfl⟩)
    · rename_i hs
      cases h; exact .inr (.inr ⟨b,w,hb,by simpa using hs,rfl⟩)

theorem resumeExecution_ok {a : ResumeArgs} (h : resumeExecution a now s = .ok (reply,t)) :
    ∃ c p, s.core = some c ∧ c.lifecyclePhase = .suspended ∧ s.wait.activeSuspension = some p ∧
      t = resumeCommit a c now s := by
  simp only [resumeExecution,bind_ok,demand_ok,ensure_ok] at h
  obtain ⟨c,hc,_,hp,p,hs,h⟩ := h
  cases h; exact ⟨c,p,hc,hp,hs,rfl⟩

theorem createPendingWaitpoint_ok {a : PendingArgs} (h : createPendingWaitpoint a now s = .ok (reply,t)) :
    ∃ c p, s.core = some c ∧ c.lifecyclePhase = .active ∧ p.state = .pending ∧ p.suspensionId = "" ∧
      t = s.setWait (s.wait.setWaitpoint a.waitpointId p) := by
  simp only [createPendingWaitpoint,bind_ok,demand_ok,ensure_ok] at h
  obtain ⟨c,hc,_,hp,_,-,_,-,_,-,_,-,h⟩ := h
  cases h; exact ⟨c,_,hc,hp,rfl,rfl,rfl⟩

def TimeoutBehavior.isFinal : TimeoutBehavior → Bool
  | .autoResume | .autoResumeWithTimeoutSignal | .escalate => false
  | .fail | .cancel | .expire | .unset => true

def TimeoutBehavior.resumes : TimeoutBehavior → Bool
  | .autoResume | .autoResumeWithTimeoutSignal => true
  | _ => false

theorem expireSuspension_ok {a : ExpireSuspensionArgs} (h : expireSuspension a now s = .ok (reply,t)) : t = s ∨
      (t = s.zrem .suspensionTimeout ∧
        ∀ c, s.core = some c → c.lifecyclePhase = .suspended → s.wait.activeSuspension = none) ∨
      ∃ c p, s.core = some c ∧ c.lifecyclePhase = .suspended ∧ s.wait.activeSuspension = some p ∧
        ((p.timeoutBehavior.resumes ∧ t = autoResumeCommit a c now s) ∨ t = escalateCommit c p s ∨
          (p.timeoutBehavior.isFinal ∧ t = timeoutCommit a c p.timeoutBehavior now s)) := by
  unfold expireSuspension at h
  split at h
  · rename_i hc
    cases h; exact .inr (.inl ⟨rfl,by simp [hc]⟩)
  · rename_i c hc
    split at h
    · rename_i hp
      cases h; exact .inr (.inl ⟨rfl,by simp_all⟩)
    · rename_i hp
      split at h
      · rename_i hs
        cases h; exact .inr (.inl ⟨rfl,fun _ _ _ => hs⟩)
      · rename_i p hs
        split at h
        · cases h
        · split at h
          · cases h; exact .inl rfl
          · refine .inr (.inr ⟨c,p,hc,by simpa using hp,hs,?_⟩)
            cases hb : p.timeoutBehavior <;> rw [hb] at h <;> cases h <;>
              simp [TimeoutBehavior.isFinal,TimeoutBehavior.resumes]

theorem closeWaitpointScript_ok {waitpointId : String}
    (h : closeWaitpointScript waitpointId s = .ok (reply,t)) : t = s ∨ ((s.wait.waitpoint waitpointId).isSome ∧
      t = s.setWait (s.wait.closeWaitpoint waitpointId)) := by
  simp only [closeWaitpointScript,bind_ok,demand_ok] at h
  obtain ⟨p,hp,h⟩ := h
  split at h <;> cases h
  · exact .inl rfl
  · exact .inl rfl
  · exact .inr ⟨by simp [hp],rfl⟩
  · exact .inr ⟨by simp [hp],rfl⟩

end FlowFabric
