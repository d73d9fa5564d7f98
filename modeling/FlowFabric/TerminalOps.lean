import FlowFabric.Fencing

/-! The terminal operations of the Valkey backend: complete_impl, cancel_impl and fail_impl with
the reconciliation of a replayed call. -/
namespace FlowFabric
open Foundation

/-- What the backend makes of the error of a script. -/
inductive EngineError where
  | executionNotActive (terminalOutcome leaseEpoch lifecyclePhase attemptId : String)
  | script (code : ErrorCode) (detail : String)
  | parse (message : String)
  | transport
  deriving DecidableEq

open EngineError

/-- An error with the details it has slots for. A missing detail is empty. -/
def EngineError.fromCodeWithDetails (code : ErrorCode) (details : List String) : EngineError :=
  let d (i : Nat) := details.getD i ""
  match code with
  | .executionNotActive => .executionNotActive (d 0) (d 1) (d 2) (d 3)
  | _ => .script code (d 0)

def EngineError.fromCodeWithDetail (code : ErrorCode) (detail : String) : EngineError :=
  .fromCodeWithDetails code [detail]

/-- The fields of a success. Of the details of an error only the first one is passed on. -/
def Reply.intoSuccess : Reply → Except EngineError (List String)
  | .ok fields | .alreadySatisfied fields | .duplicate fields => .ok fields
  | .err code details => .error (.fromCodeWithDetail code (details.headD ""))
  | .raised => .error .transport

structure HandleFields where
  executionId : String
  attemptIndex : Nat
  (attemptId leaseId : String)
  leaseEpoch : Nat
  workerInstanceId : String

namespace HandleFields

variable (f : HandleFields)

def fence : Fence := ⟨f.leaseId,toString f.leaseEpoch,f.attemptId⟩

def keys : Keys :=
  { attemptIndex := f.attemptIndex, workerInstanceId := f.workerInstanceId }

def completeArgs : CompleteArgs :=
  { executionId := f.executionId, fence := f.fence, keys := f.keys }

def cancelArgs (reason waitpointId : String) : CancelArgs :=
  { executionId := f.executionId, reason, source := "worker", leaseId := f.leaseId
    leaseEpoch := toString f.leaseEpoch, keys := { f.keys with waitpointId } }

def failArgs (failureReason : String) (retryPolicyJson : JsonText) : FailArgs :=
  { executionId := f.executionId, fence := f.fence, failureReason, retryPolicyJson, keys := f.keys }

end HandleFields

/-- Whether the execution has ended as the caller wants, under the caller's lease. -/
def reconcileTerminalReplay (error : EngineError) (f : HandleFields) (expectedOutcome : TerminalOutcome) : Bool :=
  match error with
  | .executionNotActive terminalOutcome leaseEpoch _ attemptId =>
    decide (terminalOutcome = expectedOutcome.text ∧ leaseEpoch = toString f.leaseEpoch ∧ attemptId = f.attemptId)
  | _ => false

/-- A success, or an error that is taken for one. -/
def replayed (f : HandleFields) (expectedOutcome : TerminalOutcome) (reply : Reply) : Except EngineError Unit :=
  match reply.intoSuccess with
  | .ok _ => .ok ()
  | .error error => if reconcileTerminalReplay error f expectedOutcome then .ok () else .error error

def completeImpl (f : HandleFields) (now : Int) (s : Store) : Except EngineError Unit × Store :=
  let (reply,s) := step ⟨now,.complete f.completeArgs⟩ s
  (replayed f .success reply,s)

def cancelImpl (f : HandleFields) (reason waitpointId : String) (now : Int) (s : Store) :
    Except EngineError Unit × Store :=
  let (reply,s) := step ⟨now,.cancel (f.cancelArgs reason waitpointId)⟩ s
  (replayed f .cancelled reply,s)

inductive FailOutcome where
  | retryScheduled (delayUntil : Int)
  | terminalFailed
  deriving DecidableEq

def parseFailResult (reply : Reply) : Except EngineError FailOutcome := do
  let fields ← reply.intoSuccess
  match fields.getD 0 "" with
  | "retry_scheduled" => return .retryScheduled ((fields.getD 1 "").toInt?.getD 0)
  | "terminal_failed" => return .terminalFailed
  | other => throw (.parse ("unexpected sub-status: " ++ other))

/-- A retried execution has no attempt, so that only the lease is compared. -/
def reconcileFailReplay (error : EngineError) (f : HandleFields) : Option FailOutcome :=
  match error with
  | .executionNotActive terminalOutcome leaseEpoch lifecyclePhase attemptId =>
    if leaseEpoch = toString f.leaseEpoch then
      if lifecyclePhase = "terminal" ∧ terminalOutcome = "failed" ∧ attemptId = f.attemptId then
        some .terminalFailed
      else if lifecyclePhase = "runnable" then some (.retryScheduled 0)
      else none
    else none
  | _ => none

def failImpl (f : HandleFields) (failureReason : String) (retryPolicyJson : JsonText) (now : Int)
    (s : Store) : Except EngineError FailOutcome × Store :=
  let (reply,s) := step ⟨now,.fail (f.failArgs failureReason retryPolicyJson)⟩ s
  match parseFailResult reply with
  | .ok outcome => (.ok outcome,s)
  | .error error =>
    match reconcileFailReplay error f with
    | some outcome => (.ok outcome,s)
    | none => (.error error,s)

/-- The backend reports a success on an execution that is not active. -/
def Reconciles {α : Type} (reply : Reply) (result : Except EngineError α) : Prop :=
  (∃ details, reply = .err .executionNotActive details) ∧ ∃ outcome, result = .ok outcome

variable {f : HandleFields} {s t : Store} {now : Int} {reply : Reply} {error : EngineError}

theorem intoSuccess_error (h : reply.intoSuccess = .error error) :
    (∀ outcome, reconcileTerminalReplay error f outcome = false) ∧ reconcileFailReplay error f = none := by
  cases reply with
  | err code details =>
    obtain rfl : fromCodeWithDetail code (details.headD "") = error := Except.error.inj h
    cases code <;> simp [fromCodeWithDetail,fromCodeWithDetails,reconcileTerminalReplay,reconcileFailReplay]
  | raised =>
    obtain rfl : transport = error := Except.error.inj h
    simp [reconcileTerminalReplay,reconcileFailReplay]
  | _ => cases h

variable {outcome : TerminalOutcome} {policy : JsonText} {failureReason : String}

theorem replayed_ok (h : replayed f outcome reply = .ok ()) : reply.isError = false := by
  unfold replayed at h
  cases hr : reply.intoSuccess with
  | error =>
    rw [hr] at h
    simp [(intoSuccess_error hr).1] at h
  | ok => cases reply <;> first | rfl | cases hr

private theorem parseFailResult_error (h : parseFailResult reply = .error error) :
    reconcileFailReplay error f = none := by
  unfold parseFailResult at h
  cases hr : reply.intoSuccess with
  | error error' =>
    rw [hr] at h
    obtain rfl : error' = error := Except.error.inj h
    exact (intoSuccess_error hr).2
  | ok =>
    rw [hr] at h
    simp only [bind,Except.bind] at h
    split at h
    · cases h
    · cases h
    · cases h
      rfl

theorem parseFailResult_ne_ok (h : reply.isError) (outcome : FailOutcome) : parseFailResult reply ≠ .ok outcome := by
  cases reply with
  | err | raised => exact nofun
  | _ => cases h

theorem failImpl_ok {outcome : FailOutcome} (h : failImpl f failureReason policy now s = (.ok outcome,t)) :
    parseFailResult (step ⟨now,.fail (f.failArgs failureReason policy)⟩ s).1 = .ok outcome ∧
      t = next ⟨now,.fail (f.failArgs failureReason policy)⟩ s := by
  unfold failImpl at h
  dsimp only at h
  split at h
  · rename_i hp
    cases h
    exact ⟨hp,rfl⟩
  · rename_i hp
    rw [parseFailResult_error hp] at h
    cases h

theorem presented_fence {c : ExecCore} {g : Fence} {source : String}
    (h : fenceOrOverride c f.fence source = .ok g) : g = f.fence := by
  obtain rfl | ⟨hf,-,-⟩ := fenceOrOverride_ok h
  · rfl
  · have := congrArg Fence.leaseEpoch hf
    simp [HandleFields.fence] at this

theorem not_reconciles_replayed (f : HandleFields) (outcome : TerminalOutcome) (reply : Reply) :
    ¬ Reconciles reply (replayed f outcome reply) := by
  rintro ⟨⟨details,rfl⟩,⟨⟩,hok⟩
  cases replayed_ok hok

theorem succeeds_of_replayed {i : Call} (h : replayed f outcome (step i s).1 = .ok ()) : i.succeeds s := by
  simp [Call.succeeds,replayed_ok h]

private theorem completeImpl_ok (h : completeImpl f now s = (.ok (),t)) :
    ∃ c, s.core = some c ∧ HoldsLease c f.fence now ∧ t = completeCommit f.completeArgs c now s := by
  let i : Call := ⟨now,.complete f.completeArgs⟩
  obtain ⟨hr,rfl⟩ : replayed f .success (step i s).1 = .ok () ∧ next i s = t := Prod.mk.inj h
  have hs := succeeds_of_replayed hr
  obtain ⟨c,g,hc,hf,⟨-,her,-⟩ | ⟨held,ht⟩⟩ := completeExecution_ok (outcome_of_succeeds hs)
  · simp [Call.succeeds,her] at hs
  · rw [presented_fence hf] at held
    exact ⟨c,hc,held,ht⟩

private theorem cancelImpl_ok {reason waitpointId : String} (h : cancelImpl f reason waitpointId now s = (.ok (),t)) :
    ∃ c, s.core = some c ∧ c.lifecyclePhase ≠ .terminal ∧ (c.lifecyclePhase = .active → f.leaseId ≠ "" →
        c.currentLeaseId = f.leaseId ∧ c.currentLeaseEpoch = f.leaseEpoch) ∧
      t = cancelCommit (f.cancelArgs reason waitpointId) c now s := by
  let i : Call := ⟨now,.cancel (f.cancelArgs reason waitpointId)⟩
  obtain ⟨hr,rfl⟩ : replayed f .cancelled (step i s).1 = .ok () ∧ next i s = t := Prod.mk.inj h
  have hout := outcome_of_succeeds (succeeds_of_replayed hr)
  simp only [i,Op.outcome,cancelExecution,bind_ok,demand_ok,ensure_ok,pure_ok] at hout
  obtain ⟨c,hc,_,hp,_,-,_,hlease,ht⟩ := hout
  refine ⟨c,hc,hp,fun hactive hid => ?_,(congrArg Prod.snd ht).symm⟩
  obtain (hna | hov) | hid' | ⟨hl,he⟩ := hlease
  · exact absurd hactive hna
  · exact absurd (show "worker" = "operator_override" from hov) (by decide)
  · exact absurd hid' hid
  · exact ⟨hl,toString_injective he⟩

private theorem failImpl_outcome {outcome : FailOutcome} (h : failImpl f failureReason policy now s = (.ok outcome,t)) :
    ∃ c, s.core = some c ∧ HoldsLease c f.fence now ∧ let a := f.failArgs failureReason policy
      ((∃ delayUntil at_, outcome = .retryScheduled delayUntil ∧ t = failRetry a c at_ (failEnd a now s)) ∨
        (outcome = .terminalFailed ∧ t = failTerminal a c now (failEnd a now s))) := by
  obtain ⟨hp,rfl⟩ := failImpl_ok h
  obtain ⟨herr,-⟩ | hout := step_cases ⟨now,.fail (f.failArgs failureReason policy)⟩ s
  · exact absurd hp (parseFailResult_ne_ok herr outcome)
  · obtain ⟨c,g,hc,hf,⟨-,her,-⟩ | ⟨held,⟨-,her,-⟩ | ⟨delayUntil,-,her,ht⟩ | ⟨-,her,ht⟩⟩⟩ := failExecution_ok hout
    all_goals rw [her] at hp
    · cases hp
    · cases hp
    · rw [presented_fence hf] at held
      split at hp
      · cases hp
      · obtain rfl := Except.ok.inj hp
        exact ⟨c,hc,held,.inl ⟨_,_,rfl,ht⟩⟩
    · rw [presented_fence hf] at held
      obtain rfl := Except.ok.inj hp
      exact ⟨c,hc,held,.inr ⟨rfl,ht⟩⟩

/-- Whatever has happened to the execution, no reply that it is not active is taken for a success:
the backend passes on only the first of the details that a replay is recognised by. A success that
a handle reports is the commit of its own call, a completion or a failure under the handle's own
lease, and of a failure as a retry or as the end what the script has done. -/
theorem terminal_ops_report_own_commits (f : HandleFields) (s : Store) (now : Int)
    (reason waitpointId : String) (policy : JsonText) :
    ¬ Reconciles (step ⟨now,.complete f.completeArgs⟩ s).1 (completeImpl f now s).1 ∧
    ¬ Reconciles (step ⟨now,.cancel (f.cancelArgs reason waitpointId)⟩ s).1
      (cancelImpl f reason waitpointId now s).1 ∧
    ¬ Reconciles (step ⟨now,.fail (f.failArgs reason policy)⟩ s).1 (failImpl f reason policy now s).1 ∧
    (∀ t, completeImpl f now s = (.ok (),t) →
      ∃ c, s.core = some c ∧ HoldsLease c f.fence now ∧ t = completeCommit f.completeArgs c now s) ∧
    (∀ t, cancelImpl f reason waitpointId now s = (.ok (),t) → ∃ c, s.core = some c ∧ c.lifecyclePhase ≠ .terminal ∧
        (c.lifecyclePhase = .active → f.leaseId ≠ "" →
          c.currentLeaseId = f.leaseId ∧ c.currentLeaseEpoch = f.leaseEpoch) ∧
        t = cancelCommit (f.cancelArgs reason waitpointId) c now s) ∧
    ∀ outcome t, failImpl f reason policy now s = (.ok outcome,t) → ∃ c, s.core = some c ∧ HoldsLease c f.fence now ∧
        let a := f.failArgs reason policy
        ((∃ delayUntil at_, outcome = .retryScheduled delayUntil ∧ t = failRetry a c at_ (failEnd a now s)) ∨
          (outcome = .terminalFailed ∧ t = failTerminal a c now (failEnd a now s))) := by
  refine ⟨not_reconciles_replayed f .success _,not_reconciles_replayed f .cancelled _,?_,
    fun t => completeImpl_ok,fun t => cancelImpl_ok,fun outcome t => failImpl_outcome⟩
  rintro ⟨⟨details,hr⟩,outcome,hok⟩
  obtain ⟨hp,-⟩ := failImpl_ok (t := (failImpl f reason policy now s).2) (by rw [← hok])
  rw [hr] at hp
  exact parseFailResult_ne_ok rfl outcome hp

namespace Client

def firstLease : HandleFields := ⟨"e",0,"a1","l1",1,"wi"⟩

def leased : Store := run [Client.create 10,Client.grant 11,Client.claim 12 "l1" "a1"]

theorem completion_is_committed : ∃ t, completeImpl firstLease 20 leased = (.ok (),t) ∧
      ∃ c, leased.core = some c ∧ HoldsLease c firstLease.fence 20 ∧
        t = completeCommit firstLease.completeArgs c 20 leased := by
  have hok : (completeImpl firstLease 20 leased).1 = .ok () := by decide +kernel
  have h : completeImpl firstLease 20 leased = (.ok (),(completeImpl firstLease 20 leased).2) := by rw [← hok]
  exact ⟨_,h,(terminal_ops_report_own_commits firstLease leased 20 "" "" .empty).2.2.2.1 _ h⟩

-- the repeated completion of a handle whose first reply was lost is an error
example : (completeImpl firstLease 21 (completeImpl firstLease 20 leased).2).1 =
    .error (.executionNotActive "success" "" "" "") := by decide +kernel

-- with all details, the handle's own delay would be taken for a retry of its failure
example : let delayed := next (Client.delay 20 firstLease.fence) leased
    (delayed.core.map fun c => match c.notActive with
      | .err code details => reconcileFailReplay (.fromCodeWithDetails code details) firstLease
      | _ => none) = some (some (.retryScheduled 0)) := by decide +kernel

end Client
end FlowFabric
