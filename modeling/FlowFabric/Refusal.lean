import FlowFabric.System

/-! A script that returns before its first write returns an error. -/
namespace FlowFabric
open Foundation Op

/-- Early returns of this computation are errors. -/
abbrev Guarded {α : Type} (x : Except Reply α) : Prop := Refuses (Reply.isError ·) x

@[simp] theorem Reply.isError_err (code : ErrorCode) (details : List String) : (Reply.err code details).isError := rfl

@[simp] theorem Reply.isError_raised : Reply.raised.isError := rfl

variable (c : ExecCore) (f : Fence) (h : HmacSecrets)

@[simp] theorem ExecCore.notActive_isError : c.notActive.isError := rfl

@[simp] theorem requireNumber_guarded (name : String) (a : Argument) : Guarded (requireNumber name a) := by
  cases a <;> simp [requireNumber]

@[simp] theorem resolveLeaseFence_guarded : Guarded (resolveLeaseFence c f) := by simp [resolveLeaseFence]

@[simp] theorem fenceOrOverride_guarded (source : String) : Guarded (fenceOrOverride c f source) := by
  simp [fenceOrOverride]

@[simp] theorem fencePresented_guarded : Guarded (fencePresented c f) := by simp [fencePresented]

private theorem checkLease_rejected {c : ExecCore} {f : Fence} {now : Int} {reply : Reply}
    (h : checkLease c f now = .rejected reply) : reply.isError := by
  unfold checkLease at h
  repeat' split at h
  all_goals first | cases h; rfl | cases h

theorem validateLease_guarded (now : Int) (s : Store) {rest : Outcome}
    (h : Guarded rest) : Guarded (validateLeaseAndMarkExpired c f now s rest) := by
  unfold validateLeaseAndMarkExpired
  split
  · rename_i hr
    simpa using checkLease_rejected hr
  · simp
  · exact h

@[simp] theorem checkCapability_guarded (cap : Json) : Guarded (checkCapability cap) := by
  cases cap <;> simp [checkCapability,badCapability]

@[simp] theorem requiredCapabilitiesCsv_guarded (policy : JsonText) : Guarded (requiredCapabilitiesCsv policy) := by
  cases policy with
  | empty | malformed => simp [requiredCapabilitiesCsv]
  | doc =>
    unfold requiredCapabilitiesCsv
    split
    · simp_all
    · simp_all
    · split
      · simp
      · simp only [refuses_bind,refuses_ensure]
        split
        · simp
        · simp [badCapability,refuses_mapM]

@[simp] theorem matchCapabilities_guarded (csv : String) : Guarded (matchCapabilities c csv) := by
  simp [matchCapabilities,parseCapabilityCsv]

@[simp] theorem mintWaitpointToken_guarded (id key : String) (createdAt : Int) :
    Guarded (mintWaitpointToken h id key createdAt) := by
  simp [mintWaitpointToken]

@[simp] theorem secretFor_guarded (currentKid kid : String) (now : Int) : Guarded (secretFor h currentKid kid now) := by
  unfold secretFor
  split <;> simp

@[simp] theorem authenticate_guarded (a : SignalArgs) (code : ErrorCode) (now : Int) (s : Store) :
    Guarded (authenticate a (.fail code) now s) := by
  simp [authenticate,validateWaitpointToken]

theorem outcome_guarded (op : Op) (now : Int) (s : Store) : Guarded (op.outcome now s) := by
  cases op with
  | create =>
    simp only [outcome,createExecution,refuses_bind,requireNumber_guarded,true_and]
    intro priority _
    split
    · simp
    · split <;> simp
  | issueClaimGrant => simp [outcome,issueClaimGrant]
  | claim => simp [outcome,claimExecution]
  | claimResumed => simp [outcome,claimResumedExecution]
  | issueGrantAndClaim => simp [outcome,issueGrantAndClaim]
  | issueReclaimGrant => simp [outcome,issueReclaimGrant]
  | reclaim => simp [outcome,reclaimExecution]
  | renewLease => simp [outcome,renewLease]
  | markLeaseExpiredIfDue =>
    simp only [outcome,markLeaseExpiredIfDue]
    repeat' split
    all_goals simp
  | revokeLease =>
    simp only [outcome,revokeLease,refuses_bind,refuses_demand,refuses_ensure]
    refine ⟨by simp,fun c _ => ⟨by simp,fun _ _ => ?_⟩⟩
    split <;> simp
  | updateProgress => simp [outcome,updateProgress]
  | appendFrame => simp [outcome,appendFrame]
  | complete => simp [outcome,completeExecution,validateLease_guarded]
  | fail => simp [outcome,failExecution,validateLease_guarded]
  | delay => simp [outcome,delayExecution,validateLease_guarded]
  | moveToWaitingChildren => simp [outcome,moveToWaitingChildren,validateLease_guarded]
  | cancel => simp [outcome,cancelExecution]
  | expire =>
    simp only [outcome,expireExecution]
    split <;> simp
  | changePriority => simp [outcome,changePriority]
  | promoteDelayed =>
    simp only [outcome,promoteDelayed,refuses_bind,requireNumber_guarded,true_and]
    intro nowMs _
    split <;> simp
  | block => simp [outcome,blockExecutionForAdmission]
  | unblock => simp [outcome,unblockExecution]
  | suspend =>
    simp only [outcome,suspendExecution,refuses_bind,refuses_ensure]
    split
    · simp
    · simp [validateLease_guarded]
  | resume => simp [outcome,resumeExecution]
  | createPendingWaitpoint => simp [outcome,createPendingWaitpoint]
  | expireSuspension =>
    simp only [outcome,expireSuspension]
    repeat' split
    all_goals simp
  | closeWaitpoint =>
    simp only [outcome,closeWaitpointScript,refuses_bind,refuses_demand]
    refine ⟨by simp,fun p _ => ?_⟩
    split <;> simp
  | rotateSecret =>
    simp only [outcome,rotateWaitpointHmacSecret,refuses_bind,refuses_demand,refuses_ensure]
    split
    · split <;> simp
    · simp
  | deliverSignal =>
    simp only [outcome,deliverSignal,refuses_bind,refuses_demand,refuses_ensure,authenticate_guarded]
    refine ⟨by simp,fun c _ => ⟨trivial,fun p _ => ⟨by simp,fun _ _ => ⟨by simp,fun _ _ =>
      ⟨by simp,fun _ _ => ⟨by simp,fun _ _ => ⟨by simp,fun _ _ => ⟨by simp,fun _ _ => ?_⟩⟩⟩⟩⟩⟩⟩⟩
    split <;> simp
  | bufferSignal =>
    simp only [outcome,bufferSignalForPendingWaitpoint,refuses_bind,refuses_demand,refuses_ensure,authenticate_guarded]
    split <;> simp
  | addToFlow => simp [outcome,addExecutionToFlow]
  | setEdgeGroupPolicy => simp [outcome,setEdgeGroupPolicy]
  | applyDependency => simp [outcome,applyDependencyToChild]
  | resolveDependency =>
    simp only [outcome,resolveDependency,refuses_bind,refuses_demand]
    split
    · simp
    · split <;> simp
  | promoteBlocked => simp [outcome,promoteBlockedToEligible]
  | replay => simp [outcome,replayExecution]

theorem step_cases (i : Call) (s : Store) :
    ((step i s).1.isError ∧ next i s = s) ∨ i.op.outcome i.now s = .ok ((step i s).1,next i s) := by
  cases ho : i.op.outcome i.now s with
  | ok => exact .inr (by simp [next,step,ho])
  | error reply =>
    refine .inl ⟨?_,by simp [next,step,ho]⟩
    simpa [step,ho] using outcome_guarded i.op i.now s reply ho

def Call.succeeds (i : Call) (s : Store) : Bool := !(step i s).1.isError

theorem outcome_of_succeeds {i : Call} {s : Store} (h : i.succeeds s) :
    i.op.outcome i.now s = .ok ((step i s).1,next i s) := by
  rcases step_cases i s with ⟨he,-⟩ | ho
  · simp [Call.succeeds,he] at h
  · exact ho

end FlowFabric
