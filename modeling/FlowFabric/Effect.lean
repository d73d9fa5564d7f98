import FlowFabric.System

/-! What one step does to the store. Every invariant of the machine is proved from
this list. -/
namespace FlowFabric
open Foundation

/-- The effects of the operations. Each names what the script has checked and the store
it leaves. -/
inductive Effect (s : Store) (now : Int) : Op → Store → Prop
  /-- Refused, or nothing to do. -/
  | kept (op : Op) : Effect s now op s
  | created (a) (priority : Int) (caps : String) (absent : s.core = none) :
      Effect s now (.create a) (createdStore a (newCore a priority now caps) s)
  /-- A grant was issued, or dropped because it could not be used. -/
  | granted (op : Op) (grant : Option Grant) : Effect s now op { s with grant }
  | claimed (op : Op) (a : ClaimArgs) (c) (r : LeaseRequest)
      (hop : op = .claim a ∨ op = .issueGrantAndClaim a) (hr : r.workerInstanceId = a.workerInstanceId)
      (hc : s.core = some c) (ready : Leaseable c) (unpacks : JsonText.unpacks a.attemptPolicyJson) :
      Effect s now op (freshLease a c r now (freshAttempt a c r s))
  | claimRaised (op : Op) (a : ClaimArgs) (c) (r : LeaseRequest)
      (hop : op = .claim a ∨ op = .issueGrantAndClaim a) (hc : s.core = some c) (ready : Leaseable c)
      (unpacks : JsonText.unpacks a.attemptPolicyJson = false) : Effect s now op (freshAttempt a c r s)
  | claimResumed (a : ClaimResumedArgs) (c) (r : LeaseRequest) (timeout : Option Int)
      (hr : r.workerInstanceId = a.workerInstanceId) (hc : s.core = some c)
      (runnable : c.lifecyclePhase = .runnable) (interrupted : c.attemptState = .attemptInterrupted) :
      Effect s now (.claimResumed a) ((resumedClaim (some a.keys.attemptIndex) a.keys.workerInstanceId c r s).zaddSome
          .attemptTimeout timeout)
  | grantClaimResumed (a : ClaimArgs) (c) (r : LeaseRequest)
      (hr : r.workerInstanceId = a.workerInstanceId) (hc : s.core = some c)
      (runnable : c.lifecyclePhase = .runnable) (interrupted : c.attemptState = .attemptInterrupted) :
      Effect s now (.issueGrantAndClaim a) (resumedClaim c.currentAttemptIndex a.keys.workerInstanceId c r s)
  | reclaimCapped (a c) (hc : s.core = some c) (lost : Reclaimable c)
      (exhausted : reclaimsExhausted a s c) : Effect s now (.reclaim a) (reclaimCap a c now s)
  | reclaimed (a : ReclaimArgs) (c) (r : LeaseRequest)
      (hr : r.workerInstanceId = a.workerInstanceId) (hc : s.core = some c) (lost : Reclaimable c) :
      Effect s now (.reclaim a) (reclaimCommit a c r now s)
  /-- A lease holder came too late, or the scanner found the lease due. -/
  | lapsed (op : Op) (c) (hc : s.core = some c) (due : LeaseLapsed c now) : Effect s now op (markExpired c now s)
  | renewed (a : RenewArgs) (c) (expiresAt deadline keyExpiresAt : Int)
      (hc : s.core = some c) (held : HoldsLease c a.fence now) : Effect s now (.renewLease a)
        (((s.setCore (c.renewed expiresAt deadline)).renewLeaseRecord now expiresAt keyExpiresAt).zadd
          .leaseExpiry expiresAt)
  | leaseUnindexed
      (idle : ∀ c, s.core = some c → c.lifecyclePhase = .active → c.ownershipState = .unowned) :
      Effect s now .markLeaseExpiredIfDue (s.zrem .leaseExpiry)
  | revoked (a c) (hc : s.core = some c) (active : c.lifecyclePhase = .active)
      (leased : c.ownershipState = .leased) : Effect s now (.revokeLease a)
        ((((s.setCore (c.revoked now)).delLease).zrem .leaseExpiry).sremWorker a.keys.workerInstanceId)
  | progressed (a c) (progressPct progressMessage : String) (hc : s.core = some c) :
      Effect s now (.updateProgress a) (s.setCore { c with progressPct, progressMessage })
  | appended (a) (stream : StreamMeta) : Effect s now (.appendFrame a) (s.setStream a.keys.attemptIndex stream)
  | completed (a c f) (hc : s.core = some c)
      (held : HoldsLease c f now) : Effect s now (.complete a) (completeCommit a c now s)
  | failRaised (a c f) (hc : s.core = some c) (held : HoldsLease c f now) : Effect s now (.fail a) (failEnd a now s)
  | failRetried (a : FailArgs) (c f) (delayUntil : Double) (hc : s.core = some c)
      (held : HoldsLease c f now) (due : a.delayUntil c now = some delayUntil) :
      Effect s now (.fail a) (failRetry a c delayUntil (failEnd a now s))
  | failedTerminal (a c f) (hc : s.core = some c)
      (held : HoldsLease c f now) : Effect s now (.fail a) (failTerminal a c now (failEnd a now s))
  | delayed (a c f) (hc : s.core = some c) (held : HoldsLease c f now) : Effect s now (.delay a) (delayCommit a c s)
  | moved (a c f) (hc : s.core = some c)
      (held : HoldsLease c f now) : Effect s now (.moveToWaitingChildren a) (moveCommit a c s)
  | cancelled (a c) (hc : s.core = some c)
      (unfinished : c.lifecyclePhase ≠ .terminal) : Effect s now (.cancel a) (cancelCommit a c now s)
  | expireCleaned (a) (finished : ∀ c, s.core = some c → c.lifecyclePhase = .terminal) :
      Effect s now (.expire a) ((s.zrem .attemptTimeout).zrem .executionDeadline)
  | expired (a c) (hc : s.core = some c)
      (unfinished : c.lifecyclePhase ≠ .terminal) : Effect s now (.expire a) (expireCommit a c now s)
  | prioritized (a c) (priority : Int) (score : Option Int) (hc : s.core = some c)
      (runnable : c.lifecyclePhase = .runnable) (eligible : c.eligibilityState = .eligibleNow) :
      Effect s now (.changePriority a) ((s.setCore { c with priority }).zaddSome .eligible score)
  | delayCleaned (a)
      (other : ∀ c, s.core = some c → c.lifecyclePhase = .runnable → c.eligibilityState ≠ .notEligibleUntilTime) :
      Effect s now (.promoteDelayed a) (s.zrem .delayed)
  | promoted (a c) (hc : s.core = some c)
      (runnable : c.lifecyclePhase = .runnable) (waiting : c.eligibilityState = .notEligibleUntilTime) :
      Effect s now (.promoteDelayed a)
        (((s.setCore { c.eligible with delayUntil := none }).zrem .delayed).zadd .eligible c.eligibleScore)
  | blocked (a : BlockArgs) (c) (eligibility : EligibilityState) (hc : s.core = some c)
      (runnable : c.lifecyclePhase = .runnable) (reason : a.blockingReason.toEligibility = some eligibility) :
      Effect s now (.block a)
        (((s.setCore (c.blocked eligibility a.blockingReason)).zrem .eligible).zadd a.blockedZset a.nowMs)
  | unblocked (a c) (hc : s.core = some c)
      (runnable : c.lifecyclePhase = .runnable) (held : c.eligibilityState.unblockable) : Effect s now (.unblock a)
        (((s.setCore c.eligible).zrem a.blockedZset).zadd .eligible c.eligibleScore)
  | suspendFailed (a : SuspendArgs) (c reply w) (hc : s.core = some c)
      (held : HoldsLease c a.fence now) (closed : s.wait.suspensionOpen = false)
      (bound : bindWaitpoints a s.secrets now s.wait.delSuspension = .error (reply,w)) :
      Effect s now (.suspend a) (s.setWait w)
  | suspendSatisfied (a : SuspendArgs) (c b w) (hc : s.core = some c)
      (held : HoldsLease c a.fence now) (closed : s.wait.suspensionOpen = false)
      (bound : bindWaitpoints a s.secrets now s.wait.delSuspension = .ok (b,w)) (satisfied : b.satisfied) :
      Effect s now (.suspend a) (s.setWait (w.recordOutcome a now ("ALREADY_SATISFIED" :: b.fields a)))
  | suspended (a : SuspendArgs) (c b w) (hc : s.core = some c)
      (held : HoldsLease c a.fence now) (closed : s.wait.suspensionOpen = false)
      (bound : bindWaitpoints a s.secrets now s.wait.delSuspension = .ok (b,w)) :
      Effect s now (.suspend a) (suspendCommit a c b w now s)
  | resumed (a c p) (hc : s.core = some c)
      (suspended : c.lifecyclePhase = .suspended) (hs : s.wait.activeSuspension = some p) :
      Effect s now (.resume a) (resumeCommit a c now s)
  | pendingCreated (a c p) (hc : s.core = some c)
      (active : c.lifecyclePhase = .active) (pending : p.state = .pending) (unbound : p.suspensionId = "") :
      Effect s now (.createPendingWaitpoint a) (s.setWait (s.wait.setWaitpoint a.waitpointId p))
  | timeoutCleaned (a) (none : ∀ c, s.core = some c → c.lifecyclePhase = .suspended → s.wait.activeSuspension = none) :
      Effect s now (.expireSuspension a) (s.zrem .suspensionTimeout)
  | autoResumed (a c p) (hc : s.core = some c)
      (suspended : c.lifecyclePhase = .suspended) (hs : s.wait.activeSuspension = some p)
      (resumes : p.timeoutBehavior.resumes) : Effect s now (.expireSuspension a) (autoResumeCommit a c now s)
  | escalated (a c p) (hc : s.core = some c)
      (suspended : c.lifecyclePhase = .suspended) (hs : s.wait.activeSuspension = some p) :
      Effect s now (.expireSuspension a) (escalateCommit c p s)
  | timedOut (a c p) (hc : s.core = some c)
      (suspended : c.lifecyclePhase = .suspended) (hs : s.wait.activeSuspension = some p)
      (final : p.timeoutBehavior.isFinal) :
      Effect s now (.expireSuspension a) (timeoutCommit a c p.timeoutBehavior now s)
  | waitpointClosed (waitpointId : String) (known : (s.wait.waitpoint waitpointId).isSome) :
      Effect s now (.closeWaitpoint waitpointId) (s.setWait (s.wait.closeWaitpoint waitpointId))
  | rotated (a) (secrets : HmacSecrets) : Effect s now (.rotateSecret a) (s.setSecrets secrets)
  /-- A signal was taken and changed at most what its waitpoint has collected. -/
  | signalled (a c p cond w) (taken : Deliverable a now s c p cond) (collects : Collects a cond s.wait w) :
      Effect s now (.deliverSignal a) (s.setWait w)
  | signalResumed (a c p cond w)
      (taken : Deliverable a now s c p cond) (collects : Collects a cond s.wait w) (plain : cond.composite = false) :
      Effect s now (.deliverSignal a) (plainResume a c now (s.setWait w))
  | compositeResumed (a c p cond w)
      (taken : Deliverable a now s c p cond) (collects : Collects a cond s.wait w) (composite : cond.composite) :
      Effect s now (.deliverSignal a) (compositeResume a c now (s.setWait w))
  | buffered (a) : Effect s now (.bufferSignal a) (s.setWait (s.wait.recordSignal a now))
  | joined (a c) (hc : s.core = some c) : Effect s now (.addToFlow a) (s.setCore { c with flowId := a.flowId })
  | policySet (a : PolicyArgs) (g) (policy : g.policyVariant = a.policyVariant) :
      Effect s now (.setEdgeGroupPolicy a) (s.setDeps { s.deps with edgeGroup := some g })
  | applied (a : ApplyArgs) (c) (hc : s.core = some c) (fresh : s.deps.dependency a.edgeId = none) :
      Effect s now (.applyDependency a) ((s.setDeps (s.deps.apply a)).blockChild c)
  | resolved (a d t) (settles : Settles a s.deps d) (settled : Settled a s d t) : Effect s now (.resolveDependency a) t
  | released (c) (hc : s.core = some c) (runnable : c.lifecyclePhase = .runnable)
      (waiting : c.eligibilityState = .blockedByDependencies) (unfinished : c.terminalOutcome = .none)
      (resolved : s.deps.unresolved = ∅) : Effect s now .promoteBlocked (s.releaseChild c)
  | replayedSkipped (a c) (hc : s.core = some c)
      (finished : c.lifecyclePhase = .terminal) (skipped : c.terminalOutcome = .skipped)
      (member : c.flowId ≠ "") : Effect s now (.replay a) (replaySkipped a c s).2
  | replayedNormal (a c) (hc : s.core = some c) (finished : c.lifecyclePhase = .terminal)
      (other : ¬ (c.terminalOutcome = .skipped ∧ c.flowId ≠ "")) : Effect s now (.replay a) (replayNormal c s).2

variable {s t : Store} {now : Int} {op : Op}

private theorem effect_of_fresh {a : ClaimArgs} {c : ExecCore} {r : LeaseRequest}
    {reply reply' : Reply} (hop : op = .claim a ∨ op = .issueGrantAndClaim a)
    (hr : r.workerInstanceId = a.workerInstanceId) (hc : s.core = some c) (ready : Leaseable c)
    (h : (reply',t) = freshClaim a c r now s reply) : Effect s now op t := by
  rcases freshClaim_eq h with ⟨hu,-,rfl⟩ | ⟨hu,-,rfl⟩
  · exact .claimed op a c r hop hr hc ready hu
  · exact .claimRaised op a c r hop hc ready hu

theorem effect_of_grantOnly (h : GrantOnly s t) : Effect s now op t := by
  obtain ⟨grant,rfl⟩ := h
  exact .granted op grant

theorem outcome_effect {reply : Reply} (h : op.outcome now s = .ok (reply,t)) : Effect s now op t := by
  cases op with
  | create a =>
    rcases createExecution_ok h with ⟨-,rfl⟩ | ⟨hc,priority,caps,rfl⟩
    · exact .kept _
    · exact .created a priority caps hc
  | issueClaimGrant => exact effect_of_grantOnly (issueClaimGrant_ok h).1
  | claim =>
    obtain ⟨c,r,_,hr,hc,ready,h⟩ := claimExecution_ok h
    exact effect_of_fresh (.inl rfl) hr hc ready h
  | claimResumed a =>
    obtain ⟨c,hc,h1,h2,⟨-,rfl⟩ | ⟨r,_,timeout,hr,-,rfl⟩⟩ := claimResumedExecution_ok h
    · exact .granted _ none
    · exact .claimResumed a c r timeout hr hc h1 h2
  | issueGrantAndClaim a =>
    obtain ⟨c,hc,h1,⟨-,rfl⟩ | ⟨r,_,hr,h2,-,rfl⟩ | ⟨r,_,hr,ready,h⟩⟩ := issueGrantAndClaim_ok h
    · exact .granted _ none
    · exact .grantClaimResumed a c r hr hc h1 h2
    · exact effect_of_fresh (.inr rfl) hr hc ready h
  | issueReclaimGrant => exact effect_of_grantOnly (issueReclaimGrant_ok h)
  | reclaim a =>
    obtain ⟨c,hc,lost,⟨-,exhausted,rfl⟩ | ⟨r,_,hr,-,rfl⟩⟩ := reclaimExecution_ok h
    · exact .reclaimCapped a c hc lost exhausted
    · exact .reclaimed a c r hr hc lost
  | renewLease a =>
    obtain ⟨c,hc,⟨due,-,rfl⟩ | ⟨held,_,_,_,rfl⟩⟩ := renewLease_ok h
    · exact .lapsed _ c hc due
    · exact .renewed a c _ _ _ hc held
  | markLeaseExpiredIfDue =>
    rcases markLeaseExpiredIfDue_ok h with rfl | ⟨rfl,idle⟩ | ⟨c,hc,due,rfl⟩
    · exact .kept _
    · exact .leaseUnindexed idle
    · exact .lapsed _ c hc due
  | revokeLease a =>
    rcases revokeLease_ok h with rfl | ⟨c,hc,h1,h2,rfl⟩
    · exact .kept _
    · exact .revoked a c hc h1 h2
  | updateProgress a =>
    obtain ⟨c,_,_,hc,-,rfl⟩ := updateProgress_ok h
    exact .progressed a c _ _ hc
  | appendFrame a =>
    obtain ⟨_,stream,-,-,rfl⟩ := appendFrame_ok h
    exact .appended a stream
  | complete a =>
    obtain ⟨c,f,hc,-,⟨due,-,rfl⟩ | ⟨held,rfl⟩⟩ := completeExecution_ok h
    · exact .lapsed _ c hc due
    · exact .completed a c f hc held
  | fail a =>
    obtain ⟨c,f,hc,-,⟨due,-,rfl⟩ | ⟨held,⟨-,-,rfl⟩ | ⟨_,due',-,rfl⟩ | ⟨-,-,rfl⟩⟩⟩ := failExecution_ok h
    · exact .lapsed _ c hc due
    · exact .failRaised a c f hc held
    · exact .failRetried a c f _ hc held due'
    · exact .failedTerminal a c f hc held
  | delay a =>
    obtain ⟨c,f,hc,-,⟨due,-,rfl⟩ | ⟨held,rfl⟩⟩ := delayExecution_ok h
    · exact .lapsed _ c hc due
    · exact .delayed a c f hc held
  | moveToWaitingChildren a =>
    obtain ⟨c,f,hc,-,⟨due,-,rfl⟩ | ⟨held,rfl⟩⟩ := moveToWaitingChildren_ok h
    · exact .lapsed _ c hc due
    · exact .moved a c f hc held
  | cancel a =>
    obtain ⟨c,hc,hp,rfl⟩ := cancelExecution_ok h
    exact .cancelled a c hc hp
  | expire a =>
    rcases expireExecution_ok h with ⟨hp,rfl⟩ | ⟨c,hc,hp,rfl⟩
    · exact .expireCleaned a hp
    · exact .expired a c hc hp
  | changePriority a =>
    obtain ⟨c,_,_,hc,hp,he,rfl⟩ := changePriority_ok h
    exact .prioritized a c _ _ hc hp he
  | promoteDelayed a =>
    rcases promoteDelayed_ok h with rfl | ⟨rfl,other⟩ | ⟨c,hc,hp,he,rfl⟩
    · exact .kept _
    · exact .delayCleaned a other
    · exact .promoted a c hc hp he
  | block a =>
    obtain ⟨c,e,hc,hp,he,rfl⟩ := blockExecutionForAdmission_ok h
    exact .blocked a c e hc hp he
  | unblock a =>
    obtain ⟨c,hc,hp,he,rfl⟩ := unblockExecution_ok h
    exact .unblocked a c hc hp he
  | suspend a =>
    rcases suspendExecution_ok h with ⟨-,rfl⟩ | ⟨c,hc,-,⟨due,-,rfl⟩ | ⟨⟨-,-,-,-,held,-,closed⟩,h⟩⟩
    · exact .kept _
    · exact .lapsed _ c hc due
    · rcases suspendUnderLease_eq h with ⟨w,hb,rfl⟩ | ⟨b,w,hb,hs,rfl⟩ | ⟨b,w,hb,-,rfl⟩
      · exact .suspendFailed a c reply w hc held closed hb
      · exact .suspendSatisfied a c b w hc held closed hb hs
      · exact .suspended a c b w hc held closed hb
  | resume a =>
    obtain ⟨c,p,hc,hp,hs,rfl⟩ := resumeExecution_ok h
    exact .resumed a c p hc hp hs
  | createPendingWaitpoint a =>
    obtain ⟨c,p,hc,hp,h1,h2,rfl⟩ := createPendingWaitpoint_ok h
    exact .pendingCreated a c p hc hp h1 h2
  | expireSuspension a =>
    rcases expireSuspension_ok h with rfl | ⟨rfl,none⟩ | ⟨c,p,hc,hp,hs,⟨hr,rfl⟩ | rfl | ⟨hf,rfl⟩⟩
    · exact .kept _
    · exact .timeoutCleaned a none
    · exact .autoResumed a c p hc hp hs hr
    · exact .escalated a c p hc hp hs
    · exact .timedOut a c p hc hp hs hf
  | closeWaitpoint waitpointId =>
    rcases closeWaitpointScript_ok h with rfl | ⟨known,rfl⟩
    · exact .kept _
    · exact .waitpointClosed waitpointId known
  | rotateSecret a =>
    obtain ⟨-,_,-,-,h⟩ := rotateWaitpointHmacSecret_ok h
    split at h
    · rcases h with rfl | ⟨-,rfl⟩
      · exact .kept _
      · exact .rotated a _
    · subst h
      exact .rotated a _
  | deliverSignal a =>
    rcases deliverSignal_ok h with ⟨rfl,-⟩ | ⟨c,p,cond,taken,h⟩
    · exact .kept _
    · split at h
      · rename_i hco
        obtain ⟨w,collects,⟨-,rfl⟩ | ⟨-,rfl⟩⟩ := deliverComposite_eq taken.condition hco h
        · exact .signalled a c p cond w taken collects
        · exact .compositeResumed a c p cond w taken collects hco
      · rename_i hco
        obtain ⟨w,collects,⟨-,rfl⟩ | ⟨-,rfl⟩⟩ := deliverPlain_eq taken.condition h
        · exact .signalled a c p cond w taken collects
        · exact .signalResumed a c p cond w taken collects (by simpa using hco)
  | bufferSignal a =>
    rcases bufferSignalForPendingWaitpoint_ok h with rfl | rfl
    · exact .kept _
    · exact .buffered a
  | addToFlow a =>
    obtain ⟨c,hc,rfl⟩ := addExecutionToFlow_ok h
    exact .joined a c hc
  | setEdgeGroupPolicy a =>
    rcases setEdgeGroupPolicy_ok h with rfl | ⟨g,hg,rfl⟩
    · exact .kept _
    · exact .policySet a g hg
  | applyDependency a =>
    rcases applyDependencyToChild_ok h with rfl | ⟨c,hc,hd,rfl⟩
    · exact .kept _
    · exact .applied a c hc hd
  | resolveDependency a =>
    rcases resolveDependency_ok h with rfl | ⟨d,settles,settled⟩
    · exact .kept _
    · exact .resolved a d t settles settled
  | promoteBlocked =>
    obtain ⟨c,hc,hp,he,ho,hu,rfl⟩ := promoteBlockedToEligible_ok h
    exact .released c hc hp he ho hu
  | replay a =>
    obtain ⟨c,hc,hp,⟨hs,hf,rfl⟩ | ⟨hn,rfl⟩⟩ := replayExecution_ok h
    · exact .replayedSkipped a c hc hp hs hf
    · exact .replayedNormal a c hc hp hn

theorem next_effect (i : Call) (s : Store) : Effect s i.now i.op (next i s) :=
  commit_induction (P := Effect s i.now i.op) (.kept _) fun _ _ h => outcome_effect h

theorem next_block (a : BlockArgs) (now : Int) (s : Store) : next ⟨now,.block a⟩ s =
      match s.core, a.blockingReason.toEligibility with
      | some c, some e =>
        if c.lifecyclePhase = .runnable then
          ((s.setCore (c.blocked e a.blockingReason)).zrem .eligible).zadd a.blockedZset a.nowMs
        else s
      | _, _ => s := by
  unfold next step Op.outcome blockExecutionForAdmission
  cases s.core with
  | none => rfl
  | some c =>
    cases hp : c.lifecyclePhase <;> cases he : a.blockingReason.toEligibility <;>
      simp [demand,ensure,hp,he,bind,Except.bind,pure,Except.pure]

end FlowFabric
