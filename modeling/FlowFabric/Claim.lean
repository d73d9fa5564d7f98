import FlowFabric.Create

/-! Claim grants, which ff_issue_claim_grant and ff_issue_reclaim_grant give out, and the scripts that
hand out a lease: ff_claim_execution, ff_claim_resumed_execution, ff_issue_grant_and_claim and
ff_reclaim_execution. -/
namespace FlowFabric
open Foundation

/-- The nonempty tokens of a comma-separated list, within the bounds. -/
def parseCapabilityCsv (csv kind : String) : Except Reply (List String) := do
  ensure (csv.utf8ByteSize ≤ capsMaxBytes) (.err .invalidCapabilities [kind ++ ":too_many_bytes"])
  let tokens := ((csv.toList.splitOn ',').filter fun t => !t.isEmpty).map String.ofList
  ensure (tokens.length ≤ capsMaxTokens) (.err .invalidCapabilities [kind ++ ":too_many_tokens"])
  return tokens

def missingCapabilities (required worker : List String) : String :=
  ",".intercalate ((required.dedup.filter fun cap => decide (cap ∉ worker)).insertionSort (· ≤ ·))

variable (c : ExecCore)

/-- An execution without requirements takes any worker. -/
def matchCapabilities (workerCapabilitiesCsv : String) : Except Reply Unit := do
  let required ← parseCapabilityCsv c.requiredCapabilities "required"
  let worker ← parseCapabilityCsv workerCapabilitiesCsv "worker"
  let missing := missingCapabilities required worker
  ensure (missing = "") (.err .capabilityMismatch [missing])

structure GrantArgs where
  (executionId workerId workerInstanceId : String)
  grantTtlMs : Argument
  workerCapabilitiesCsv : String := ""

/-- Write a grant whose key expires with it. A key that is due at once is gone at once. -/
@[simps] def Store.writeGrant (s : Store) (g : Grant) (now : Int) : Store :=
  { s with grant := if now < g.grantExpiresAt then some g else none }

def issueClaimGrant (a : GrantArgs) (now : Int) (s : Store) : Outcome := do
  let grantTtlMs ← requireNumber "grant_ttl_ms" a.grantTtlMs
  let c ← demand s.core (.fail .executionNotFound)
  ensure (c.lifecyclePhase = .runnable) (.fail .executionNotEligible)
  ensure (c.eligibilityState = .eligibleNow) (.fail .executionNotEligible)
  ensure (s.grantAt now = none) (.fail .grantAlreadyExists)
  ensure ((s.zset .eligible).isSome = true) (.fail .executionNotInEligibleSet)
  matchCapabilities c a.workerCapabilitiesCsv
  return (.ok [a.executionId],s.writeGrant ⟨a.workerId,a.workerInstanceId,now + grantTtlMs⟩ now)

def issueReclaimGrant (a : GrantArgs) (now : Int) (s : Store) : Outcome := do
  let grantTtlMs ← requireNumber "grant_ttl_ms" a.grantTtlMs
  let c ← demand s.core (.fail .executionNotFound)
  ensure (c.lifecyclePhase = .active) (.fail .executionNotReclaimable)
  ensure (c.ownershipState = .leaseExpiredReclaimable ∨ c.ownershipState = .leaseRevoked)
    (.fail .executionNotReclaimable)
  ensure (s.grantAt now = none) (.fail .grantAlreadyExists)
  matchCapabilities c a.workerCapabilitiesCsv
  return (.ok [a.executionId,toString (now + grantTtlMs)],
    s.writeGrant ⟨a.workerId,a.workerInstanceId,now + grantTtlMs⟩ now)

def GrantOnly (s t : Store) : Prop := ∃ grant, t = { s with grant }

variable {a : GrantArgs} {reply : Reply} {now : Int} {s t : Store}

theorem issueClaimGrant_ok
    (h : issueClaimGrant a now s = .ok (reply,t)) :
    GrantOnly s t ∧ ∃ c, s.core = some c ∧ c.lifecyclePhase = .runnable ∧
      c.eligibilityState = .eligibleNow ∧ s.grantAt now = none ∧ (s.zset .eligible).isSome := by
  simp only [issueClaimGrant,bind_ok,requireNumber_ok,demand_ok,ensure_ok] at h
  obtain ⟨_,-,c,hc,_,hp,_,he,_,hg,_,hz,_,-,h⟩ := h
  cases h
  exact ⟨⟨_,rfl⟩,c,hc,hp,he,hg,hz⟩

theorem issueReclaimGrant_ok
    (h : issueReclaimGrant a now s = .ok (reply,t)) : GrantOnly s t := by
  simp only [issueReclaimGrant,bind_ok,requireNumber_ok,demand_ok,ensure_ok] at h
  obtain ⟨_,-,c,-,_,-,_,-,_,-,_,-,h⟩ := h
  cases h
  exact ⟨_,rfl⟩

/-- The new lease: its identifier, the worker it goes to and its two deadlines. -/
structure LeaseRequest where
  (leaseId workerId workerInstanceId : String)
  (expiresAt renewalDeadline : Int)

variable (r : LeaseRequest)

/-- The hash of an execution that a worker holds under the next epoch. -/
def ExecCore.activate : ExecCore :=
  { c with
    lifecyclePhase := .active, ownershipState := .leased, eligibilityState := .notApplicable, blockingReason := .none
    terminalOutcome := .none, attemptState := .runningAttempt, publicState := .active, currentLeaseId := r.leaseId
    currentLeaseEpoch := c.currentLeaseEpoch + 1, currentWorkerId := r.workerId
    currentWorkerInstanceId := r.workerInstanceId, leaseExpiresAt := some r.expiresAt
    leaseRenewalDeadline := some r.renewalDeadline }

/-- A new attempt takes the next index. The first start time is kept. -/
def ExecCore.claimed (attemptId : String) (now : Int) : ExecCore :=
  { c.activate r with
    currentAttemptIndex := some c.totalAttemptCount, totalAttemptCount := c.totalAttemptCount + 1
    currentAttemptId := attemptId, startedAt := some (c.startedAt.getD now) }

def ExecCore.resumedClaim : ExecCore :=
  { c.activate r with leaseRevokedAt := none }

/-- A new attempt replaces one whose lease was lost. -/
def ExecCore.reclaimed (attemptId : String) : ExecCore :=
  { c.activate r with
    currentAttemptIndex := some c.totalAttemptCount, totalAttemptCount := c.totalAttemptCount + 1
    currentAttemptId := attemptId, leaseRevokedAt := none, leaseReclaimCount := c.leaseReclaimCount + 1 }

def Attempt.begin (old : Attempt) (attemptId : String) (type : AttemptType) (epoch : Nat)
    (r : LeaseRequest) : Attempt :=
  { old with
    attemptId
    attemptType := type, attemptState := .started, leaseId := r.leaseId, leaseEpoch := epoch, workerId := r.workerId
    workerInstanceId := r.workerInstanceId }

def Attempt.resume (old : Attempt) (epoch : Nat) (r : LeaseRequest) : Attempt :=
  { old with
    attemptState := .started, leaseId := r.leaseId, leaseEpoch := epoch, workerId := r.workerId
    workerInstanceId := r.workerInstanceId, suspensionId := "" }

/-- Write the lease and the execution that holds it, and index both. -/
def Store.takeLease (s : Store) (c : ExecCore) (r : LeaseRequest) (workerKey : String) : Store :=
  ((((s.setLease
    { leaseId := r.leaseId, leaseEpoch := c.currentLeaseEpoch, attemptId := c.currentAttemptId
      workerId := r.workerId, workerInstanceId := r.workerInstanceId, expiresAt := r.expiresAt }
    ).setCore c).zadd .leaseExpiry r.expiresAt).saddWorker workerKey).zadd .active r.expiresAt

def AttemptState.claimType : AttemptState → AttemptType
  | .pendingRetryAttempt => .retry
  | .pendingReplayAttempt => .replay
  | _ => .initial

def AttemptType.text : AttemptType → String
  | .initial => "initial"
  | .retry => "retry"
  | .replay => "replay"
  | .reclaim => "reclaim"

/-- A policy snapshot is unpacked field by field; anything but a table raises. -/
def JsonText.unpacks : JsonText → Bool
  | .empty => true
  | .malformed => false
  | .doc policy => policy.isTable

structure ClaimArgs where
  (executionId workerId workerInstanceId leaseId : String)
  leaseTtlMs : Argument
  renewBeforeMs : Argument := .number 0
  attemptId : String
  attemptPolicyJson : JsonText := .empty
  (attemptTimeoutMs executionDeadlineAt : Option Int := none)
  keys : Keys := {}

/-- A timeout of zero is no timeout. -/
def nonzero (o : Option Int) : Option Int := o.filter fun n => decide (n ≠ 0)

/-- The grant is consumed and the record of the new attempt written. -/
def freshAttempt (a : ClaimArgs) (c : ExecCore) (r : LeaseRequest) (s : Store) : Store :=
  s.delGrant.updateAttempt (some c.totalAttemptCount) fun old =>
    old.begin a.attemptId c.attemptState.claimType (c.currentLeaseEpoch + 1) r

def freshLease (a : ClaimArgs) (c : ExecCore) (r : LeaseRequest) (now : Int) (s : Store) : Store :=
  let s := (s.takeLease (c.claimed r a.attemptId now) r a.keys.workerInstanceId).zrem .eligible
  let s := s.zaddSome .attemptTimeout ((nonzero a.attemptTimeoutMs).map (now + ·))
  s.zaddSome .executionDeadline (nonzero a.executionDeadlineAt)

/-- The writes of a claim that starts a new attempt. A policy that does not unpack
raises between the attempt record and the lease. -/
def freshClaim (a : ClaimArgs) (c : ExecCore) (r : LeaseRequest) (now : Int) (s : Store)
    (reply : Reply) : Reply × Store :=
  if JsonText.unpacks a.attemptPolicyJson then (reply,freshLease a c r now (freshAttempt a c r s))
  else (.raised,freshAttempt a c r s)

/-- The writes of a claim that goes on with the attempt of the given key. -/
def resumedClaim (attemptKey : Option Nat) (workerKey : String) (c : ExecCore) (r : LeaseRequest) (s : Store) : Store :=
  let s := s.delGrant.updateAttempt attemptKey fun old => old.resume (c.currentLeaseEpoch + 1) r
  (s.takeLease (c.resumedClaim r) r workerKey).zrem .eligible

/-- A lease is returned by its id and its epoch, followed by what the script adds. -/
def ExecCore.leaseReply (leaseId : String) (rest : List String) : Reply :=
  .ok (leaseId :: toString (c.currentLeaseEpoch + 1) :: rest)

def claimExecution (a : ClaimArgs) (now : Int) (s : Store) : Outcome := do
  let leaseTtlMs ← requireNumber "lease_ttl_ms" a.leaseTtlMs
  let renewBeforeMs ← requireNumber "renew_before_ms" a.renewBeforeMs
  let c ← demand s.core (.fail .executionNotFound)
  ensure (c.lifecyclePhase = .runnable) (.fail .executionNotLeaseable)
  ensure (c.ownershipState = .unowned) (.fail .leaseConflict)
  ensure (c.eligibilityState = .eligibleNow) (.fail .executionNotLeaseable)
  ensure (c.terminalOutcome = .none) (.fail .executionNotLeaseable)
  ensure (c.attemptState ≠ .runningAttempt) (.fail .activeAttemptExists)
  ensure (c.attemptState ≠ .attemptInterrupted) (.fail .useClaimResumedExecution)
  let g ← demand (s.grantAt now) (.fail .invalidClaimGrant)
  ensure (g.workerId = a.workerId) (.fail .invalidClaimGrant)
  ensure (now ≤ g.grantExpiresAt) (.fail .claimGrantExpired)
  let r := ⟨a.leaseId,a.workerId,a.workerInstanceId,now + leaseTtlMs,now + renewBeforeMs⟩
  return freshClaim a c r now s (c.leaseReply a.leaseId
    [toString (now + leaseTtlMs),a.attemptId,toString c.totalAttemptCount,c.attemptState.claimType.text])

structure ClaimResumedArgs where
  (executionId workerId workerInstanceId leaseId : String)
  leaseTtlMs : Argument
  remainingAttemptTimeoutMs : Option Int := none
  keys : Keys := {}

/-- Two thirds of the lease are left for renewal. -/
def renewalSlack (leaseTtlMs : Int) : Int := leaseTtlMs * 2 / 3

/-- Neither the eligibility nor the ownership of the execution is looked at. -/
def claimResumedExecution (a : ClaimResumedArgs) (now : Int) (s : Store) : Outcome := do
  let leaseTtlMs ← requireNumber "lease_ttl_ms" a.leaseTtlMs
  let c ← demand s.core (.fail .executionNotFound)
  ensure (c.lifecyclePhase = .runnable) (.fail .executionNotLeaseable)
  ensure (c.attemptState = .attemptInterrupted) (.fail .notAResumedExecution)
  let g ← demand (s.grantAt now) (.fail .invalidClaimGrant)
  ensure (g.workerId = a.workerId) (.fail .invalidClaimGrant)
  if g.grantExpiresAt < now then return (.fail .claimGrantExpired,s.delGrant)
  else
    let r := ⟨a.leaseId,a.workerId,a.workerInstanceId,now + leaseTtlMs,now + renewalSlack leaseTtlMs⟩
    let remaining := a.remainingAttemptTimeoutMs.filter fun n => decide (0 < n)
    return (c.leaseReply a.leaseId [toString (now + leaseTtlMs),c.currentAttemptId,
        indexText c.currentAttemptIndex,"resumed"],
      (resumedClaim (some a.keys.attemptIndex) a.keys.workerInstanceId c r s).zaddSome .attemptTimeout
        (remaining.map (now + ·)))

/-- Grant and claim in one step, without a capability check. An interrupted attempt
goes on whatever the eligibility of the execution is. -/
def issueGrantAndClaim (a : ClaimArgs) (now : Int) (s : Store) : Outcome := do
  let leaseTtlMs ← requireNumber "lease_ttl_ms" a.leaseTtlMs
  let c ← demand s.core (.fail .executionNotFound)
  ensure (c.lifecyclePhase = .runnable) (.fail .executionNotEligible)
  ensure (c.ownershipState = .unowned) (.fail .leaseConflict)
  ensure (c.terminalOutcome = .none) (.fail .executionNotEligible)
  ensure (c.attemptState ≠ .runningAttempt) (.fail .activeAttemptExists)
  ensure (s.grantAt now = none) (.fail .grantAlreadyExists)
  let r := ⟨a.leaseId,a.workerId,a.workerInstanceId,now + leaseTtlMs,now + renewalSlack leaseTtlMs⟩
  if c.attemptState = .attemptInterrupted then
    return (c.leaseReply a.leaseId [indexText c.currentAttemptIndex],
      resumedClaim c.currentAttemptIndex a.keys.workerInstanceId c r s)
  else if s.zset .eligible = none then return (.fail .executionNotInEligibleSet,s.delGrant)
  else if c.eligibilityState ≠ .eligibleNow then return (.fail .executionNotEligible,s.delGrant)
  else
    return freshClaim a c r now s (c.leaseReply a.leaseId [toString c.totalAttemptCount])

structure ReclaimArgs where
  (executionId workerId workerInstanceId leaseId : String)
  leaseTtlMs : Argument
  attemptId : String
  defaultMaxReclaimCount : Argument := .number 100
  keys : Keys := {}

/-- The reclaim limit: the policy's, else the caller's. A limit that is no number raises. -/
def maxReclaimCount (policy : JsonText) (default : Int) : Option Double :=
  match policy with
  | .doc document =>
    match document.field "max_reclaim_count" with
    | some limit => limit.toNumber
    | none => some (.ofInt default)
  | _ => some (.ofInt default)

/-- The hash of an execution that was reclaimed too often. The lease deadlines stay. -/
def ExecCore.reclaimExhausted (now : Int) : ExecCore :=
  { c with
    lifecyclePhase := .terminal, ownershipState := .unowned, eligibilityState := .notApplicable, blockingReason := .none
    terminalOutcome := .failed, attemptState := .attemptTerminal, publicState := .failed
    failureReason := "max_reclaims_exceeded", completedAt := some now, currentLeaseId := "", currentWorkerId := ""
    currentWorkerInstanceId := "" }

/-- The attempt that held the lost lease is not ended and no completion is published. -/
def reclaimCap (a : ReclaimArgs) (c : ExecCore) (now : Int) (s : Store) : Store :=
  let s := ((s.setCore (c.reclaimExhausted now)).delLease.zrem .leaseExpiry).sremWorker
    a.keys.workerInstanceId
  let s := s.sremNamedWorker c.currentWorkerInstanceId
  (((s.zrem .active).zrem .attemptTimeout).zrem .executionDeadline).zadd .terminal now

def Store.interruptAttempt (s : Store) (attemptKey : Nat) (now : Int) (reason : String) : Store :=
  s.updateAttempt (some attemptKey) fun old =>
    { old with attemptState := .interruptedReclaimed, endedAt := some now, failureReason := reason }

/-- The old attempt is interrupted and a new one starts under a new lease. -/
def reclaimCommit (a : ReclaimArgs) (c : ExecCore) (r : LeaseRequest) (now : Int) (s : Store) : Store :=
  let s := s.delGrant.interruptAttempt a.keys.attemptIndex now ("lease_" ++ c.ownershipState.text)
  let s := s.closeStream (some a.keys.attemptIndex) now "reclaimed"
  let s := s.updateAttempt (some c.totalAttemptCount) fun old =>
    old.begin a.attemptId .reclaim (c.currentLeaseEpoch + 1) r
  let previous := if c.currentWorkerInstanceId = a.workerInstanceId then "" else c.currentWorkerInstanceId
  let s := s.sremNamedWorker previous
  s.takeLease (c.reclaimed r a.attemptId) r a.keys.workerInstanceId

def reclaimExecution (a : ReclaimArgs) (now : Int) (s : Store) : Outcome := do
  let leaseTtlMs ← requireNumber "lease_ttl_ms" a.leaseTtlMs
  let c ← demand s.core (.fail .executionNotFound)
  ensure (c.lifecyclePhase = .active) (.fail .executionNotReclaimable)
  ensure (c.ownershipState = .leaseExpiredReclaimable ∨ c.ownershipState = .leaseRevoked)
    (.fail .executionNotReclaimable)
  let default ← demand a.defaultMaxReclaimCount.toNumber .raised
  let limit ← demand (maxReclaimCount s.policy default) .raised
  if limit.le (.ofInt c.leaseReclaimCount) then
    return (.err .maxRetriesExhausted [limit.text],reclaimCap a c now s)
  else
    let g ← demand (s.grantAt now) (.fail .invalidClaimGrant)
    ensure (g.workerId = a.workerId) (.fail .invalidClaimGrant)
    let r := ⟨a.leaseId,a.workerId,a.workerInstanceId,now + leaseTtlMs,now + renewalSlack leaseTtlMs⟩
    return (c.leaseReply a.leaseId [toString (now + leaseTtlMs),a.attemptId,
      toString c.totalAttemptCount,AttemptType.text .reclaim],reclaimCommit a c r now s)

structure Leaseable (c : ExecCore) : Prop where
  runnable : c.lifecyclePhase = .runnable
  unowned : c.ownershipState = .unowned
  eligible : c.eligibilityState = .eligibleNow
  outcome : c.terminalOutcome = .none
  notRunning : c.attemptState ≠ .runningAttempt
  notInterrupted : c.attemptState ≠ .attemptInterrupted

variable {a : ClaimArgs}

theorem freshClaim_eq {c : ExecCore} {r : LeaseRequest}
    {reply' : Reply} (h : (reply',t) = freshClaim a c r now s reply) :
    (JsonText.unpacks a.attemptPolicyJson ∧ reply' = reply ∧ t = freshLease a c r now (freshAttempt a c r s)) ∨
      (JsonText.unpacks a.attemptPolicyJson = false ∧ reply' = .raised ∧ t = freshAttempt a c r s) := by
  unfold freshClaim at h
  split at h
  · rename_i hu
    cases h; exact .inl ⟨hu,rfl,rfl⟩
  · rename_i hu
    cases h; exact .inr ⟨by simpa using hu,rfl,rfl⟩

theorem claimExecution_ok (h : claimExecution a now s = .ok (reply,t)) :
    ∃ c r, r.leaseId = a.leaseId ∧ r.workerInstanceId = a.workerInstanceId ∧ s.core = some c ∧
      Leaseable c ∧ (reply,t) = freshClaim a c r now s (c.leaseReply a.leaseId [toString r.expiresAt,
        a.attemptId,toString c.totalAttemptCount,c.attemptState.claimType.text]) := by
  simp only [claimExecution,bind_ok,requireNumber_ok,demand_ok,ensure_ok,pure_ok] at h
  obtain ⟨_,-,_,-,c,hc,_,h1,_,h2,_,h3,_,h4,_,h5,_,h6,_,-,_,-,_,-,h⟩ := h
  exact ⟨c,⟨_,_,_,_,_⟩,rfl,rfl,hc,⟨h1,h2,h3,h4,h5,h6⟩,h.symm⟩

theorem claimResumedExecution_ok {a : ClaimResumedArgs} (h : claimResumedExecution a now s = .ok (reply,t)) :
    ∃ c, s.core = some c ∧ c.lifecyclePhase = .runnable ∧ c.attemptState = .attemptInterrupted ∧
      ((reply = .fail .claimGrantExpired ∧ t = s.delGrant) ∨
        ∃ r, r.leaseId = a.leaseId ∧ ∃ timeout, r.workerInstanceId = a.workerInstanceId ∧
          reply = c.leaseReply a.leaseId [toString r.expiresAt,c.currentAttemptId,
            indexText c.currentAttemptIndex,"resumed"] ∧
          t = (resumedClaim (some a.keys.attemptIndex) a.keys.workerInstanceId c r s).zaddSome
            .attemptTimeout timeout) := by
  simp only [claimResumedExecution,bind_ok,requireNumber_ok,demand_ok,ensure_ok] at h
  obtain ⟨_,-,c,hc,_,h1,_,h2,_,-,_,-,h⟩ := h
  refine ⟨c,hc,h1,h2,?_⟩
  split at h
  · cases h; exact .inl ⟨rfl,rfl⟩
  · cases h; exact .inr ⟨⟨_,_,_,_,_⟩,rfl,_,rfl,rfl,rfl⟩

theorem issueGrantAndClaim_ok (h : issueGrantAndClaim a now s = .ok (reply,t)) :
    ∃ c, s.core = some c ∧ c.lifecyclePhase = .runnable ∧ ((reply.isError ∧ t = s.delGrant) ∨
        (∃ r, r.leaseId = a.leaseId ∧ r.workerInstanceId = a.workerInstanceId ∧ c.attemptState = .attemptInterrupted ∧
          reply = c.leaseReply a.leaseId [indexText c.currentAttemptIndex] ∧
          t = resumedClaim c.currentAttemptIndex a.keys.workerInstanceId c r s) ∨
        (∃ r, r.leaseId = a.leaseId ∧ r.workerInstanceId = a.workerInstanceId ∧ Leaseable c ∧
          (reply,t) = freshClaim a c r now s (c.leaseReply a.leaseId [toString c.totalAttemptCount]))) := by
  simp only [issueGrantAndClaim,bind_ok,requireNumber_ok,demand_ok,ensure_ok] at h
  obtain ⟨_,-,c,hc,_,h1,_,h2,_,h3,_,h4,_,-,h⟩ := h
  refine ⟨c,hc,h1,?_⟩
  split at h
  · rename_i hi
    cases h; exact .inr (.inl ⟨⟨_,_,_,_,_⟩,rfl,rfl,hi,rfl,rfl⟩)
  · split at h
    · cases h; exact .inl ⟨rfl,rfl⟩
    · split at h
      · cases h; exact .inl ⟨rfl,rfl⟩
      · rename_i hi _ he
        rw [pure_ok] at h
        exact .inr (.inr ⟨⟨_,_,_,_,_⟩,rfl,rfl,⟨h1,h2,by simpa using he,h3,h4,hi⟩,h.symm⟩)

structure Reclaimable (c : ExecCore) : Prop where
  active : c.lifecyclePhase = .active
  lost : c.ownershipState = .leaseExpiredReclaimable ∨ c.ownershipState = .leaseRevoked

/-- The execution has been reclaimed as often as its limit allows. -/
def reclaimsExhausted (a : ReclaimArgs) (s : Store) (c : ExecCore) : Bool :=
  (a.defaultMaxReclaimCount.toNumber.bind (maxReclaimCount s.policy)).any fun limit =>
    limit.le (.ofInt c.leaseReclaimCount)

theorem reclaimExecution_ok {a : ReclaimArgs} (h : reclaimExecution a now s = .ok (reply,t)) :
    ∃ c, s.core = some c ∧ Reclaimable c ∧ ((reply.isError ∧ reclaimsExhausted a s c ∧ t = reclaimCap a c now s) ∨
        ∃ r, r.leaseId = a.leaseId ∧ r.workerInstanceId = a.workerInstanceId ∧
          reply = c.leaseReply a.leaseId [toString r.expiresAt,a.attemptId,toString c.totalAttemptCount,
            AttemptType.text .reclaim] ∧ t = reclaimCommit a c r now s) := by
  simp only [reclaimExecution,bind_ok,requireNumber_ok,demand_ok,ensure_ok] at h
  obtain ⟨_,-,c,hc,_,h1,_,h2,default,hd,limit,hl,h⟩ := h
  refine ⟨c,hc,⟨h1,h2⟩,?_⟩
  split at h
  · rename_i hle
    cases h; exact .inl ⟨rfl,by simp [reclaimsExhausted,hd,hl,hle],rfl⟩
  · simp only [bind_ok,demand_ok,ensure_ok] at h
    obtain ⟨_,-,_,-,h⟩ := h
    cases h; exact .inr ⟨⟨_,_,_,_,_⟩,rfl,rfl,rfl,rfl⟩

end FlowFabric
