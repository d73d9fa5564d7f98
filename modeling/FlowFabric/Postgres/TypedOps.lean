import FlowFabric.Postgres.ClaimGrant

/-! The methods of typed_ops.rs, which take their arguments as they are and no handle. -/
namespace FlowFabric.Postgres
open Foundation Option

inductive CancelSource where
  | operatorOverride | leaseHolder | flowCascade | systemTimeout
  | custom (name : String)
  deriving DecidableEq

def CancelSource.text : CancelSource → String
  | .operatorOverride => "operator_override"
  | .leaseHolder => "lease_holder"
  | .flowCascade => "flow_cascade"
  | .systemTimeout => "system_timeout"
  | .custom name => name

/-- An attempt index that does not fit the column is refused. -/
def indexFits (name : String) (i : Nat) : Except EngineError Unit :=
  ensure (i ≤ i32Max) (.invalidInput (name ++ " " ++ toString i ++ " exceeds PG i32 column bound"))

structure RenewLeaseArgs where
  fence : Option Nat
  (attemptIndex leaseTtlMs : Nat)

def renewLease (a : RenewLeaseArgs) (now : Int) (r : Rows) : Transaction := do
  let epoch ← demand a.fence (.invalidInput "fence_required")
  indexFits "attempt_index" a.attemptIndex
  let row ← demand (r.attempt a.attemptIndex) (.notFound "attempt")
  ensure (row.leaseEpoch = epoch) (.state .staleLease)
  ensure (r.core.lifecyclePhase = .active) (r.core.notActive (some row.leaseEpoch))
  ensure (row.live now = true) (.state .leaseExpired)
  return {
    reply := .renewed (saturatingAdd now a.leaseTtlMs) epoch
    rows := r.updateAttempt a.attemptIndex (.renewedTo (saturatingAdd now a.leaseTtlMs)) }

open Transaction

theorem renewLease_rows (a : RenewLeaseArgs) (now : Int) (r : Rows) : (renewLease a now r).rows r = r ∨
      r.core.lifecyclePhase = .active ∧ (∃ row, r.attempt a.attemptIndex = some row ∧ row.live now = true) ∧
        (renewLease a now r).rows r = r.updateAttempt a.attemptIndex (.renewedTo (saturatingAdd now a.leaseTtlMs)) := by
  simp only [renewLease,indexFits,rows_demand,rows_ensure,rows_pure]
  cases a.fence with
  | none => exact .inl rfl
  | some =>
    rw [map_some,getD_some]
    split
    · cases hr : r.attempt a.attemptIndex with
      | none => exact .inl rfl
      | some row =>
        rw [map_some,getD_some]
        split
        · split
          · rename_i hp
            split
            · rename_i hl
              exact .inr ⟨hp,⟨row,rfl,hl⟩,rfl⟩
            · exact .inl rfl
          · exact .inl rfl
        · exact .inl rfl
    · exact .inl rfl

/-- What the two ends of an attempt take. The clock is the caller's. -/
structure EndArgs where
  fence : Option Nat
  source : CancelSource := .leaseHolder
  attemptIndex : Nat

variable (a : EndArgs)

/-- Without a fence only an operator gets through. -/
def EndArgs.fenceOrOverride : Except EngineError Unit :=
  ensure (a.fence ≠ none ∨ a.source = .operatorOverride) (.invalidInput "fence_required")

/-- The fence, when there is one. -/
def EndArgs.matchesEpoch (row : AttemptRow) : Except EngineError Unit :=
  ensure (∀ epoch ∈ a.fence, row.leaseEpoch = epoch) (.state .staleLease)

variable (payload : Option String)

variable (now : Int)

def Rows.completedFor (r : Rows) : Rows :=
  (r.updateAttempt a.attemptIndex (.closed .success now)).updateCore fun c =>
    { c.ended now with
      publicState := .completed, result := payload, rawFields := { c.rawFields with terminalOutcome := .success } }

def completeExecution (r : Rows) : Transaction := do
  a.fenceOrOverride
  indexFits "attempt_index" a.attemptIndex
  ensure (r.core.ownershipState ≠ .leaseRevoked) (.state .leaseRevoked)
  ensure (r.core.lifecyclePhase = .active)
    (.contention (.executionNotActive none none r.core.lifecyclePhase r.core.rawFields.currentAttemptId))
  let row ← demand (r.attempt a.attemptIndex) (.notFound "attempt")
  a.matchesEpoch row
  ensure (∀ expires ∈ row.leaseExpiresAtMs, now < expires) (.state .leaseExpired)
  return {
    reply := .publicly .completed, rows := r.completedFor a payload now
    events := [{ r.completion .success now with
      eventNamespace := r.core.rawFields.fieldNamespace, instanceTag := r.core.rawFields.instanceTag }] }

theorem completeExecution_rows (r : Rows) :
    (completeExecution a payload now r).rows r = r ∨ r.core.lifecyclePhase = .active ∧
        (completeExecution a payload now r).rows r = r.completedFor a payload now := by
  simp only [completeExecution,EndArgs.fenceOrOverride,EndArgs.matchesEpoch,indexFits,rows_demand,
    rows_ensure,rows_pure]
  cases r.attempt a.attemptIndex with
  | none => simp
  | some =>
    simp only [map_some,getD_some,← ite_and]
    split
    · rename_i h
      exact .inr ⟨h.2.2.2.1,rfl⟩
    · exact .inl rfl

def Rows.failedFor (r : Rows) : Rows := r.updateAttempt (min a.attemptIndex i32Max) (.closed .failure now)

def CoreRow.backedOff (c : CoreRow) : CoreRow :=
  { c.requeued .notEligibleUntilTime .pendingRetryAttempt with
    blockingReason := some .waitingForRetryBackoff, publicState := .delayed
    rawFields := { c.rawFields with retryCount := c.rawFields.retryCount + 1 } }

def CoreRow.failed (c : CoreRow) : CoreRow :=
  { c.ended now with
    publicState := .failed, rawFields := { c.rawFields with terminalOutcome := .failed } }

/-- The policy's max_retries comes with the arguments. -/
def failExecution (maxRetries : Nat) (now : Int) (r : Rows) : Transaction := do
  a.fenceOrOverride
  let row ← demand (r.attempt (min a.attemptIndex i32Max)) (.notFound "attempt")
  a.matchesEpoch row
  ensure (r.core.lifecyclePhase = .active) (r.core.notActive (some row.leaseEpoch))
  if r.core.rawFields.retryCount < maxRetries then
    return { reply := .retryScheduled, rows := (r.failedFor a now).updateCore CoreRow.backedOff }
  else
    return {
      reply := .terminalFailed, rows := (r.failedFor a now).updateCore (.failed now)
      events := [r.completion .failed now] }

theorem failExecution_rows (maxRetries : Nat) (now : Int) (r : Rows) :
    (failExecution a maxRetries now r).rows r = r ∨ r.core.lifecyclePhase = .active ∧
        ((failExecution a maxRetries now r).rows r = (r.failedFor a now).updateCore CoreRow.backedOff ∨
          (failExecution a maxRetries now r).rows r = (r.failedFor a now).updateCore (.failed now)) := by
  simp only [failExecution,EndArgs.fenceOrOverride,EndArgs.matchesEpoch,rows_demand,rows_ensure]
  cases r.attempt (min a.attemptIndex i32Max) with
  | none => simp
  | some =>
    simp only [map_some,getD_some,← ite_and]
    split
    · rename_i h
      refine .inr ⟨h.2.2,?_⟩
      split
      · exact .inl rfl
      · exact .inr rfl
    · exact .inl rfl

variable (resumeDelayMs : Nat)

def Rows.resumedAfter (r : Rows) : Rows :=
  { r with
    core :=
      if 0 < resumeDelayMs then
        { r.core.requeued .notEligibleUntilTime .attemptInterrupted with
          blockingReason := some .waitingForResumeDelay, publicState := .delayed }
      else
        { r.core.requeued .eligibleNow .attemptInterrupted with
          blockingReason := some .waitingForWorker, publicState := .waiting }
    suspension := none }

def resumeExecution (r : Rows) : Transaction := do
  ensure (r.core.lifecyclePhase = .suspended) (.state .executionNotSuspended)
  ensure (r.suspension.isSome = true) (.state .executionNotSuspended)
  return {
    reply := .publicly (if 0 < resumeDelayMs then .delayed else .waiting), rows := r.resumedAfter resumeDelayMs }

theorem resumeExecution_rows (r : Rows) : (resumeExecution resumeDelayMs r).rows r = r ∨
      r.core.lifecyclePhase = .suspended ∧ (resumeExecution resumeDelayMs r).rows r = r.resumedAfter resumeDelayMs := by
  simp only [resumeExecution,rows_ensure,rows_pure]
  split
  · rename_i hp
    split
    · exact .inr ⟨hp,rfl⟩
    · exact .inl rfl
  · exact .inl rfl

/-! ### Claims by name -/

structure ClaimExecutionArgs where
  worker : Worker
  attemptId : String
  (expectedAttemptIndex leaseTtlMs : Nat)
  executionDeadlineAt : Option Int := none

def CoreRow.freshGates (c : CoreRow) (eligible : Eligibility → Bool) : Except EngineError Unit := do
  ensure (c.lifecyclePhase = .runnable) (c.notActive none)
  ensure (c.ownershipState = .unowned) (.contention .leaseConflict)
  ensure (eligible c.eligibilityState = true) (.contention .executionNotLeaseable)
  ensure (c.attemptState ≠ .runningAttempt) .activeAttemptExists

variable (w : Worker)

/-- What a fresh claim by name writes. The core row then designates the index after the one that was
claimed. -/
def Rows.claimedAt (attemptId : String) (i : Nat) (expires now : Int) (shown : Public)
    (deadline : Option Int) (r : Rows) : Rows :=
  (r.upsertAttempt i (.first w 1 expires now) (.reopened w expires now)).updateCore fun c =>
    { c.activated with
      publicState := shown, attemptIndex := saturatingSucc i, deadlineAtMs := deadline.or c.deadlineAtMs
      rawFields := { c.rawFields with currentAttemptId := some attemptId } }

def Rows.claimedByName (a : ClaimExecutionArgs) (now : Int) (r : Rows) : Rows :=
  ({ r with grants := r.grants.filter (·.kind ≠ .claim) } : Rows).claimedAt a.worker a.attemptId
    a.expectedAttemptIndex (saturatingAdd now a.leaseTtlMs) now .active a.executionDeadlineAt

def claimExecution (a : ClaimExecutionArgs) (now : Int) (r : Rows) : Transaction := do
  indexFits "expected_attempt_index" a.expectedAttemptIndex
  r.core.freshGates (· = .eligibleNow)
  ensure (r.core.attemptState ≠ .attemptInterrupted) (.contention .executionNotLeaseable)
  let grant ← demand (r.grants.find? (·.kind = .claim)) (.contention .invalidClaimGrant)
  ensure (grant.workerId = a.worker.workerId) (.contention .invalidClaimGrant)
  ensure (¬ (0 < grant.expiresAtMs ∧ grant.expiresAtMs < now)) (.contention .claimGrantExpired)
  return {
    reply := .handle
      ⟨a.expectedAttemptIndex,(r.claimedByName a now).epochAt a.expectedAttemptIndex,a.leaseTtlMs⟩
    rows := r.claimedByName a now }

theorem freshGates_ok {c : CoreRow} {eligible : Eligibility → Bool} {u : Unit} (h : c.freshGates eligible = .ok u) :
    c.lifecyclePhase = .runnable ∧ eligible c.eligibilityState = true := by
  simp only [CoreRow.freshGates,bind_ok,ensure_ok] at h
  obtain ⟨-,hp,-,-,-,he,-⟩ := h
  exact ⟨hp,he⟩

variable {done : Committed} {r : Rows}

theorem claimExecution_ok {a : ClaimExecutionArgs} {now : Int} (h : claimExecution a now r = .ok done) :
    r.core.lifecyclePhase = .runnable ∧ r.core.eligibilityState = .eligibleNow ∧ done = {
        reply := .handle
          ⟨a.expectedAttemptIndex,(r.claimedByName a now).epochAt a.expectedAttemptIndex,a.leaseTtlMs⟩
        rows := r.claimedByName a now } := by
  simp only [claimExecution,bind_ok,pure_ok] at h
  obtain ⟨-,-,u,hg,-,-,grant,-,-,-,-,-,hd⟩ := h
  obtain ⟨hp,he⟩ := freshGates_ok hg
  exact ⟨hp,of_decide_eq_true he,hd.symm⟩

def operator : Worker := ⟨"operator","operator"⟩

def Rows.reletCurrent (expires now : Int) (r : Rows) : Rows :=
  (r.updateAttempt r.core.attemptIndex (.relet w expires now)).updateCore (.startedNow now)

/-- A claim on the row of the current index, which has to be there. -/
def reletting (leaseTtlMs : Nat) (expires now : Int) (r : Rows) : Transaction := do
  let row ← demand r.current .transport
  return {
    reply := .handle ⟨r.core.attemptIndex,row.leaseEpoch + 1,leaseTtlMs⟩, rows := r.reletCurrent w expires now }

theorem reletting_rows (leaseTtlMs : Nat) (expires now : Int) (r : Rows) :
    (reletting w leaseTtlMs expires now r).rows r =
      if r.current.isSome = true then r.reletCurrent w expires now else r := by
  rw [reletting,rows_demand]
  cases r.current <;> rfl

def Attempt.startsFresh : Attempt → Bool
  | .pendingRetryAttempt | .pendingReplayAttempt | .pendingFirstAttempt | .initial => true
  | .pending | .runningAttempt | .attemptInterrupted | .attemptTerminal | .cancelled | .terminalFailed => false

def Rows.claimedByOperator (leaseDurationMs : Nat) (attemptId : String) (now : Int) (r : Rows) : Rows :=
  r.claimedAt operator attemptId r.core.attemptIndex (saturatingAdd now leaseDurationMs) now .running none

/-- An interrupted attempt is taken up again in whatever phase the execution is. The grant of the
claim is inserted and deleted again. -/
def issueGrantAndClaim (leaseDurationMs : Nat) (attemptId : String) (now : Int) (r : Rows) : Transaction :=
  if r.core.attemptState = .attemptInterrupted then
    reletting operator leaseDurationMs (saturatingAdd now leaseDurationMs) now r
  else do
    r.core.freshGates fun e => e = .eligibleNow || e = .pendingClaim
    ensure (r.core.attemptState.startsFresh = true)
      (.corruption ("issue_grant_and_claim: unrecognized attempt_state=" ++ r.core.attemptState.text))
    return {
      reply := .handle ⟨r.core.attemptIndex,
        (r.claimedByOperator leaseDurationMs attemptId now).epochAt r.core.attemptIndex,leaseDurationMs⟩
      rows := r.claimedByOperator leaseDurationMs attemptId now }

theorem issueGrantAndClaim_interrupted (h : r.core.attemptState = .attemptInterrupted)
    (leaseDurationMs : Nat) (attemptId : String) (now : Int) :
    (issueGrantAndClaim leaseDurationMs attemptId now r).rows r =
      if r.current.isSome = true then r.reletCurrent operator (saturatingAdd now leaseDurationMs) now else r := by
  rw [issueGrantAndClaim,if_pos h,reletting_rows]

theorem issueGrantAndClaim_fresh (ha : r.core.attemptState ≠ .attemptInterrupted)
    {leaseDurationMs : Nat} {attemptId : String} {now : Int}
    (h : issueGrantAndClaim leaseDurationMs attemptId now r = .ok done) : r.core.lifecyclePhase = .runnable ∧
      (r.core.eligibilityState = .eligibleNow ∨ r.core.eligibilityState = .pendingClaim) ∧ done = {
        reply := .handle ⟨r.core.attemptIndex,
          (r.claimedByOperator leaseDurationMs attemptId now).epochAt r.core.attemptIndex,leaseDurationMs⟩
        rows := r.claimedByOperator leaseDurationMs attemptId now } := by
  simp only [issueGrantAndClaim,if_neg ha,bind_ok,pure_ok] at h
  obtain ⟨u,hg,-,-,hd⟩ := h
  obtain ⟨hp,he⟩ := freshGates_ok hg
  exact ⟨hp,by simpa using he,hd.symm⟩

end FlowFabric.Postgres
