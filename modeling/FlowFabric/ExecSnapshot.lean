import FlowFabric.Foundation.Field
import FlowFabric.State

/-! The decoder of describe_execution: build_execution_snapshot with the summaries of the
current attempt and of the current lease. -/
namespace FlowFabric
open Foundation

/-- What the decoder leaves to its libraries: the parser of ids, which takes no empty text, and
the words in which an unknown state is reported. -/
structure Libraries where
  uuid : String → Except String String
  serdeError : String → String
  uuid_empty : ∀ id, uuid "" ≠ .ok id

def describeExecution : String := "describe_execution: exec_core"

def PublicState.all : List PublicState :=
  [.waiting,.delayed,.rateLimited,.waitingChildren,.active,.suspended,.resumable,.completed,.failed,
    .cancelled,.expired,.skipped]

def BlockingReason.text : BlockingReason → String
  | .none => "none"
  | .waitingForWorker => "waiting_for_worker"
  | .waitingForRetryBackoff => "waiting_for_retry_backoff"
  | .waitingForResumeDelay => "waiting_for_resume_delay"
  | .waitingForDelay => "waiting_for_delay"
  | .waitingForSignal => "waiting_for_signal"
  | .waitingForApproval => "waiting_for_approval"
  | .waitingForCallback => "waiting_for_callback"
  | .waitingForToolResult => "waiting_for_tool_result"
  | .waitingForChildren => "waiting_for_children"
  | .waitingForBudget => "waiting_for_budget"
  | .waitingForQuota => "waiting_for_quota"
  | .waitingForCapableWorker => "waiting_for_capable_worker"
  | .waitingForLocalityMatch => "waiting_for_locality_match"
  | .pausedByOperator => "paused_by_operator"
  | .pausedByPolicy => "paused_by_policy"
  | .pausedByFlowCancel => "paused_by_flow_cancel"

/-- An error of a library, reported with the field it is about. -/
def blame {α : Type} (field message : String) : Except String α → Except Corruption α
  | .ok a => .ok a
  | .error e => .error ⟨describeExecution,some field,message ++ e⟩

/-- The text of a field, also of one that is missing. -/
def optStr (raw : Fields) (field : String) : String := ((raw.lookup field).map FieldValue.render).getD ""

variable (lib : Libraries)

def parsePublicState (raw : String) : Except Corruption PublicState :=
  demand (PublicState.all.find? fun p => p.text == raw)
    ⟨describeExecution,some "public_state","'" ++ raw ++ "' is not a known public state: " ++ lib.serdeError raw⟩

def laneIdMaxBytes : Nat := 64

def LaneId.tryNew (value : String) : Except String String :=
  if value = "" then .error "lane_id is empty"
  else if laneIdMaxBytes < value.utf8ByteSize then
    .error ("lane_id exceeds 64 bytes (got " ++ toString value.utf8ByteSize ++ ")")
  else
    match value.toUTF8.data.toList.findIdx? fun b => !(0x20 ≤ b && b ≤ 0x7e) with
    | some idx => .error ("lane_id contains non-ASCII-printable byte at index " ++ toString idx)
    | none => .ok value

/-- An id that may be missing. -/
def parseId (raw : Fields) (field : String) : Except Corruption (Option String) :=
  match present raw field with
  | none => .ok none
  | some v => do
    let id ← blame field "is not a valid UUID (key corruption?): " (lib.uuid v.render)
    return some id

structure AttemptSummary where
  attemptId : String
  attemptIndex : Int
  deriving DecidableEq

structure LeaseSummary where
  leaseEpoch : Int
  workerInstanceId : String
  expiresAt : Int
  leaseId : String
  attemptIndex : Int
  lastHeartbeatAt : Option Int
  deriving DecidableEq

structure ExecutionSnapshot where
  executionId : String
  flowId : Option String
  (laneId namespaceName : String)
  publicState : PublicState
  blockingReason : Option String
  currentAttempt : Option AttemptSummary
  currentLease : Option LeaseSummary
  currentWaitpoint : Option String
  (createdAt lastMutationAt totalAttemptCount : Int)
  deriving DecidableEq

def buildAttemptSummary (raw : Fields) : Except Corruption (Option AttemptSummary) :=
  match present raw "current_attempt_id" with
  | none => .ok none
  | some id => do
    let attemptId ← blame "current_attempt_id" "is not a valid UUID: " (lib.uuid id.render)
    let attemptIndex ← numberRequired parseU32Strict describeExecution raw "current_attempt_index"
      "is missing while current_attempt_id is set (key corruption?)"
    return some { attemptId, attemptIndex }

def missingWhileHeld : String := "is missing while current_worker_instance_id is set (key corruption?)"

/-- What is decoded of a lease once its worker and its expiry are known. -/
def heldLease (raw : Fields) (wid : FieldValue) (expiresAt : Int) : Except Corruption LeaseSummary := do
  let leaseEpoch ← numberRequired parseU64Strict describeExecution raw "current_lease_epoch" missingWhileHeld
  let id ← required describeExecution raw "current_lease_id" missingWhileHeld
  let leaseId ← blame "current_lease_id" "is not a valid UUID: " (lib.uuid id.render)
  let attemptIndex ←
    numberRequired parseU32Strict describeExecution raw "current_attempt_index" missingWhileHeld
  let lastHeartbeatAt ← parseTs describeExecution raw "lease_last_renewed_at"
  return { leaseEpoch, workerInstanceId := wid.render, expiresAt, leaseId, attemptIndex, lastHeartbeatAt }

def buildLeaseSummary (raw : Fields) : Except Corruption (Option LeaseSummary) :=
  match present raw "current_worker_instance_id" with
  | none => .ok none
  | some wid => do
    match ← parseTs describeExecution raw "lease_expires_at" with
    | none => return none
    | some expiresAt =>
      let lease ← heldLease lib raw wid expiresAt
      return some lease

def buildExecutionSnapshot (executionId : String) (raw : Fields) : Except Corruption ExecutionSnapshot := do
  let ctx := describeExecution
  let publicState ← parsePublicState lib (optStr raw "public_state")
  let laneId ← blame "lane_id" "fails LaneId validation (key corruption?): "
    (LaneId.tryNew (optStr raw "lane_id"))
  let flowId ← parseId lib raw "flow_id"
  let createdAt ← numberRequired parseTs ctx raw "created_at" "is missing or empty (key corruption?)"
  let lastMutationAt ←
    numberRequired parseTs ctx raw "last_mutation_at" "is missing or empty (key corruption?)"
  let totalAttemptCount ← parseU32Strict ctx raw "total_attempt_count"
  let currentAttempt ← buildAttemptSummary lib raw
  let currentLease ← buildLeaseSummary lib raw
  let currentWaitpoint ← parseId lib raw "current_waitpoint_id"
  return {
    executionId := executionId, flowId := flowId, laneId := laneId, namespaceName := optStr raw "namespace"
    publicState := publicState, blockingReason := (present raw "blocking_reason").map FieldValue.render
    currentAttempt := currentAttempt, currentLease := currentLease, currentWaitpoint := currentWaitpoint
    createdAt := createdAt, lastMutationAt := lastMutationAt, totalAttemptCount := totalAttemptCount.getD 0 }

section
variable {lib : Libraries} {raw : Fields}

variable {field executionId : String} {expiresAt : Int} {wid : FieldValue}

@[simp] theorem blame_ok {α : Type} {message : String} {x : Except String α} {a : α} :
    blame field message x = .ok a ↔ x = .ok a := by
  cases x <;> simp [blame]

theorem parseId_isOk : (∃ o, parseId lib raw field = .ok o) ↔
      ∀ v, present raw field = some v → ∃ id, lib.uuid v.render = .ok id := by
  unfold parseId
  cases present raw field with
  | none => simp
  | some =>
    simp only [bind_ok,pure_ok,blame_ok,Option.some.injEq,forall_eq']
    constructor
    · rintro ⟨_,id,hid,-⟩
      exact ⟨id,hid⟩
    · rintro ⟨id,hid⟩
      exact ⟨_,id,hid,rfl⟩

private theorem buildAttemptSummary_isOk : (∃ o, buildAttemptSummary lib raw = .ok o) ↔
      ∀ v, present raw "current_attempt_id" = some v → (∃ id, lib.uuid v.render = .ok id) ∧
        ∃ n : Int, present raw "current_attempt_index" = some (.number n) ∧ 0 ≤ n ∧ n < 2 ^ 32 := by
  unfold buildAttemptSummary
  cases present raw "current_attempt_id" with
  | none => simp
  | some =>
    simp only [bind_ok,pure_ok,blame_ok,parseU32Strict,numberRequired_ok,Option.some.injEq,forall_eq']
    constructor
    · rintro ⟨_,id,hid,n,hn,-⟩
      exact ⟨⟨id,hid⟩,n,hn⟩
    · rintro ⟨⟨id,hid⟩,n,hn⟩
      exact ⟨_,id,hid,n,hn,rfl⟩

/-- The fields that belong to a lease once its worker and its expiry are known. -/
structure LeaseFieldsDecode (lib : Libraries) (raw : Fields) : Prop where
  epoch : ∃ n : Int, present raw "current_lease_epoch" = some (.number n) ∧ 0 ≤ n ∧ n < 2 ^ 64
  leaseId : ∃ v, present raw "current_lease_id" = some v ∧ ∃ id, lib.uuid v.render = .ok id
  attemptIndex : ∃ n : Int, present raw "current_attempt_index" = some (.number n) ∧ 0 ≤ n ∧ n < 2 ^ 32
  renewed : ∀ v, present raw "lease_last_renewed_at" = some v → v.inRange (-2 ^ 63) (2 ^ 63)

theorem heldLease_isOk : (∃ l, heldLease lib raw wid expiresAt = .ok l) ↔ LeaseFieldsDecode lib raw := by
  have heartbeat : (∃ o, parseTs describeExecution raw "lease_last_renewed_at" = .ok o) ↔
      ∀ v, present raw "lease_last_renewed_at" = some v → v.inRange (-2 ^ 63) (2 ^ 63) := parseStrict_isOk
  simp only [heldLease,bind_ok,pure_ok,parseU64Strict,parseU32Strict,numberRequired_ok,required_ok,blame_ok]
  constructor
  · rintro ⟨l,epoch,he,v,hv,id,hid,index,hi,beat,hb,-⟩
    exact ⟨⟨epoch,he⟩,⟨v,hv,id,hid⟩,⟨index,hi⟩,heartbeat.mp ⟨beat,hb⟩⟩
  · rintro ⟨⟨epoch,he⟩,⟨v,hv,id,hid⟩,⟨index,hi⟩,renewed⟩
    obtain ⟨beat,hb⟩ := heartbeat.mpr renewed
    exact ⟨_,epoch,he,v,hv,id,hid,index,hi,beat,hb,rfl⟩

/-- The lease of a snapshot is the one of the hash. -/
structure ReportsLease (lib : Libraries) (raw : Fields) (lease : Option LeaseSummary) : Prop where
  reported : lease.isSome = true ↔ (present raw "current_worker_instance_id").isSome = true ∧
    (present raw "lease_expires_at").isSome = true
  leaseId : ∀ l ∈ lease, ∃ v, present raw "current_lease_id" = some v ∧ lib.uuid v.render = .ok l.leaseId
  epoch : ∀ l ∈ lease, present raw "current_lease_epoch" = some (.number l.leaseEpoch)
  attemptIndex : ∀ l ∈ lease, present raw "current_attempt_index" = some (.number l.attemptIndex)

private theorem heldLease_reports {l : LeaseSummary} (hw : (present raw "current_worker_instance_id").isSome = true)
    (he : (present raw "lease_expires_at").isSome = true) (h : heldLease lib raw wid expiresAt = .ok l) :
    ReportsLease lib raw (some l) := by
  simp only [heldLease,bind_ok,pure_ok,parseU64Strict,parseU32Strict,numberRequired_ok,required_ok,blame_ok] at h
  obtain ⟨epoch,hepoch,v,hv,id,hid,index,hindex,beat,-,rfl⟩ := h
  constructor
  · simp [hw,he]
  · rintro _ ⟨⟩
    exact ⟨v,hv,hid⟩
  · rintro _ ⟨⟩
    exact hepoch.1
  · rintro _ ⟨⟩
    exact hindex.1

theorem reportsLease_none (h : ¬ ((present raw "current_worker_instance_id").isSome = true ∧
    (present raw "lease_expires_at").isSome = true)) : ReportsLease lib raw none where
  reported := by simpa using h
  leaseId := by simp
  epoch := by simp
  attemptIndex := by simp

theorem buildLeaseSummary_isOk : (∃ o, buildLeaseSummary lib raw = .ok o) ↔
      ((present raw "current_worker_instance_id").isSome = true → ∀ v, present raw "lease_expires_at" = some v →
        v.inRange (-2 ^ 63) (2 ^ 63) ∧ LeaseFieldsDecode lib raw) := by
  unfold buildLeaseSummary
  cases present raw "current_worker_instance_id" with
  | none => simp
  | some wid =>
    simp only [bind_ok,Option.isSome_some,forall_const]
    constructor
    · rintro ⟨o,expiry,hp,h⟩ v hv
      cases expiry with
      | none =>
        rw [parseStrict_none.mp hp] at hv
        cases hv
      | some n =>
        obtain ⟨hn,hb⟩ := parseStrict_some.mp hp
        rw [hn] at hv
        cases hv
        simp only [bind_ok,pure_ok] at h
        obtain ⟨l,hl,-⟩ := h
        exact ⟨⟨n,rfl,hb⟩,heldLease_isOk.mp ⟨l,hl⟩⟩
    · intro h
      cases hv : present raw "lease_expires_at" with
      | none => exact ⟨none,none,parseStrict_none.mpr hv,rfl⟩
      | some v =>
        obtain ⟨⟨n,rfl,hb⟩,decodes⟩ := h v hv
        obtain ⟨l,hl⟩ : ∃ l, heldLease lib raw wid n = .ok l := heldLease_isOk.mpr decodes
        refine ⟨some l,some n,parseStrict_some.mpr ⟨hv,hb⟩,?_⟩
        simp [hl]

theorem buildExecutionSnapshot_reports {snap : ExecutionSnapshot}
    (h : buildExecutionSnapshot lib executionId raw = .ok snap) : ReportsLease lib raw snap.currentLease := by
  simp only [buildExecutionSnapshot,bind_ok,pure_ok] at h
  obtain ⟨_,-,_,-,_,-,_,-,_,-,_,-,_,-,lease,hl,_,-,rfl⟩ := h
  unfold buildLeaseSummary at hl
  cases hw : present raw "current_worker_instance_id" with
  | none =>
    rw [hw] at hl
    cases hl
    exact reportsLease_none (by simp [hw])
  | some =>
    simp only [hw,bind_ok] at hl
    obtain ⟨expiry,hp,hl⟩ := hl
    cases expiry with
    | none =>
      cases hl
      exact reportsLease_none (by simp [parseStrict_none.mp hp])
    | some =>
      simp only [bind_ok,pure_ok] at hl
      obtain ⟨l,hl,rfl⟩ := hl
      refine heldLease_reports ?_ ?_ hl
      · rw [hw]
        rfl
      · rw [(parseStrict_some.mp hp).1]
        rfl

structure PlainFieldsDecode (lib : Libraries) (raw : Fields) : Prop where
  publicState : ∃ p, parsePublicState lib (optStr raw "public_state") = .ok p
  laneId : ∃ lane, LaneId.tryNew (optStr raw "lane_id") = .ok lane
  flowId : ∀ v, present raw "flow_id" = some v → ∃ id, lib.uuid v.render = .ok id
  createdAt : ∃ n : Int, present raw "created_at" = some (.number n) ∧ -2 ^ 63 ≤ n ∧ n < 2 ^ 63
  lastMutationAt : ∃ n : Int, present raw "last_mutation_at" = some (.number n) ∧ -2 ^ 63 ≤ n ∧ n < 2 ^ 63
  totalAttemptCount : ∀ v, present raw "total_attempt_count" = some v → v.inRange 0 (2 ^ 32)
  attempt : ∀ v, present raw "current_attempt_id" = some v → (∃ id, lib.uuid v.render = .ok id) ∧
    ∃ n : Int, present raw "current_attempt_index" = some (.number n) ∧ 0 ≤ n ∧ n < 2 ^ 32
  waitpointId : ∀ v, present raw "current_waitpoint_id" = some v → ∃ id, lib.uuid v.render = .ok id

theorem buildExecutionSnapshot_isOk : (∃ snap, buildExecutionSnapshot lib executionId raw = .ok snap) ↔
      PlainFieldsDecode lib raw ∧ ((present raw "current_worker_instance_id").isSome = true →
        ∀ v, present raw "lease_expires_at" = some v → v.inRange (-2 ^ 63) (2 ^ 63) ∧ LeaseFieldsDecode lib raw) := by
  have count : (∃ o, parseU32Strict describeExecution raw "total_attempt_count" = .ok o) ↔
      ∀ v, present raw "total_attempt_count" = some v → v.inRange 0 (2 ^ 32) := parseStrict_isOk
  simp only [buildExecutionSnapshot,bind_ok,pure_ok,blame_ok,parseTs,numberRequired_ok]
  constructor
  · rintro ⟨_,p,hp,lane,hlane,flow,hflow,c,hc,m,hm,total,ht,attempt,ha,lease,hl,wait,hw,-⟩
    exact ⟨⟨⟨p,hp⟩,⟨lane,hlane⟩,parseId_isOk.mp ⟨flow,hflow⟩,⟨c,hc⟩,⟨m,hm⟩,count.mp ⟨total,ht⟩,
      buildAttemptSummary_isOk.mp ⟨attempt,ha⟩,parseId_isOk.mp ⟨wait,hw⟩⟩,buildLeaseSummary_isOk.mp ⟨lease,hl⟩⟩
  · rintro ⟨⟨⟨p,hp⟩,⟨lane,hlane⟩,flows,⟨c,hc⟩,⟨m,hm⟩,totals,attempts,waits⟩,leases⟩
    obtain ⟨flow,hflow⟩ := parseId_isOk.mpr flows
    obtain ⟨total,ht⟩ := count.mpr totals
    obtain ⟨attempt,ha⟩ := buildAttemptSummary_isOk.mpr attempts
    obtain ⟨lease,hl⟩ := buildLeaseSummary_isOk.mpr leases
    obtain ⟨wait,hw⟩ := parseId_isOk.mpr waits
    exact ⟨_,p,hp,lane,hlane,flow,hflow,c,hc,m,hm,total,ht,attempt,ha,lease,hl,wait,hw,rfl⟩

end

end FlowFabric
