import FlowFabric.ExecSnapshot
import FlowFabric.Postgres.Literals

/-! The readers of an execution. The state columns hold more literals than the public enums, so two of the
readers normalise them first. describe_execution does not. -/
namespace FlowFabric.Postgres
open Foundation FieldValue Option Hash AttemptRow

/-! ### Literals -/

def normaliseLifecyclePhase : Phase → Option LifecyclePhase
  | .cancelled | .terminal => some .terminal
  | .pending | .runnable | .eligible | .blocked => some .runnable
  | .active => some .active
  | .suspended => some .suspended
  | .submitted => some .submitted
  | .completed | .failed | .expired => none

def normaliseOwnershipState : Ownership → OwnershipState
  | .released | .unowned => .unowned
  | .leased => .leased
  | .leaseExpiredReclaimable => .leaseExpiredReclaimable
  | .leaseRevoked => .leaseRevoked

def normaliseEligibilityState : Eligibility → EligibilityState
  | .cancelled | .notApplicable => .notApplicable
  | .pendingClaim | .eligibleNow => .eligibleNow
  | .notEligibleUntilTime => .notEligibleUntilTime
  | .blockedByDependencies => .blockedByDependencies

def normaliseAttemptState : Attempt → Option AttemptState
  | .pending | .pendingFirstAttempt => some .pendingFirstAttempt
  | .runningAttempt => some .runningAttempt
  | .attemptInterrupted => some .attemptInterrupted
  | .pendingRetryAttempt => some .pendingRetryAttempt
  | .pendingReplayAttempt => some .pendingReplayAttempt
  | .cancelled | .attemptTerminal => some .attemptTerminal
  | .initial | .terminalFailed => none

def normalisePublicState : Public → PublicState
  | .running | .active => .active
  | .waiting => .waiting
  | .delayed => .delayed
  | .waitingChildren => .waitingChildren
  | .suspended => .suspended
  | .resumable => .resumable
  | .completed => .completed
  | .failed => .failed
  | .cancelled => .cancelled
  | .skipped => .skipped

/-- A literal that is none of the enum. -/
def jsonEnum {α : Type} (lib : Libraries) (field raw : String) (parsed : Option α) : Except EngineError α :=
  demand parsed (.corruption
    ("exec_core: " ++ field ++ ": '" ++ raw ++ "' is not a known value: " ++ lib.serdeError raw))

/-- An end without an outcome on the current attempt has none. -/
def deriveTerminalOutcome (phase : Phase) (outcome : Option Outcome) : TerminalOutcome :=
  match phase, outcome with
  | .cancelled, _ => .cancelled
  | .terminal, some .success => .success
  | .terminal, some .failed => .failed
  | .terminal, some .cancelled => .cancelled
  | .terminal, some .expired => .expired
  | .terminal, some .skipped => .skipped
  | _, _ => .none

/-! ### Readers -/

def readExecutionState (r : Rows) : Except EngineError PublicState := .ok (normalisePublicState r.core.publicState)

structure ExecutionInfo where
  (namespaceName laneId : String)
  priority : Int
  stateVector : StateVector
  publicState : PublicState
  createdAt : Int
  (startedAt completedAt : Option Int)
  currentAttemptIndex : Nat
  flowId : Option Uuid

def readExecutionInfo (lib : Libraries) (r : Rows) : Except EngineError ExecutionInfo := do
  let c := r.core
  let lifecyclePhase ← jsonEnum lib "lifecycle_phase" c.lifecyclePhase.text (normaliseLifecyclePhase c.lifecyclePhase)
  let attemptState ← jsonEnum lib "attempt_state" c.attemptState.text (normaliseAttemptState c.attemptState)
  let stateVector : StateVector :=
    { lifecyclePhase := lifecyclePhase
      ownershipState := normaliseOwnershipState c.ownershipState
      eligibilityState := normaliseEligibilityState c.eligibilityState, blockingReason := c.blockingReason.getD .none
      terminalOutcome := deriveTerminalOutcome c.lifecyclePhase (r.current.bind outcome), attemptState := attemptState
      publicState := normalisePublicState c.publicState }
  return {
    namespaceName := c.rawFields.fieldNamespace.getD "", laneId := c.laneId, priority := c.priority
    stateVector := stateVector, publicState := normalisePublicState c.publicState, createdAt := c.createdAtMs
    startedAt := c.startedAtMs, completedAt := c.terminalAtMs, currentAttemptIndex := c.attemptIndex
    flowId := c.flowId }

/-- The flow id is put together with the partition, as if it were an execution id. -/
def flowText (part : Nat) (flowId : Uuid) : String := "\x7bfp:" ++ (toString part ++ "\x7d:" ++ toString flowId)

/-- The columns and the raw fields that the decoder is given, where they are set. -/
def snapshotColumns (part : Nat) (c : CoreRow) : List (String × Option FieldValue) :=
  [("public_state",some (.text c.publicState.text)),("lane_id",some (.text c.laneId)),
    ("flow_id",c.flowId.map fun f => .text (flowText part f)),
    ("blocking_reason",c.blockingReason.map fun b => .text b.text),("created_at",some (.number c.createdAtMs)),
    ("namespace",c.rawFields.fieldNamespace.map .text),("last_mutation_at",c.rawFields.lastMutationAt.map .number),
    ("total_attempt_count",c.rawFields.totalAttemptCount.map fun n => .number n),
    ("current_attempt_id",c.rawFields.currentAttemptId.map .text),
    ("current_attempt_index",c.rawFields.currentAttemptIndex.map fun n => .number n)]

def putColumns (columns : List (String × Option FieldValue)) (raw : Fields) : Fields :=
  columns.foldl (fun raw column => Hash.put column.1 column.2 raw) raw

def snapshotFields (part : Nat) (c : CoreRow) : Fields := putColumns (snapshotColumns part c) ∅

/-- The decoder is the one of the other backends. -/
def describeExecution (lib : Libraries) (part : Nat) (executionId : String) (r : Rows) :
    Except EngineError ExecutionSnapshot :=
  match buildExecutionSnapshot lib executionId (snapshotFields part r.core) with
  | .ok snap => .ok snap
  | .error e => .error (.corruption e.detail)

/-! ### Which rows describe_execution accepts -/

variable {columns : List (String × Option FieldValue)} {k : String}

theorem lookup_putColumns_of_not_mem
    (h : k ∉ columns.map Prod.fst) (raw : Fields) : (putColumns columns raw).lookup k = raw.lookup k := by
  induction columns generalizing raw with
  | nil => rfl
  | cons column columns ih =>
    rw [List.map_cons,List.mem_cons,not_or] at h
    refine (ih h.2 (put column.1 column.2 raw)).trans ?_
    rw [lookup_put,if_neg h.1]

theorem lookup_putColumns (hd : (columns.map Prod.fst).Nodup) {v : Option FieldValue} (h : (k,v) ∈ columns) :
    (putColumns columns ∅).lookup k = v := by
  have general (raw : Fields) (hk : raw.lookup k = none) : (putColumns columns raw).lookup k = v := by
    induction columns generalizing raw with
    | nil => cases h
    | cons column columns ih =>
      rw [List.map_cons,List.nodup_cons] at hd
      change (putColumns columns (put column.1 column.2 raw)).lookup k = v
      rcases List.mem_cons.mp h with rfl | h
      · rw [lookup_putColumns_of_not_mem hd.1,lookup_put,if_pos rfl,hk,or_none]
      · refine ih hd.2 h _ ?_
        have hne : k ≠ column.1 := by
          rintro rfl
          exact hd.1 (List.mem_map.mpr ⟨_,h,rfl⟩)
        rw [lookup_put,if_neg hne,hk]
  exact general ∅ rfl

section
variable {lib : Libraries} {part : Nat} {c : CoreRow}

def snapshotNames : List String :=
  ["public_state","lane_id","flow_id","blocking_reason","created_at","namespace","last_mutation_at",
    "total_attempt_count","current_attempt_id","current_attempt_index"]

theorem snapshotColumns_nodup (part : Nat) (c : CoreRow) : ((snapshotColumns part c).map Prod.fst).Nodup := by
  change snapshotNames.Nodup
  decide

variable {v : Option FieldValue} {executionId : String} {r : Rows}

theorem present_column (h : (k,v) ∈ snapshotColumns part c) :
    present (snapshotFields part c) k = v.filter fun v => !v.isEmpty := by
  rw [present,snapshotFields,lookup_putColumns (snapshotColumns_nodup part c) h]

theorem optStr_column (h : (k,v) ∈ snapshotColumns part c) :
    optStr (snapshotFields part c) k = (v.map FieldValue.render).getD "" := by
  rw [optStr,snapshotFields,lookup_putColumns (snapshotColumns_nodup part c) h]

theorem present_missing (h : k ∉ snapshotNames) : present (snapshotFields part c) k = none := by
  rw [present,snapshotFields,lookup_putColumns_of_not_mem h]
  rfl

/-- What describe_execution needs of the row. The times are bigints, so that they are in range. -/
structure CoreRow.Describable (lib : Libraries) (c : CoreRow) : Prop where
  publicState : c.publicState ≠ .running
  laneId : ∃ lane, LaneId.tryNew c.laneId = .ok lane
  flowId : c.flowId = none
  createdAt : -2 ^ 63 ≤ c.createdAtMs ∧ c.createdAtMs < 2 ^ 63
  lastMutationAt : ∃ n, c.rawFields.lastMutationAt = some n ∧ -2 ^ 63 ≤ n ∧ n < 2 ^ 63
  totalAttemptCount : ∀ n, c.rawFields.totalAttemptCount = some n → n < 2 ^ 32
  attempt : ∀ id, c.rawFields.currentAttemptId = some id → id ≠ "" → (∃ u, lib.uuid id = .ok u) ∧
    ∃ n, c.rawFields.currentAttemptIndex = some n ∧ n < 2 ^ 32

theorem parsePublicState_isOk (p : Public) : (∃ q, parsePublicState lib p.text = .ok q) ↔ p ≠ .running := by
  cases p with
  | running =>
    refine iff_of_false ?_ (fun h => h rfl)
    rintro ⟨q,hq⟩
    cases hq
  | _ => exact iff_of_true ⟨_,rfl⟩ (by decide)

private theorem describe_public {p : Public} (h : p ≠ .running) :
    parsePublicState lib p.text = .ok (normalisePublicState p) := by
  cases p with
  | running => exact absurd rfl h
  | _ => rfl

private theorem flowText_ne_empty (part : Nat) (flowId : Uuid) : flowText part flowId ≠ "" := by
  intro h
  have hl := congrArg String.length h
  rw [flowText,String.length_append] at hl
  exact absurd hl (by rw [show "\x7bfp:".length = 4 from rfl,show "".length = 0 from rfl]; omega)

theorem flow_iff (htag : ∀ rest id, lib.uuid ("\x7bfp:" ++ rest) ≠ .ok id) :
    (∀ v, present (snapshotFields part c) "flow_id" = some v → ∃ id, lib.uuid v.render = .ok id) ↔ c.flowId = none := by
  rw [present_column (v := c.flowId.map fun f => .text (flowText part f)) (by simp [snapshotColumns])]
  cases c.flowId with
  | none => exact iff_of_true (fun v hv => by cases hv) rfl
  | some f =>
    refine iff_of_false (fun h => ?_) (by simp)
    obtain ⟨id,hid⟩ := h (.text (flowText part f)) (by simp [isEmpty,flowText_ne_empty])
    exact htag _ _ hid

theorem mutation_iff :
    (∃ n : Int, present (snapshotFields part c) "last_mutation_at" = some (.number n) ∧ -2 ^ 63 ≤ n ∧ n < 2 ^ 63) ↔
      ∃ n, c.rawFields.lastMutationAt = some n ∧ -2 ^ 63 ≤ n ∧ n < 2 ^ 63 := by
  rw [present_column (v := c.rawFields.lastMutationAt.map .number) (by simp [snapshotColumns])]
  cases c.rawFields.lastMutationAt with
  | none => simp
  | some => simp [isEmpty]

theorem count_iff : (∀ v, present (snapshotFields part c) "total_attempt_count" = some v → v.inRange 0 (2 ^ 32)) ↔
      ∀ n, c.rawFields.totalAttemptCount = some n → n < 2 ^ 32 := by
  rw [present_column (v := c.rawFields.totalAttemptCount.map fun n => .number n) (by simp [snapshotColumns])]
  cases c.rawFields.totalAttemptCount with
  | none => simp
  | some m =>
    change (∀ v, some (number m) = some v → _) ↔ _
    simp only [Option.some.injEq,forall_eq',inRange_number]
    omega

theorem attempt_iff :
    (∀ v, present (snapshotFields part c) "current_attempt_id" = some v → (∃ id, lib.uuid v.render = .ok id) ∧
      ∃ n : Int, present (snapshotFields part c) "current_attempt_index" = some (.number n) ∧ 0 ≤ n ∧ n < 2 ^ 32) ↔
      ∀ id, c.rawFields.currentAttemptId = some id → id ≠ "" → (∃ u, lib.uuid id = .ok u) ∧
        ∃ n, c.rawFields.currentAttemptIndex = some n ∧ n < 2 ^ 32 := by
  have index : (∃ n : Int, present (snapshotFields part c) "current_attempt_index" = some (.number n) ∧
      0 ≤ n ∧ n < 2 ^ 32) ↔ ∃ n, c.rawFields.currentAttemptIndex = some n ∧ n < 2 ^ 32 := by
    rw [present_column (v := c.rawFields.currentAttemptIndex.map fun n => .number n) (by simp [snapshotColumns])]
    cases c.rawFields.currentAttemptIndex with
    | none => simp
    | some m =>
      change (∃ n : Int, some (number m) = some (.number n) ∧ _) ↔ _
      simp only [Option.some.injEq,number.injEq,exists_eq_left']
      omega
  rw [index,present_column (v := c.rawFields.currentAttemptId.map .text) (by simp [snapshotColumns])]
  cases c.rawFields.currentAttemptId with
  | none => simp
  | some id =>
    by_cases hid : id = ""
    · simp [isEmpty,hid]
    · simp [isEmpty,hid,render]

private theorem plainFields_iff (htag : ∀ rest id, lib.uuid ("\x7bfp:" ++ rest) ≠ .ok id) :
    PlainFieldsDecode lib (snapshotFields part c) ↔ c.Describable lib := by
  have publicState : optStr (snapshotFields part c) "public_state" = c.publicState.text :=
    optStr_column (v := some (.text c.publicState.text)) (by simp [snapshotColumns])
  have laneId : optStr (snapshotFields part c) "lane_id" = c.laneId :=
    optStr_column (v := some (.text c.laneId)) (by simp [snapshotColumns])
  have created : present (snapshotFields part c) "created_at" = some (.number c.createdAtMs) :=
    present_column (v := some (.number c.createdAtMs)) (by simp [snapshotColumns])
  constructor
  · rintro ⟨hp,hl,hf,⟨n,hn,hc⟩,hm,ht,ha,-⟩
    rw [publicState,parsePublicState_isOk] at hp
    rw [laneId] at hl
    cases created.symm.trans hn
    exact ⟨hp,hl,(flow_iff htag).mp hf,hc,mutation_iff.mp hm,count_iff.mp ht,attempt_iff.mp ha⟩
  · rintro ⟨hp,hl,hf,hc,hm,ht,ha⟩
    rw [← parsePublicState_isOk,← publicState] at hp
    rw [← laneId] at hl
    refine ⟨hp,hl,(flow_iff htag).mpr hf,⟨_,created,hc⟩,mutation_iff.mpr hm,count_iff.mpr ht,attempt_iff.mpr ha,?_⟩
    intro v hv
    rw [present_missing (by decide)] at hv
    cases hv

theorem describeExecution_isOk (htag : ∀ rest id, lib.uuid ("\x7bfp:" ++ rest) ≠ .ok id) :
    (∃ snap, describeExecution lib part executionId r = .ok snap) ↔ r.core.Describable lib := by
  have built : (∃ snap, describeExecution lib part executionId r = .ok snap) ↔
      ∃ snap, buildExecutionSnapshot lib executionId (snapshotFields part r.core) = .ok snap := by
    unfold describeExecution
    cases buildExecutionSnapshot lib executionId (snapshotFields part r.core) with
    | ok snap => exact iff_of_true ⟨snap,rfl⟩ ⟨snap,rfl⟩
    | error => exact iff_of_false (fun ⟨_,h⟩ => by cases h) (fun ⟨_,h⟩ => by cases h)
  rw [built,buildExecutionSnapshot_isOk,plainFields_iff htag]
  refine and_iff_left ?_
  intro hw
  rw [present_missing (by decide)] at hw
  cases hw

private theorem describeExecution_public {snap : ExecutionSnapshot}
    (h : describeExecution lib part executionId r = .ok snap) :
    snap.publicState = normalisePublicState r.core.publicState := by
  unfold describeExecution at h
  split at h
  · rename_i built hb
    cases h
    simp only [buildExecutionSnapshot,bind_ok,pure_ok] at hb
    obtain ⟨p,hp,_,-,_,-,_,-,_,-,_,-,_,-,_,-,_,-,rfl⟩ := hb
    rw [optStr_column (v := some (.text r.core.publicState.text)) (by simp [snapshotColumns])] at hp
    have hne := (parsePublicState_isOk r.core.publicState).mp ⟨p,hp⟩
    exact Except.ok.inj (hp.symm.trans (describe_public hne))
  · cases h

end

/-! ### Which rows read back -/

/-- All three readers accept the row and agree on its public state, and the state vector is consistent. -/
def ReadsBack (lib : Libraries) (part : Nat) (executionId : String) (r : Rows) : Prop :=
  ∃ snap p info, describeExecution lib part executionId r = .ok snap ∧ readExecutionState r = .ok p ∧
    readExecutionInfo lib r = .ok info ∧ snap.publicState = p ∧ info.publicState = p ∧
    info.stateVector.isConsistent = true

/-- The public state of a row whose state vector is consistent. There is none for an execution that has
expired. -/
def Rows.expectedPublic (r : Rows) : Option Public :=
  match r.core.lifecyclePhase with
  | .submitted => some .waiting
  | .active => some .active
  | .suspended => some .suspended
  | .cancelled => some .cancelled
  | .terminal =>
    match r.current.bind outcome with
    | some .success => some .completed
    | some .cancelled => some .cancelled
    | some .skipped => some .skipped
    | some .expired => none
    | _ => some .failed
  | _ =>
    match r.core.eligibilityState with
    | .notEligibleUntilTime => some .delayed
    | .blockedByDependencies => some .waitingChildren
    | _ => some .waiting

structure Legible (lib : Libraries) (r : Rows) : Prop where
  describable : r.core.Describable lib
  attemptState : r.core.attemptState ≠ .initial ∧ r.core.attemptState ≠ .terminalFailed
  publicState : r.expectedPublic = some r.core.publicState

private theorem normaliseAttemptState_isSome (a : Attempt) :
    (∃ s, normaliseAttemptState a = some s) ↔ a ≠ .initial ∧ a ≠ .terminalFailed := by
  cases a <;> simp [normaliseAttemptState]

section
variable {lib : Libraries} {r : Rows}

variable {info : ExecutionInfo}

theorem readExecutionInfo_ok (h : readExecutionInfo lib r = .ok info) :
    (∃ phase, normaliseLifecyclePhase r.core.lifecyclePhase = some phase ∧
      info.stateVector.derivePublicState = derivePublicState phase (normaliseEligibilityState r.core.eligibilityState)
        (deriveTerminalOutcome r.core.lifecyclePhase (r.current.bind outcome))) ∧
    (∃ s, normaliseAttemptState r.core.attemptState = some s) ∧
    info.publicState = normalisePublicState r.core.publicState ∧
    info.stateVector.publicState = normalisePublicState r.core.publicState := by
  simp only [readExecutionInfo,jsonEnum,bind_ok,demand_ok,pure_ok] at h
  obtain ⟨phase,hp,s,hs,rfl⟩ := h
  exact ⟨⟨phase,hp,rfl⟩,⟨s,hs⟩,rfl,rfl⟩

private theorem normalisePublicState_inj {p q : Public} (hp : p ≠ .running) (hq : q ≠ .running)
    (h : normalisePublicState p = normalisePublicState q) : p = q := by
  cases p <;> first | exact absurd rfl hp | (cases q <;> first | rfl | exact absurd rfl hq | cases h)

private theorem expectedPublic_ne_running : r.expectedPublic ≠ some .running := by
  unfold Rows.expectedPublic
  split <;> (try split) <;> exact fun h => by cases h

private theorem derive_eq {phase : LifecyclePhase} (hw : r.Written)
    (hp : normaliseLifecyclePhase r.core.lifecyclePhase = some phase) :
    derivePublicState phase (normaliseEligibilityState r.core.eligibilityState)
      (deriveTerminalOutcome r.core.lifecyclePhase (r.current.bind outcome)) =
      (r.expectedPublic.map normalisePublicState).getD .expired := by
  rw [Rows.Written] at hw
  unfold Rows.expectedPublic
  generalize r.core.lifecyclePhase = p at hw hp
  generalize r.core.eligibilityState = eligibility
  generalize r.current.bind outcome = outcome
  cases p with
  | submitted | active | suspended | cancelled =>
    cases hp
    rfl
  | terminal =>
    cases hp
    cases outcome with
    | none => rfl
    | some o => cases o <;> rfl
  | runnable =>
    cases hp
    cases eligibility <;> rfl
  | pending | blocked | eligible | completed | failed | expired => cases hw

theorem isConsistent_iff (hw : r.Written) (hn : r.core.publicState ≠ .running)
    (h : readExecutionInfo lib r = .ok info) :
    info.stateVector.isConsistent = true ↔ r.expectedPublic = some r.core.publicState := by
  obtain ⟨⟨phase,hp,hd⟩,-,-,hpub⟩ := readExecutionInfo_ok h
  rw [StateVector.isConsistent,beq_iff_eq,hpub,hd,derive_eq hw hp]
  cases hx : r.expectedPublic with
  | none => exact iff_of_false (by cases r.core.publicState <;> exact PublicState.noConfusion) (by simp)
  | some q =>
    have hq : q ≠ .running := by
      rintro rfl
      exact expectedPublic_ne_running hx
    rw [map_some,getD_some,Option.some.injEq]
    constructor
    · exact fun he => (normalisePublicState_inj hn hq he).symm
    · rintro rfl
      rfl

theorem readExecutionInfo_isOk (hw : r.Written) : (∃ info, readExecutionInfo lib r = .ok info) ↔
      r.core.attemptState ≠ .initial ∧ r.core.attemptState ≠ .terminalFailed := by
  rw [← normaliseAttemptState_isSome]
  constructor
  · rintro ⟨info,h⟩
    exact (readExecutionInfo_ok h).2.1
  · rintro ⟨s,hs⟩
    have known : ∃ phase, normaliseLifecyclePhase r.core.lifecyclePhase = some phase := by
      rw [Rows.Written] at hw
      generalize r.core.lifecyclePhase = p at hw
      cases p <;> first | exact ⟨_,rfl⟩ | cases hw
    obtain ⟨phase,hp⟩ := known
    simp only [readExecutionInfo,jsonEnum,bind_ok,demand_ok,pure_ok]
    exact ⟨_,phase,hp,s,hs,rfl⟩

private theorem readsBack_iff (htag : ∀ rest id, lib.uuid ("\x7bfp:" ++ rest) ≠ .ok id) (hw : r.Written) (part : Nat)
    (executionId : String) : ReadsBack lib part executionId r ↔ Legible lib r := by
  constructor
  · rintro ⟨snap,p,info,hd,-,hi,-,-,hc⟩
    have describable := (describeExecution_isOk htag).mp ⟨snap,hd⟩
    exact ⟨describable,(readExecutionInfo_isOk hw).mp ⟨info,hi⟩,(isConsistent_iff hw describable.publicState hi).mp hc⟩
  · rintro ⟨hd,ha,hp⟩
    obtain ⟨snap,hsnap⟩ : ∃ snap, describeExecution lib part executionId r = .ok snap :=
      (describeExecution_isOk htag).mpr hd
    obtain ⟨info,hinfo⟩ : ∃ info, readExecutionInfo lib r = .ok info := (readExecutionInfo_isOk hw).mpr ha
    exact ⟨snap,_,info,hsnap,rfl,hinfo,describeExecution_public hsnap,(readExecutionInfo_ok hinfo).2.2.1,
      (isConsistent_iff hw hd.publicState hinfo).mpr hp⟩

end

/-- Of the executions that the backend can reach exactly those read back that are legible. -/
theorem reachable_readsBack_iff {lib : Libraries} (htag : ∀ rest id, lib.uuid ("\x7bfp:" ++ rest) ≠ .ok id) {db : Db}
    (h : ∀ e r, db.rowsOf e = some r → r.Written) (qs : List Arrival) {e : Uuid} {r : Rows}
    (hr : (runFrom after db qs).rowsOf e = some r) (part : Nat) (executionId : String) :
    ReadsBack lib part executionId r ↔ Legible lib r :=
  readsBack_iff htag (runFrom_written h qs e r hr) part executionId

namespace Client

/-- Libraries that take no id at all. -/
def strict : Libraries where
  uuid := fun _ => .error "invalid"
  serdeError := fun raw => "unknown variant " ++ raw
  uuid_empty := fun _ => by simp

def created : Rows := { core := .created {} 5 }

private theorem created_describable : created.core.Describable strict where
  publicState := by decide
  laneId := ⟨"default",by decide⟩
  flowId := rfl
  createdAt := by decide
  lastMutationAt := ⟨5,rfl,by decide⟩
  totalAttemptCount := by
    intro n hn
    cases hn
    decide
  attempt := by
    intro id hid
    cases hid

theorem created_readsBack : ReadsBack strict 0 "e1" created := by
  have none_yet : ∀ e r, ({} : Db).rowsOf e = some r → r.Written := forall_rowsOf (by decide)
  have there : (runFrom after {} [⟨.createExecution 1 {},5⟩]).rowsOf 1 = some created := rfl
  refine (reachable_readsBack_iff (by simp [strict]) none_yet _ there 0 "e1").mpr ?_
  exact ⟨created_describable,by decide,rfl⟩

/-- The execution once it can be claimed. -/
def ready : Rows := { core := { created.core with lifecyclePhase := .runnable } }

/-- After a claim the execution cannot be described, and its completion does not show. -/
theorem claimed_unreadable :
    let held := next (claims alice 6) ready
    let done := next (does 0 1 (.complete none) 7) held
    describeExecution strict 0 "e1" held = .error (.corruption
      ("describe_execution: exec_core: public_state: 'running' is not a known public state: " ++
        strict.serdeError "running")) ∧
      (readExecutionInfo strict done).map (fun info => (info.publicState,info.stateVector.derivePublicState)) =
        .ok (.active,.completed) :=
  ⟨rfl,rfl⟩

end Client
end FlowFabric.Postgres
