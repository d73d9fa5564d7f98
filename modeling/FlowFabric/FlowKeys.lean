import FlowFabric.Foundation.Field
import FlowFabric.FlowGraph

/-! The keys of a flow as the scripts write them, down to the fields of flow_core:
ff_create_flow, ff_add_execution_to_flow, ff_stage_dependency_edge, ff_cancel_flow,
ff_ack_cancel_member and ff_set_flow_tags. -/
namespace FlowFabric
open Foundation Hash

/-- The clock of the server in milliseconds, which a double holds. -/
structure ServerTime where
  ms : Nat
  small : ms < 2 ^ 53

structure TimestampMs where
  ms : Int
  lower : -2 ^ 63 ≤ ms
  upper : ms < 2 ^ 63

def PublicFlowState.text : PublicFlowState → String
  | .opened => "open"
  | .cancelled => "cancelled"
  | .completed => "completed"
  | .failed => "failed"

/-- The keys of one flow, with its entries in the cancel backlog and in the flow index of the
partition. -/
structure FlowKeys where
  (core tags : Fields := ∅)
  members : Finset ExecutionId := ∅
  edge : String → Option FlowEdge := fun _ => none
  outgoing : ExecutionId → List String := fun _ => []
  incoming : ExecutionId → List String := fun _ => []
  pendingCancels : Finset ExecutionId := ∅
  cancelBacklog : Option Nat := none
  flowIndex : Bool := false

open FlowKeys

/-- What a flow script returns. The members that a cancel returns come in no order. -/
inductive FlowReply where
  | tuple (reply : Reply)
  | cancelled (cancellationPolicy : String) (members : Finset ExecutionId)
  deriving DecidableEq

abbrev FlowReply.fail (code : ErrorCode) : FlowReply := .tuple (.fail code)

abbrev FlowKeysOutcome := Except FlowReply (FlowReply × FlowKeys)

namespace FlowKeys

variable (k : FlowKeys)

def hasCore : Bool := !k.core.entries.isEmpty

theorem hasCore_of_lookup {k : FlowKeys} {field : String} {v : FieldValue}
    (h : k.core.lookup field = some v) : k.hasCore = true := by
  unfold hasCore
  cases he : k.core.entries with
  | nil =>
    rw [AList.lookup,he] at h
    cases h
  | cons => rfl

def publicFlowState : FieldValue := (k.core.lookup "public_flow_state").getD (.text "")

def isTerminal : Bool :=
  decide (k.publicFlowState = .text "cancelled" ∨ k.publicFlowState = .text "completed" ∨
    k.publicFlowState = .text "failed")

/-- The edges and the members, without the counters. -/
def graph : FlowStore :=
  { members := k.members, edge := k.edge, outgoing := k.outgoing, incoming := k.incoming }

structure CreateArgs where
  (flowId flowKind namespaceName : String)

def newCore (a : CreateArgs) (now : ServerTime) : List (String × FieldValue) :=
  [("flow_id",.text a.flowId),("flow_kind",.text a.flowKind),("namespace",.text a.namespaceName),
    ("graph_revision",.number 0),("node_count",.number 0),("edge_count",.number 0),
    ("public_flow_state",.text "open"),("created_at",.number now.ms),("last_mutation_at",.number now.ms)]

def create (a : CreateArgs) (now : ServerTime) (k : FlowKeys) : FlowKeys :=
  { k with core := hset (newCore a now) k.core }

def list : FlowKeys := { k with flowIndex := true }

/-- The index is written before the guard. -/
def createFlow (a : CreateArgs) (now : ServerTime) (k : FlowKeys) : FlowKeysOutcome :=
  if k.hasCore then .ok (.tuple (.alreadySatisfied [a.flowId]),k.list)
  else .ok (.tuple (.ok [a.flowId]),k.list.create a now)

/-- Increment a counter of the flow by one. A text that is not an integer, or one at the end of
64 bits, makes the command fail. -/
def increment (field : String) (core : Fields) : Option (Int × Fields) :=
  match (core.lookup field).getD (.number 0) with
  | .number n => if n + 1 < 2 ^ 63 then some (n + 1,core.insert field (.number (n + 1))) else none
  | .text _ | .scientific _ => none

/-- What a script writes into flow_core at its end: two counters and the time. A command that
fails stops it where it is. -/
def countMutation (first second : String) (time : FieldValue) (core : Fields) : Option (Int × Int) × Fields :=
  match increment first core with
  | none => (none,core)
  | some (n,core) =>
    match increment second core with
    | none => (none,core)
    | some (m,core) => (some (n,m),core.insert "last_mutation_at" time)

def countMember (now : ServerTime) : Option (Int × Int) × Fields :=
  countMutation "node_count" "graph_revision" (.number now.ms) k.core

def addMember (eid : ExecutionId) (now : ServerTime) (k : FlowKeys) : FlowKeys :=
  { k with members := insert eid k.members, core := (k.countMember now).2 }

def addExecutionToFlow (a : FlowStore.MemberArgs) (now : ServerTime) (k : FlowKeys) : FlowKeysOutcome := do
  ensure (k.hasCore = true) (.fail .flowNotFound)
  ensure (k.isTerminal = false) (.fail .flowAlreadyTerminal)
  ensure (a.executionExists = true) (.fail .executionNotFound)
  -- the flow is listed again even if the member is then turned away
  let k := k.list
  if ¬ (a.existingFlowId = "" ∨ a.existingFlowId = a.flowId) then
    return (.tuple (.err .alreadyMemberOfDifferentFlow [a.existingFlowId]),k)
  else if a.executionId ∈ k.members then
    let nc := (k.core.lookup "node_count").getD (.text "0")
    return (.tuple (.alreadySatisfied [a.executionId.text,nc.render]),k)
  else
    match (k.countMember now).1 with
    | none => return (.tuple .raised,k.addMember a.executionId now)
    | some (nc,_) => return (.tuple (.ok [a.executionId.text,toString nc]),k.addMember a.executionId now)

def countEdge (nowMs : TimestampMs) : Option (Int × Int) × Fields :=
  countMutation "graph_revision" "edge_count" (.number nowMs.ms) k.core

def addEdge (a : FlowStore.StageArgs) (nowMs : TimestampMs) (k : FlowKeys) : FlowKeys :=
  { k with
    core := (k.countEdge nowMs).2
    edge := fun e =>
      if e = a.edgeId then
        some ⟨a.upstreamEid,a.downstreamEid,a.dependencyKind,a.dataPassingRef⟩
      else k.edge e
    outgoing := fun eid =>
      if eid = a.upstreamEid then FlowStore.listEdge (k.outgoing eid) a.edgeId else k.outgoing eid
    incoming := fun eid =>
      if eid = a.downstreamEid then FlowStore.listEdge (k.incoming eid) a.edgeId else k.incoming eid }

def stageDependencyEdge (a : FlowStore.StageArgs) (nowMs : TimestampMs) (k : FlowKeys) : FlowKeysOutcome := do
  ensure (a.upstreamEid ≠ a.downstreamEid) (.fail .selfReferencingEdge)
  ensure (k.hasCore = true) (.fail .flowNotFound)
  ensure (k.isTerminal = false) (.fail .flowAlreadyTerminal)
  ensure (((k.core.lookup "graph_revision").getD (.text "0")).render = a.expectedGraphRevision)
    (.fail .staleGraphRevision)
  ensure (a.upstreamEid ∈ k.members) (.fail .executionNotInFlow)
  ensure (a.downstreamEid ∈ k.members) (.fail .executionNotInFlow)
  ensure (k.graph.detectCycle a.downstreamEid a.upstreamEid = false) (.fail .cycleDetected)
  ensure (k.edge a.edgeId).isNone (.fail .dependencyAlreadyExists)
  match (k.countEdge nowMs).1 with
  | none => return (.tuple .raised,k.addEdge a nowMs)
  | some (newRev,_) => return (.tuple (.ok [a.edgeId,toString newRev]),k.addEdge a nowMs)

structure CancelArgs where
  (reason cancellationPolicy : String)
  graceMs : Option Argument := none

/-- The grace period. An argument that is no integer, negative or beyond 2^53 - 1 is refused. -/
def graceMs : Option Argument → Except FlowReply Nat
  | none | some (.text "") => .ok 30000
  | some (.text _) => .error (.fail .invalidGraceMs)
  | some (.number g) => if 0 ≤ g ∧ g < 2 ^ 53 then .ok g.toNat else .error (.fail .invalidGraceMs)

variable (a : CancelArgs)

def cancelFields (now : ServerTime) : List (String × FieldValue) :=
  [("public_flow_state",.text "cancelled"),("cancelled_at",.number now.ms),("cancel_reason",.text a.reason),
    ("cancellation_policy",.text a.cancellationPolicy),("last_mutation_at",.number now.ms)]

def owesCancels : Bool := decide (a.cancellationPolicy = "cancel_all" ∧ k.members ≠ ∅)

def cancel (now : ServerTime) (grace : Nat) (k : FlowKeys) : FlowKeys :=
  { k with
    core := hset (cancelFields a now) k.core
    pendingCancels := if k.owesCancels a then k.pendingCancels ∪ k.members else k.pendingCancels
    cancelBacklog := if k.owesCancels a then some (double (now.ms + grace)) else k.cancelBacklog }

def cancelFlow (now : ServerTime) (k : FlowKeys) : FlowKeysOutcome := do
  let grace ← graceMs a.graceMs
  ensure (k.hasCore = true) (.fail .flowNotFound)
  ensure (k.isTerminal = false) (.fail .flowAlreadyTerminal)
  return (.cancelled a.cancellationPolicy k.members,k.cancel a now grace)

/-- The acknowledgement of the last pending member takes the flow off the backlog. -/
def acknowledge (eid : ExecutionId) (k : FlowKeys) : FlowKeys :=
  { k with
    pendingCancels := k.pendingCancels.erase eid
    cancelBacklog := if k.pendingCancels.erase eid = ∅ then none else k.cancelBacklog }

def ackCancelMember (eid : ExecutionId) (k : FlowKeys) : FlowKeysOutcome := .ok (.tuple (.ok []),k.acknowledge eid)

/-- The rest of a tag key after its first letter: more of the caller's name, a dot and something
that is not a dot. -/
def isTagSuffix : List Char → Bool
  | [] => false
  | '.' :: rest => rest.head?.any (· ≠ '.')
  | c :: rest => (c.isLower || c.isDigit || c == '_') && isTagSuffix rest

def isTagKey (key : String) : Bool :=
  match key.toList with
  | [] => false
  | c :: rest => c.isLower && isTagSuffix rest

def pairs : List String → List (String × FieldValue)
  | key :: value :: rest => (key,.text value) :: pairs rest
  | _ => []

def inlineTags : List (String × FieldValue) := (k.core.entries.filter fun e => isTagKey e.1).map fun e => (e.1,e.2)

/-- Move the tags out of flow_core, once. The sentinel stays in flow_core. -/
def migrateTags (server : Server) (k : FlowKeys) : Option FlowKeys :=
  if k.core.lookup "tags_migrated" = some (.text "1") then some k
  else if server.unpackLimit < 2 * k.inlineTags.length then none
  else
    some { k with
      tags := hset k.inlineTags k.tags
      core := (hdel (k.inlineTags.map (·.1)) k.core).insert "tags_migrated" (.text "1") }

def tag (args : List String) (now : ServerTime) (k : FlowKeys) : FlowKeys :=
  { k with
    tags := hset (pairs args) k.tags, core := k.core.insert "last_mutation_at" (FieldValue.print now.ms) }

def setFlowTags (server : Server) (args : List String) (now : ServerTime) (k : FlowKeys) : FlowKeysOutcome := do
  ensure (args ≠ [] ∧ args.length % 2 = 0)
    (.tuple (.err .invalidInput ["tags must be non-empty even-length key/value pairs"]))
  ensure (k.hasCore = true) (.fail .flowNotFound)
  match (pairs args).find? fun e => !isTagKey e.1 with
  | some e => .error (.tuple (.err .invalidTagKey [e.1]))
  | none =>
    let k ← demand (migrateTags server k) (.tuple .raised)
    if server.unpackLimit < args.length then return (.tuple .raised,k)
    else return (.tuple (.ok [toString (args.length / 2)]),k.tag args now)

end FlowKeys

inductive FlowCall where
  | createFlow (a : FlowKeys.CreateArgs)
  | addExecutionToFlow (a : FlowStore.MemberArgs)
  | stageDependencyEdge (a : FlowStore.StageArgs) (nowMs : TimestampMs)
  | cancelFlow (a : FlowKeys.CancelArgs)
  | ackCancelMember (eid : ExecutionId)
  | setFlowTags (args : List String)

structure FlowInput where
  now : ServerTime
  call : FlowCall

def FlowInput.outcome (server : Server) (i : FlowInput) : FlowKeys → FlowKeysOutcome :=
  match i.call with
  | .createFlow a => FlowKeys.createFlow a i.now
  | .addExecutionToFlow a => FlowKeys.addExecutionToFlow a i.now
  | .stageDependencyEdge a nowMs => FlowKeys.stageDependencyEdge a nowMs
  | .cancelFlow a => cancelFlow a i.now
  | .ackCancelMember eid => ackCancelMember eid
  | .setFlowTags args => setFlowTags server args i.now

def keysNext (server : Server) (i : FlowInput) (k : FlowKeys) : FlowKeys := (commit k (i.outcome server k)).2

def noFlow : FlowKeys := {}

def keysRun (server : Server) (calls : List FlowInput) : FlowKeys := runFrom (keysNext server) noFlow calls

def FlowKeys.validTags (args : List String) : Bool :=
  decide (args ≠ [] ∧ args.length % 2 = 0) && (pairs args).all fun e => isTagKey e.1

def FlowCall.migrates (call : FlowCall) (k : FlowKeys) : Bool :=
  match call with
  | .setFlowTags args => k.hasCore && validTags args
  | .createFlow _ | .addExecutionToFlow _ | .stageDependencyEdge _ _ | .cancelFlow _ | .ackCancelMember _ => false

/-- The call can be turned away without a write. -/
def FlowCall.refusable (call : FlowCall) (k : FlowKeys) : Bool :=
  match call with
  | .setFlowTags args => !(k.hasCore && validTags args)
  | .ackCancelMember _ => false
  | .createFlow _ => false
  | .addExecutionToFlow _ | .stageDependencyEdge _ _ | .cancelFlow _ => true

inductive KeysEffect (server : Server) (now : ServerTime) (k : FlowKeys) : FlowCall → FlowKeys → Prop
  | refused (call : FlowCall) (may : call.refusable k = true) : KeysEffect server now k call k
  | overflowed (args) (full : k.migrateTags server = none) : KeysEffect server now k (.setFlowTags args) k
  | listed (a) (live : k.hasCore = true) : KeysEffect server now k (.createFlow a) k.list
  | turnedAway (a) (live : k.hasCore = true) (going : k.isTerminal = false) :
      KeysEffect server now k (.addExecutionToFlow a) k.list
  | created (a) (absent : k.hasCore = false) : KeysEffect server now k (.createFlow a) (k.list.create a now)
  | added (a : FlowStore.MemberArgs) (live : k.hasCore = true) (going : k.isTerminal = false)
      (new : a.executionId ∉ k.members) :
      KeysEffect server now k (.addExecutionToFlow a) (k.list.addMember a.executionId now)
  | staged (a : FlowStore.StageArgs) (nowMs) (live : k.hasCore = true)
      (going : k.isTerminal = false) (upstream : a.upstreamEid ∈ k.members) (downstream : a.downstreamEid ∈ k.members)
      (acyclic : k.graph.detectCycle a.downstreamEid a.upstreamEid = false) (fresh : k.edge a.edgeId = none) :
      KeysEffect server now k (.stageDependencyEdge a nowMs) (k.addEdge a nowMs)
  | cancelled (a grace) (live : k.hasCore = true)
      (going : k.isTerminal = false) : KeysEffect server now k (.cancelFlow a) (k.cancel a now grace)
  | acknowledged (eid) : KeysEffect server now k (.ackCancelMember eid) (k.acknowledge eid)
  | migrated (args t) (live : k.hasCore = true)
      (valid : validTags args = true) (moved : k.migrateTags server = some t) :
      KeysEffect server now k (.setFlowTags args) t
  | tagged (args t) (live : k.hasCore = true) (valid : validTags args = true) (moved : k.migrateTags server = some t) :
      KeysEffect server now k (.setFlowTags args) (t.tag args now)

section
variable {server : Server} {now : ServerTime} {k t : FlowKeys}

theorem validTags_iff {args : List String} : validTags args = true ↔ (args ≠ [] ∧ args.length % 2 = 0) ∧
      (pairs args).find? (fun e => !isTagKey e.1) = none := by
  simp [validTags]

private theorem setFlowTags_effect (args : List String) :
    KeysEffect server now k (.setFlowTags args) (commit k (k.setFlowTags server args now)).2 := by
  unfold setFlowTags
  by_cases shape : args ≠ [] ∧ args.length % 2 = 0
  swap
  · rw [ensure_of_not shape]
    exact .refused _ (by simp [FlowCall.refusable,validTags,shape])
  by_cases live : k.hasCore = true
  swap
  · rw [ensure_of shape,ensure_of_not live]
    exact .refused _ (by simp [FlowCall.refusable,live])
  rw [ensure_of shape,ensure_of live]
  cases bad : (pairs args).find? fun e => !isTagKey e.1 with
  | some =>
    have invalid : validTags args = false := by
      rw [← Bool.not_eq_true,validTags_iff,bad]
      simp
    exact .refused _ (by simp [FlowCall.refusable,invalid])
  | none =>
    have valid := validTags_iff.mpr ⟨shape,bad⟩
    cases moved : k.migrateTags server with
    | none => exact .overflowed args moved
    | some t =>
      by_cases long : server.unpackLimit < args.length
      · change KeysEffect server now k _ (commit k (if _ then _ else _)).2
        rw [if_pos long]
        exact .migrated args t live valid moved
      · change KeysEffect server now k _ (commit k (if _ then _ else _)).2
        rw [if_neg long]
        exact .tagged args t live valid moved

theorem lookup_migrateTags (moved : k.migrateTags server = some t) {field : String}
    (own : isTagKey field = false) (other : field ≠ "tags_migrated") : t.core.lookup field = k.core.lookup field := by
  unfold migrateTags at moved
  split at moved
  · cases moved
    rfl
  · split at moved
    · cases moved
    · cases moved
      rw [lookup_insert,if_neg other,lookup_hdel]
      intro hin
      simp only [inlineTags,List.map_map,List.mem_map,List.mem_filter] at hin
      obtain ⟨e,⟨-,shaped⟩,rfl⟩ := hin
      exact Bool.false_ne_true (own.symm.trans shaped)

theorem keysNext_effect (i : FlowInput) (k : FlowKeys) : KeysEffect server i.now k i.call (keysNext server i k) := by
  obtain ⟨now,call⟩ := i
  cases call with
  | createFlow a =>
    simp only [keysNext,FlowInput.outcome,FlowKeys.createFlow]
    split
    · exact .listed a ‹_›
    · exact .created a (Bool.eq_false_of_not_eq_true ‹_›)
  | addExecutionToFlow a =>
    refine commit_induction (.refused _ rfl) fun reply t hok => ?_
    simp only [FlowInput.outcome,FlowKeys.addExecutionToFlow,bind_ok,ensure_ok] at hok
    obtain ⟨_,live,_,going,_,-,hok⟩ := hok
    split at hok
    · cases hok
      exact .turnedAway a live going
    · split at hok
      · cases hok
        exact .turnedAway a live going
      · rename_i new
        split at hok <;> cases hok <;> exact .added a live going new
  | stageDependencyEdge a nowMs =>
    refine commit_induction (.refused _ rfl) fun reply t hok => ?_
    simp only [FlowInput.outcome,stageDependencyEdge,bind_ok,ensure_ok] at hok
    obtain ⟨_,-,_,live,_,going,_,-,_,hu,_,hv,_,hd,_,fresh,hok⟩ := hok
    have fresh : k.edge a.edgeId = none := by simpa using fresh
    split at hok <;> cases hok <;> exact .staged a nowMs live going hu hv hd fresh
  | cancelFlow a =>
    refine commit_induction (.refused _ rfl) fun reply t hok => ?_
    simp only [FlowInput.outcome,cancelFlow,bind_ok,ensure_ok] at hok
    obtain ⟨grace,-,_,live,_,going,hok⟩ := hok
    cases hok
    exact .cancelled a grace live going
  | ackCancelMember eid => exact .acknowledged eid
  | setFlowTags args => exact setFlowTags_effect args

end

end FlowFabric
