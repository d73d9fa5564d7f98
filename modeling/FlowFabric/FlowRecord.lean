import FlowFabric.FlowKeys

/-! What flow_core holds: a record whose fields are those of the hash, and how the scripts
change it. -/
namespace FlowFabric
open Foundation Hash

inductive FlowField where
  | flowId | flowKind | namespaceName | graphRevision | nodeCount | edgeCount | publicFlowState
  | createdAt | lastMutationAt | cancelledAt | cancelReason | cancellationPolicy | tagsMigrated
  deriving DecidableEq

open FlowField

def FlowField.name : FlowField → String
  | .flowId => "flow_id"
  | .flowKind => "flow_kind"
  | .namespaceName => "namespace"
  | .graphRevision => "graph_revision"
  | .nodeCount => "node_count"
  | .edgeCount => "edge_count"
  | .publicFlowState => "public_flow_state"
  | .createdAt => "created_at"
  | .lastMutationAt => "last_mutation_at"
  | .cancelledAt => "cancelled_at"
  | .cancelReason => "cancel_reason"
  | .cancellationPolicy => "cancellation_policy"
  | .tagsMigrated => "tags_migrated"

theorem FlowField.name_injective : Function.Injective name := by
  intro c d h
  cases c <;> cases d <;> first | rfl | exact absurd h (by decide)

structure Cancellation where
  cancelledAt : ServerTime
  (reason policy : String)

/-- A flow that exists. Its revision fits into 64 bits, and the time of its last mutation can be
read back at least until it is tagged. -/
structure FlowRecord where
  (flowId flowKind namespaceName : String)
  (graphRevision nodeCount edgeCount : Nat := 0)
  createdAt : ServerTime
  lastMutationAt : FieldValue
  cancellation : Option Cancellation := none
  tagsMigrated : Bool := false
  revisionFits : graphRevision < 2 ^ 63
  readable : tagsMigrated = false → lastMutationAt.inRange (-2 ^ 63) (2 ^ 63)

namespace FlowRecord

variable (r : FlowRecord)

def publicFlowState : PublicFlowState :=
  if r.cancellation.isSome then .cancelled else .opened

def value : FlowField → Option FieldValue
  | .flowId => some (.text r.flowId)
  | .flowKind => some (.text r.flowKind)
  | .namespaceName => some (.text r.namespaceName)
  | .graphRevision => some (.number r.graphRevision)
  | .nodeCount => some (.number r.nodeCount)
  | .edgeCount => some (.number r.edgeCount)
  | .publicFlowState => some (.text r.publicFlowState.text)
  | .createdAt => some (.number r.createdAt.ms)
  | .lastMutationAt => some r.lastMutationAt
  | .cancelledAt => r.cancellation.map fun c => .number c.cancelledAt.ms
  | .cancelReason => r.cancellation.map fun c => .text c.reason
  | .cancellationPolicy => r.cancellation.map fun c => .text c.policy
  | .tagsMigrated => if r.tagsMigrated then some (.text "1") else none

abbrev Describes (core : Fields) : Prop := Hash.Holds name r.value core

/-- The record that ff_create_flow writes. -/
def new (a : FlowKeys.CreateArgs) (now : ServerTime) : FlowRecord where
  flowId := a.flowId
  flowKind := a.flowKind
  namespaceName := a.namespaceName
  createdAt := now
  lastMutationAt := .number now.ms
  revisionFits := by decide
  readable _ := ⟨now.ms,rfl,by omega,by have := now.small; omega⟩

def countNode : FlowRecord := { r with nodeCount := r.nodeCount + 1 }

def countEdge : FlowRecord := { r with edgeCount := r.edgeCount + 1 }

def revise (fits : r.graphRevision + 1 < 2 ^ 63) : FlowRecord :=
  { r with graphRevision := r.graphRevision + 1, revisionFits := fits }

def mutate (time : FieldValue) (readable : r.tagsMigrated = false → time.inRange (-2 ^ 63) (2 ^ 63)) : FlowRecord :=
  { r with lastMutationAt := time, readable := readable }

def cancel (a : FlowKeys.CancelArgs) (now : ServerTime) : FlowRecord where
  __ := r
  cancellation := some ⟨now,a.reason,a.cancellationPolicy⟩
  lastMutationAt := .number now.ms
  readable _ := ⟨now.ms,rfl,by omega,by have := now.small; omega⟩

def migrate : FlowRecord := { r with tagsMigrated := true, readable := fun h => by cases h }

section
variable {r : FlowRecord} {core : Fields}

theorem Describes.hset {r' : FlowRecord} (h : r.Describes core) (fields : List (FlowField × FieldValue))
    (same : ∀ c, Hash.assign fields r.value c = r'.value c) :
    r'.Describes (Hash.hset (fields.map fun e => (e.1.name,e.2)) core) := by
  have hr : r'.value = assign fields r.value := funext fun c => (same c).symm
  rw [Describes,hr]
  exact Hash.Holds.hset h name_injective fields

theorem describes_new (a : FlowKeys.CreateArgs) (now : ServerTime) :
    (new a now).Describes (Hash.hset (FlowKeys.newCore a now) ∅) := by
  have hr : (new a now).value = assign
      [(.flowId,.text a.flowId),(.flowKind,.text a.flowKind),(.namespaceName,.text a.namespaceName),
        (.graphRevision,.number 0),(.nodeCount,.number 0),(.edgeCount,.number 0),
        (.publicFlowState,.text "open"),(.createdAt,.number now.ms),(.lastMutationAt,.number now.ms)]
      fun _ => none := by
    funext c
    cases c <;> rfl
  rw [Describes,hr]
  exact Hash.Holds.hset holds_empty name_injective _

variable (h : r.Describes core)
include h

theorem Describes.countNode : r.countNode.Describes (core.insert "node_count" (.number (r.nodeCount + 1))) :=
  Describes.hset h [(.nodeCount,.number (r.nodeCount + 1))] fun c => by cases c <;> rfl

theorem Describes.countEdge : r.countEdge.Describes (core.insert "edge_count" (.number (r.edgeCount + 1))) :=
  Describes.hset h [(.edgeCount,.number (r.edgeCount + 1))] fun c => by cases c <;> rfl

theorem Describes.revise (fits : r.graphRevision + 1 < 2 ^ 63) :
    (r.revise fits).Describes (core.insert "graph_revision" (.number (r.graphRevision + 1))) :=
  Describes.hset h [(.graphRevision,.number (r.graphRevision + 1))] fun c => by cases c <;> rfl

theorem Describes.mutate (time : FieldValue) (readable) :
    (r.mutate time readable).Describes (core.insert "last_mutation_at" time) :=
  Describes.hset h [(.lastMutationAt,time)] fun c => by cases c <;> rfl

theorem Describes.cancel (a : FlowKeys.CancelArgs) (now : ServerTime) :
    (r.cancel a now).Describes (Hash.hset (FlowKeys.cancelFields a now) core) :=
  Describes.hset h
    [(.publicFlowState,.text "cancelled"),(.cancelledAt,.number now.ms),(.cancelReason,.text a.reason),
      (.cancellationPolicy,.text a.cancellationPolicy),(.lastMutationAt,.number now.ms)]
    fun c => by cases c <;> rfl

theorem Describes.migrate : r.migrate.Describes (core.insert "tags_migrated" (.text "1")) :=
  Describes.hset h [(.tagsMigrated,.text "1")] fun c => by cases c <;> rfl

end

/-- The two records are of the same flow, before and after one of its members or edges is counted. -/
structure SameFlow (r r' : FlowRecord) : Prop where
  flowId : r'.flowId = r.flowId
  flowKind : r'.flowKind = r.flowKind
  namespaceName : r'.namespaceName = r.namespaceName
  cancellation : r'.cancellation = r.cancellation
  tagsMigrated : r'.tagsMigrated = r.tagsMigrated

/-- The counters are right, or so many that one of them has come to the end of 64 bits. -/
structure Counted (r : FlowRecord) (nodes edges : Nat) : Prop where
  nodes_le : r.nodeCount ≤ nodes
  edges_le : r.edgeCount ≤ edges
  right : (r.nodeCount = nodes ∧ r.edgeCount = edges) ∨ 2 ^ 63 ≤ r.nodeCount + r.edgeCount + 1
  revision_le : r.graphRevision ≤ r.nodeCount + r.edgeCount

theorem Counted.small_iff {r : FlowRecord} {nodes edges : Nat} (h : r.Counted nodes edges) :
    r.nodeCount < 2 ^ 32 ∧ r.edgeCount < 2 ^ 32 ↔ nodes < 2 ^ 32 ∧ edges < 2 ^ 32 := by
  obtain ⟨hn,he,hr,-⟩ := h
  omega

end FlowRecord

namespace FlowKeys
variable {core : Fields} {n m : Nat}

private theorem increment_number {field : String} (h : core.lookup field = some (.number n)) (fits : n + 1 < 2 ^ 63) :
    increment field core = some ((n : Int) + 1,core.insert field (.number (n + 1))) := by
  simp only [increment,h,Option.getD_some]
  exact if_pos (by omega)

theorem increment_full {field : String} (h : core.lookup field = some (.number n)) (full : 2 ^ 63 ≤ n + 1) :
    increment field core = none := by
  simp only [increment,h,Option.getD_some]
  exact if_neg (by omega)

theorem countMutation_cases (first second : String) (hfirst : core.lookup first = some (.number n))
    (hsecond : (core.insert first (.number (n + 1))).lookup second = some (.number m)) (time : FieldValue) :
    (2 ^ 63 ≤ n + 1 ∧ countMutation first second time core = (none,core)) ∨ (n + 1 < 2 ^ 63 ∧ 2 ^ 63 ≤ m + 1 ∧
      countMutation first second time core = (none,core.insert first (.number (n + 1)))) ∨
    (n + 1 < 2 ^ 63 ∧ m + 1 < 2 ^ 63 ∧ countMutation first second time core =
        (some ((n : Int) + 1,(m : Int) + 1),((core.insert first (.number (n + 1))).insert second (.number (m + 1))).insert
          "last_mutation_at" time)) := by
  unfold countMutation
  by_cases one : n + 1 < 2 ^ 63
  · rw [increment_number hfirst one]
    by_cases two : m + 1 < 2 ^ 63
    · refine .inr (.inr ⟨one,two,?_⟩)
      simp only [increment_number hsecond two]
    · refine .inr (.inl ⟨one,by omega,?_⟩)
      simp only [increment_full hsecond (by omega)]
  · rw [increment_full hfirst (by omega)]
    exact .inl ⟨by omega,rfl⟩

end FlowKeys

open FlowKeys

namespace FlowRecord
variable {r : FlowRecord} {k : FlowKeys} {nodes edges : Nat}

variable (h : r.Describes k.core)
include h

theorem Describes.countMember (counted : r.Counted nodes edges) (now : ServerTime) :
    ∃ r', Describes r' (k.countMember now).2 ∧ r.SameFlow r' ∧ r'.Counted (nodes + 1) edges := by
  obtain ⟨hn,he,hr,hrev⟩ := counted
  have readable : FieldValue.inRange (-2 ^ 63) (2 ^ 63) (.number now.ms) :=
    ⟨now.ms,rfl,by omega,by have := now.small; omega⟩
  unfold FlowKeys.countMember
  obtain ⟨full,hw⟩ | ⟨one,full,hw⟩ | ⟨one,two,hw⟩ := FlowKeys.countMutation_cases "node_count"
    "graph_revision" (h.named .nodeCount) (h.countNode.named .graphRevision) (.number now.ms)
  · exact ⟨r,by rw [hw]; exact h,⟨rfl,rfl,rfl,rfl,rfl⟩,by omega,he,.inr (by omega),hrev⟩
  · refine ⟨r.countNode,by rw [hw]; exact h.countNode,⟨rfl,rfl,rfl,rfl,rfl⟩,?_,he,.inr ?_,?_⟩
    all_goals simp only [FlowRecord.countNode] at full ⊢
    all_goals omega
  · refine ⟨(r.countNode.revise two).mutate (.number now.ms) fun _ => readable,
      by rw [hw]; exact (h.countNode.revise two).mutate _ _,⟨rfl,rfl,rfl,rfl,rfl⟩,?_,he,?_,?_⟩
    all_goals simp only [FlowRecord.countNode,FlowRecord.revise,FlowRecord.mutate]
    all_goals omega

theorem Describes.countStaged (counted : r.Counted nodes edges) (nowMs : TimestampMs) :
    ∃ r', Describes r' (k.countEdge nowMs).2 ∧ r.SameFlow r' ∧ r'.Counted nodes (edges + 1) := by
  obtain ⟨hn,he,hr,hrev⟩ := counted
  unfold FlowKeys.countEdge
  have edge : (k.core.insert "graph_revision" (.number (r.graphRevision + 1))).lookup "edge_count" =
      some (.number r.edgeCount) := by
    rw [lookup_insert,if_neg (by decide)]
    exact h.named .edgeCount
  obtain ⟨full,hw⟩ | ⟨one,full,hw⟩ | ⟨one,two,hw⟩ := countMutation_cases "graph_revision" "edge_count"
    (h.named .graphRevision) edge (.number nowMs.ms)
  · exact ⟨r,by rw [hw]; exact h,⟨rfl,rfl,rfl,rfl,rfl⟩,hn,by omega,.inr (by omega),hrev⟩
  · refine ⟨r.revise one,by rw [hw]; exact h.revise one,⟨rfl,rfl,rfl,rfl,rfl⟩,hn,?_,.inr ?_,?_⟩
    all_goals simp only [FlowRecord.revise]
    all_goals omega
  · refine ⟨((r.revise one).countEdge).mutate (.number nowMs.ms) fun _ => ⟨_,rfl,nowMs.lower,nowMs.upper⟩,
      by rw [hw]; exact ((h.revise one).countEdge).mutate _ _,⟨rfl,rfl,rfl,rfl,rfl⟩,hn,?_,?_,?_⟩
    all_goals simp only [FlowRecord.countEdge,FlowRecord.revise,FlowRecord.mutate]
    all_goals omega

theorem Describes.inlineTags : k.inlineTags = [] := by
  unfold FlowKeys.inlineTags
  rw [List.map_eq_nil_iff,List.filter_eq_nil_iff]
  intro e he
  obtain ⟨c,hc,-⟩ := Hash.Holds.of_mem h he
  rw [hc]
  cases c <;> decide

theorem Describes.migrateTags (server : Server) :
    ∃ t, k.migrateTags server = some t ∧ r.migrate.Describes t.core ∧ t.graph = k.graph := by
  have sentinel := h.named .tagsMigrated
  cases done : r.tagsMigrated with
  | true =>
    have same : ∀ c, r.value c = r.migrate.value c := by
      intro c
      cases c with
      | tagsMigrated => simp [value,FlowRecord.migrate,done]
      | _ => rfl
    simp only [value,done,if_true] at sentinel
    refine ⟨k,if_pos sentinel,?_,rfl⟩
    rw [Describes,← funext same]
    exact h
  | false =>
    simp only [value,done] at sentinel
    refine ⟨{ k with core := k.core.insert "tags_migrated" (.text "1") },?_,h.migrate,rfl⟩
    have missing : ¬ k.core.lookup "tags_migrated" = some (.text "1") := fun he => by
      rw [show "tags_migrated" = FlowField.tagsMigrated.name from rfl,sentinel] at he
      cases he
    rw [FlowKeys.migrateTags,if_neg missing,h.inlineTags]
    exact if_neg (by simp)

end FlowRecord

/-- The hash of the flow describes a record of it, whose counters are those of the members and of
the edges. -/
structure Recorded (flowId : String) (k : FlowKeys) (r : FlowRecord) (edges : Finset String) : Prop where
  describes : r.Describes k.core
  own : r.flowId = flowId
  named : flowId ≠ "" ∧ r.flowKind ≠ "" ∧ r.namespaceName ≠ ""
  staged : ∀ e, (k.edge e).isSome ↔ e ∈ edges
  counted : r.Counted k.members.card edges.card

/-- There is no flow yet, or it is recorded. -/
def FlowKeys.Written (flowId : String) (k : FlowKeys) : Prop :=
  (k.core = ∅ ∧ k.members = ∅ ∧ ∀ e, k.edge e = none) ∨ ∃ r edges, Recorded flowId k r edges

def FlowCall.valid (flowId : String) : FlowCall → Bool
  | .createFlow a => decide (a.flowId = flowId ∧ flowId ≠ "" ∧ a.flowKind ≠ "" ∧ a.namespaceName ≠ "")
  | .addExecutionToFlow _ | .stageDependencyEdge _ _ | .cancelFlow _ | .ackCancelMember _ | .setFlowTags _ => true

section
variable {server : Server} {now : ServerTime} {flowId : String} {call : FlowCall} {k t : FlowKeys}
  {r : FlowRecord} {edges : Finset String}

theorem hasCore_empty (h : k.core = ∅) : k.hasCore = false := by
  rw [hasCore,h]
  rfl

theorem Recorded.of_same {r' : FlowRecord} (h : Recorded flowId k r edges) (describes : r'.Describes t.core)
    (same : r.SameFlow r') {edges' : Finset String} (staged : ∀ e, (t.edge e).isSome ↔ e ∈ edges')
    (counted : r'.Counted t.members.card edges'.card) : Recorded flowId t r' edges' where
  describes := describes
  own := same.flowId.trans h.own
  named := by
    rw [same.flowKind,same.namespaceName]
    exact h.named
  staged := staged
  counted := counted

theorem migrates_of_refusable (may : call.refusable k = true) : call.migrates k = false := by
  cases call with
  | setFlowTags => exact (Bool.not_eq_true' _).mp may
  | _ => rfl

section
variable (h : Recorded flowId k r edges)
include h

theorem Recorded.added {eid : ExecutionId} (new : eid ∉ k.members) :
    ∃ r', Recorded flowId (k.list.addMember eid now) r' edges ∧ r'.tagsMigrated = r.tagsMigrated := by
  obtain ⟨r',describes,same,counted⟩ := FlowRecord.Describes.countMember (k := k.list) h.describes h.counted now
  refine ⟨r',h.of_same describes same h.staged ?_,same.tagsMigrated⟩
  change r'.Counted (insert eid k.members).card edges.card
  rw [Finset.card_insert_of_notMem new]
  exact counted

theorem Recorded.staged_edge (a : FlowStore.StageArgs) (nowMs : TimestampMs) (fresh : k.edge a.edgeId = none) :
    ∃ r', Recorded flowId (k.addEdge a nowMs) r' (insert a.edgeId edges) ∧ r'.tagsMigrated = r.tagsMigrated := by
  obtain ⟨r',describes,same,counted⟩ := h.describes.countStaged h.counted nowMs
  have new : a.edgeId ∉ edges := by
    rw [← h.staged,fresh]
    simp
  refine ⟨r',h.of_same describes same (fun e => ?_) ?_,same.tagsMigrated⟩
  · by_cases he : e = a.edgeId
    · simp [addEdge,he]
    · simpa [addEdge,he] using h.staged e
  · rw [Finset.card_insert_of_notMem new]
    exact counted

theorem Recorded.migrated (moved : k.migrateTags server = some t) : Recorded flowId t r.migrate edges := by
  obtain ⟨t',moved',describes,same⟩ := h.describes.migrateTags server
  obtain rfl : t' = t := Option.some.inj (moved'.symm.trans moved)
  refine ⟨describes,h.own,h.named,?_,?_⟩
  · rw [show t'.edge = k.edge from congrArg FlowStore.edge same]
    exact h.staged
  · rw [show t'.members = k.members from congrArg FlowStore.members same]
    exact ⟨h.counted.nodes_le,h.counted.edges_le,h.counted.right,h.counted.revision_le⟩

theorem Recorded.tagged (done : r.tagsMigrated = true) (args : List String) :
    ∃ r', Recorded flowId (k.tag args now) r' edges ∧ r'.tagsMigrated = true := by
  have readable : r.tagsMigrated = false → (FieldValue.print now.ms).inRange (-2 ^ 63) (2 ^ 63) := by
    intro hn
    rw [done] at hn
    cases hn
  refine ⟨r.mutate _ readable,⟨h.describes.mutate _ readable,h.own,h.named,h.staged,?_⟩,done⟩
  exact ⟨h.counted.nodes_le,h.counted.edges_le,h.counted.right,h.counted.revision_le⟩

theorem Recorded.effect (effect : KeysEffect server now k call t) :
    ∃ r' edges', Recorded flowId t r' edges' ∧ r'.tagsMigrated = (r.tagsMigrated || call.migrates k) := by
  have same : ∀ {b : Bool}, b = false → r.tagsMigrated = (r.tagsMigrated || b) := by
    rintro b rfl
    rw [Bool.or_false]
  have kept : Recorded flowId k.list r edges := ⟨h.describes,h.own,h.named,h.staged,h.counted⟩
  cases effect with
  | refused call may => exact ⟨r,edges,h,same (migrates_of_refusable may)⟩
  | overflowed args full =>
    obtain ⟨t,moved,-⟩ := h.describes.migrateTags server
    rw [full] at moved
    cases moved
  | listed | turnedAway => exact ⟨r,edges,kept,same rfl⟩
  | created a absent =>
    rw [hasCore_of_lookup (h.describes.named .flowId)] at absent
    cases absent
  | added a live going new =>
    obtain ⟨r',hr,ht⟩ := h.added new
    exact ⟨r',edges,hr,ht.trans (same rfl)⟩
  | staged a nowMs live going upstream downstream acyclic fresh =>
    obtain ⟨r',hr,ht⟩ := h.staged_edge a nowMs fresh
    exact ⟨r',_,hr,ht.trans (same rfl)⟩
  | cancelled a =>
    refine ⟨r.cancel a now,edges,⟨h.describes.cancel a now,h.own,h.named,h.staged,?_⟩,same rfl⟩
    exact ⟨h.counted.nodes_le,h.counted.edges_le,h.counted.right,h.counted.revision_le⟩
  | acknowledged => exact ⟨r,edges,⟨h.describes,h.own,h.named,h.staged,h.counted⟩,same rfl⟩
  | migrated args t live valid moved =>
    exact ⟨_,edges,h.migrated moved,by simp [FlowRecord.migrate,FlowCall.migrates,live,valid]⟩
  | tagged args t live valid moved =>
    obtain ⟨r',hr,ht⟩ := (h.migrated moved).tagged rfl args
    exact ⟨r',edges,hr,by simp [ht,FlowCall.migrates,live,valid]⟩

end

private theorem absent_effect (absent : k.core = ∅) (nobody : k.members = ∅) (noEdges : ∀ e, k.edge e = none)
    (valid : call.valid flowId = true) (effect : KeysEffect server now k call t) :
    t.Written flowId ∧ t.core.lookup "tags_migrated" = none ∧ call.migrates k = false := by
  have missing := hasCore_empty absent
  have unset : k.core.lookup "tags_migrated" = none := by
    rw [absent]
    rfl
  have dead : ∀ {p : Prop}, k.hasCore = true → p := by
    intro p live
    rw [missing] at live
    cases live
  cases effect with
  | refused call may => exact ⟨.inl ⟨absent,nobody,noEdges⟩,unset,migrates_of_refusable may⟩
  | overflowed => exact ⟨.inl ⟨absent,nobody,noEdges⟩,unset,by simp [FlowCall.migrates,missing]⟩
  | created a =>
    have describes := FlowRecord.describes_new a now
    simp only [FlowCall.valid,decide_eq_true_eq] at valid
    have hcore : (k.list.create a now).core = hset (FlowKeys.newCore a now) ∅ := by
      rw [← absent]
      rfl
    refine ⟨.inr ⟨FlowRecord.new a now,∅,?_,valid.1,valid.2,fun e => ?_,?_⟩,?_,rfl⟩
    · rw [hcore]
      exact describes
    · simp [create,list,noEdges]
    · change (FlowRecord.new a now).Counted k.members.card _
      rw [nobody]
      exact ⟨Nat.le_refl 0,Nat.le_refl 0,.inl ⟨rfl,rfl⟩,Nat.le_refl 0⟩
    · rw [hcore]
      exact describes.named .tagsMigrated
  | acknowledged => exact ⟨.inl ⟨absent,nobody,noEdges⟩,unset,rfl⟩
  | listed a live | turnedAway a live | added a live | staged a nowMs live | cancelled a grace live
  | migrated args t live | tagged args t live => exact dead live

theorem Recorded.tagsMigrated_iff (h : Recorded flowId k r edges) :
    k.core.lookup "tags_migrated" = some (.text "1") ↔ r.tagsMigrated = true := by
  have sentinel := h.describes.named .tagsMigrated
  cases done : r.tagsMigrated <;> simp_all [FlowRecord.value,name]

theorem written_next (k : FlowKeys) (i : FlowInput) (h : k.Written flowId) (valid : i.call.valid flowId = true) :
    (keysNext server i k).Written flowId ∧ ((keysNext server i k).core.lookup "tags_migrated" = some (.text "1") ↔
        k.core.lookup "tags_migrated" = some (.text "1") ∨ ¬ i.call.migrates k = false) := by
  obtain ⟨absent,nobody,noEdges⟩ | ⟨r,edges,h⟩ := h
  · obtain ⟨written,unset,hm⟩ := absent_effect absent nobody noEdges valid (keysNext_effect i k)
    refine ⟨written,?_⟩
    rw [unset,hm,absent]
    simp
  · obtain ⟨r',edges',h',ht⟩ := h.effect (keysNext_effect i k)
    refine ⟨.inr ⟨r',edges',h'⟩,?_⟩
    rw [h'.tagsMigrated_iff,h.tagsMigrated_iff,ht]
    simp

theorem keysRun_written (server : Server) {calls : List FlowInput} (valid : ∀ i ∈ calls, i.call.valid flowId = true) :
    (keysRun server calls).Written flowId ∧ ((keysRun server calls).core.lookup "tags_migrated" = some (.text "1") ↔
        ¬ Along (keysNext server) (fun k i => i.call.migrates k = false) noFlow calls) := by
  have start : noFlow.Written flowId := .inl ⟨rfl,rfl,fun _ => rfl⟩
  have along : Along (keysNext server) (fun _ i => i.call.valid flowId = true) noFlow calls := Along.of_forall valid _
  refine ⟨Along.invariant (fun k i h hv => (written_next k i h hv).1) start along,?_⟩
  have flag := raised_iff_not_along (F := fun k => k.core.lookup "tags_migrated" = some (.text "1"))
    (P := fun k i => i.call.migrates k = false) (fun k i h hv => (written_next k i h hv).1)
    (fun k i h hv => (written_next k i h hv).2) start along
  have unset : ¬ noFlow.core.lookup "tags_migrated" = some (.text "1") := by
    intro h
    cases h
  exact flag.trans (or_iff_right unset)

end

end FlowFabric
