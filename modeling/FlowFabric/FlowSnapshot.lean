import FlowFabric.FlowCancel
import FlowFabric.FlowRecord

/-! The decoder of describe_flow, and which flows it accepts. -/
namespace FlowFabric
open Foundation

def flowCoreKnownFields : List String :=
  ["flow_id","flow_kind","namespace","public_flow_state","graph_revision","node_count","edge_count",
    "created_at","last_mutation_at","cancelled_at","cancel_reason","cancellation_policy"]

def sawDot : List Char → Bool
  | [] => false
  | '.' :: _ => true
  | c :: rest => (c.isLower || c.isDigit || c == '_') && sawDot rest

def isNamespacedTagKey (key : String) : Bool :=
  match key.toList with
  | [] => false
  | c :: rest => c.isLower && sawDot rest

structure FlowSnapshot where
  (flowId flowKind namespaceName publicFlowState : String)
  (graphRevision nodeCount edgeCount createdAt lastMutationAt : Int)
  cancelledAt : Option Int
  (cancelReason cancellationPolicy : Option String)
  tags : List (String × String)
  deriving DecidableEq

def describeFlow : String := "describe_flow: flow_core"

def routeTags : List ((_ : String) × FieldValue) → Except Corruption (List (String × String))
  | [] => .ok []
  | e :: entries =>
    if e.1 ∈ flowCoreKnownFields then routeTags entries
    else if isNamespacedTagKey e.1 then do
      let tags ← routeTags entries
      return (e.1,e.2.render) :: tags
    else
      .error ⟨describeFlow,none,"has unexpected field '" ++ e.1 ++
        "' — not an FF field and not a namespaced tag (lowercase-alphanumeric-prefix + '.')"⟩

def buildFlowSnapshot (flowId : String) (raw : Fields) : Except Corruption FlowSnapshot := do
  let ctx := describeFlow
  let storedFlowId ← required ctx raw "flow_id" "is missing or empty (key corruption?)"
  ensure (storedFlowId.render = flowId)
    ⟨ctx,some "flow_id","'" ++ storedFlowId.render ++ "' does not match requested flow_id '" ++ flowId ++
      "' (key corruption or wrong-key read?)"⟩
  let namespaceName ← required ctx raw "namespace" "is missing or empty (key corruption?)"
  let flowKind ← required ctx raw "flow_kind" "is missing or empty (key corruption?)"
  let publicFlowState ← required ctx raw "public_flow_state" "is missing or empty (key corruption?)"
  let graphRevision ← numberRequired parseU64Strict ctx raw "graph_revision" "is missing (key corruption?)"
  let nodeCount ← numberRequired parseU32Strict ctx raw "node_count" "is missing (key corruption?)"
  let edgeCount ← numberRequired parseU32Strict ctx raw "edge_count" "is missing (key corruption?)"
  let createdAt ← numberRequired parseTs ctx raw "created_at" "is missing or empty (key corruption?)"
  let lastMutationAt ←
    numberRequired parseTs ctx raw "last_mutation_at" "is missing or empty (key corruption?)"
  let cancelledAt ← parseTs ctx raw "cancelled_at"
  let tags ← routeTags raw.entries
  return {
    flowId := flowId, flowKind := flowKind.render, namespaceName := namespaceName.render
    publicFlowState := publicFlowState.render, graphRevision := graphRevision, nodeCount := nodeCount
    edgeCount := edgeCount, createdAt := createdAt, lastMutationAt := lastMutationAt, cancelledAt := cancelledAt
    cancelReason := (present raw "cancel_reason").map FieldValue.render
    cancellationPolicy := (present raw "cancellation_policy").map FieldValue.render, tags := tags }

private theorem routeTags_ok_iff (entries : List ((_ : String) × FieldValue)) : (∃ tags, routeTags entries = .ok tags) ↔
      ∀ e ∈ entries, e.1 ∈ flowCoreKnownFields ∨ isNamespacedTagKey e.1 = true := by
  induction entries with
  | nil => simp [routeTags]
  | cons e entries ih =>
    rw [List.forall_mem_cons,← ih,routeTags]
    by_cases known : e.1 ∈ flowCoreKnownFields
    · simp [known]
    · by_cases shaped : isNamespacedTagKey e.1 = true
      · cases rest : routeTags entries <;> simp [known,shaped]
      · simp [known,shaped]

namespace FlowRecord
variable {r : FlowRecord} {core : Fields}

variable (h : r.Describes core)
include h

theorem Describes.routeTags : (∃ tags, FlowFabric.routeTags core.entries = .ok tags) ↔ r.tagsMigrated = false := by
  rw [routeTags_ok_iff]
  constructor
  · intro all
    by_contra done
    have set : r.value .tagsMigrated = some (.text "1") := if_pos (by simpa using done)
    have known := all _ (Hash.Holds.mem h set)
    revert known
    decide
  · intro fresh e he
    obtain ⟨c,hc,hv⟩ := Hash.Holds.of_mem h he
    rw [hc]
    cases c with
    | tagsMigrated =>
      rw [value,fresh] at hv
      cases hv
    | _ => exact .inl (by decide)

theorem Describes.number {c : FlowField} {n : Nat} (hv : r.value c = some (.number n))
    (kind context message : String) (lower upper : Int) (hl : lower ≤ 0) :
    (∃ m, numberRequired (parseStrict kind lower upper) context core c.name message = .ok m) ↔ (n : Int) < upper := by
  have hp : present core c.name = some (.number n) := present_of_lookup ((h.named c).trans hv) rfl
  constructor
  · rintro ⟨m,hm⟩
    obtain ⟨he,-,hu⟩ := numberRequired_ok.mp hm
    rw [hp] at he
    cases he
    exact hu
  · intro hu
    exact ⟨n,numberRequired_ok.mpr ⟨hp,by omega,hu⟩⟩

theorem Describes.text {c : FlowField} {s : String} (hv : r.value c = some (.text s))
    (set : s ≠ "") (context message : String) : required context core c.name message = .ok (.text s) :=
  required_ok.mpr (present_of_lookup ((h.named c).trans hv) (by simpa [FieldValue.isEmpty] using set))

theorem Describes.lastMutation (fresh : r.tagsMigrated = false) (context message : String) :
    ∃ n, numberRequired parseTs context core "last_mutation_at" message = .ok n := by
  obtain ⟨n,hn,hl,hu⟩ := r.readable fresh
  have hp : present core "last_mutation_at" = some (.number n) :=
    present_of_lookup ((h.named .lastMutationAt).trans (congrArg some hn)) rfl
  exact ⟨n,numberRequired_ok.mpr ⟨hp,hl,hu⟩⟩

theorem Describes.cancelledAt (context : String) : ∃ o, parseTs context core "cancelled_at" = .ok o := by
  refine parseStrict_isOk.mpr fun v hv => ?_
  have stored := (h.named .cancelledAt).symm.trans (lookup_of_present hv)
  simp only [value,Option.map_eq_some_iff] at stored
  obtain ⟨c,-,rfl⟩ := stored
  exact ⟨_,rfl,by omega,by have := c.cancelledAt.small; omega⟩

end FlowRecord

section
variable {flowId : String} {k : FlowKeys} {r : FlowRecord} {edges : Finset String}

theorem buildFlowSnapshot_isOk (h : Recorded flowId k r edges) :
    (∃ snapshot, buildFlowSnapshot flowId k.core = .ok snapshot) ↔
      r.tagsMigrated = false ∧ r.nodeCount < 2 ^ 32 ∧ r.edgeCount < 2 ^ 32 := by
  have d := h.describes
  have small := d.number (c := .nodeCount) rfl "u32" describeFlow "is missing (key corruption?)" 0 (2 ^ 32) le_rfl
  have few := d.number (c := .edgeCount) rfl "u32" describeFlow "is missing (key corruption?)" 0 (2 ^ 32) le_rfl
  simp only [buildFlowSnapshot,bind_ok]
  constructor
  · rintro ⟨snapshot,_,-,_,-,_,-,_,-,_,-,_,-,nodes,hn,edges,he,_,-,_,-,_,-,tags,ht,-⟩
    have hn := small.mp ⟨nodes,hn⟩
    have he := few.mp ⟨edges,he⟩
    exact ⟨d.routeTags.mp ⟨tags,ht⟩,by omega,by omega⟩
  · rintro ⟨fresh,hn,he⟩
    have fits := r.revisionFits
    have clock := r.createdAt.small
    obtain ⟨nodes,hn⟩ := small.mpr (by omega)
    obtain ⟨edges,he⟩ := few.mpr (by omega)
    obtain ⟨revision,hr⟩ :=
      (d.number (c := .graphRevision) rfl "u64" describeFlow "is missing (key corruption?)" 0 (2 ^ 64) le_rfl).mpr
        (by omega)
    obtain ⟨created,hc⟩ :=
      (d.number (c := .createdAt) rfl "ms timestamp" describeFlow "is missing or empty (key corruption?)"
        (-2 ^ 63) (2 ^ 63) (by omega)).mpr (by omega)
    obtain ⟨mutated,hm⟩ := d.lastMutation fresh describeFlow "is missing or empty (key corruption?)"
    obtain ⟨cancelled,hx⟩ := d.cancelledAt describeFlow
    obtain ⟨tags,ht⟩ := d.routeTags.mpr fresh
    have state : r.publicFlowState.text ≠ "" := by
      cases r.publicFlowState <;> decide
    have own : r.flowId ≠ "" := h.own.symm ▸ h.named.1
    exact ⟨_,_,d.text (c := .flowId) rfl own _ _,_,ensure_of h.own _,
      _,d.text (c := .namespaceName) rfl h.named.2.2 _ _,_,d.text (c := .flowKind) rfl h.named.2.1 _ _,
      _,d.text (c := .publicFlowState) rfl state _ _,revision,hr,nodes,hn,edges,he,created,hc,mutated,hm,
      cancelled,hx,tags,ht,rfl⟩

end

/-- A flow that valid calls have created can be described exactly if none of them set tags, and
its members and its edges can be counted in 32 bits. -/
theorem untagged_flow_is_described (server : Server) (flowId : String) (calls : List FlowInput)
    (valid : ∀ i ∈ calls, i.call.valid flowId = true) (created : (keysRun server calls).hasCore = true) :
    (∃ snapshot, buildFlowSnapshot flowId (keysRun server calls).core = .ok snapshot) ↔
      Along (keysNext server) (fun k i => i.call.migrates k = false) noFlow calls ∧
      (keysRun server calls).members.card < 2 ^ 32 ∧
      ∃ edges : Finset String, (∀ e, ((keysRun server calls).edge e).isSome ↔ e ∈ edges) ∧ edges.card < 2 ^ 32 := by
  obtain ⟨⟨absent,-⟩ | ⟨r,edges,h⟩,tags⟩ := keysRun_written server valid
  · rw [hasCore_empty absent] at created
    cases created
  · have untagged : r.tagsMigrated = false ↔
        Along (keysNext server) (fun k i => i.call.migrates k = false) noFlow calls := by
      rw [h.tagsMigrated_iff] at tags
      cases done : r.tagsMigrated <;> simp_all
    have counted : (∃ edges : Finset String,
        (∀ e, ((keysRun server calls).edge e).isSome ↔ e ∈ edges) ∧ edges.card < 2 ^ 32) ↔ edges.card < 2 ^ 32 := by
      constructor
      · rintro ⟨edges',staged,few⟩
        obtain rfl : edges' = edges := Finset.ext fun e => (staged e).symm.trans (h.staged e)
        exact few
      · intro few
        exact ⟨edges,h.staged,few⟩
    rw [buildFlowSnapshot_isOk h,h.counted.small_iff,untagged,counted]

namespace Client

def stamp (ms : Nat) : TimestampMs := ⟨(ms % 10 : Nat),by omega,by omega⟩

/-- A flow with two members and an edge between them, which is then cancelled. -/
def cancelledFlow : List FlowInput :=
  twoMembers ++ [tick 4 (.stageDependencyEdge
      { edgeId := "x", upstreamEid := memberA, downstreamEid := memberB, expectedGraphRevision := "2" }
      (stamp 4)),tick 5 (.cancelFlow cancelAll)]

theorem cancelled_flow_is_described :
    ∃ snapshot, buildFlowSnapshot "f" (keysRun .strict cancelledFlow).core = .ok snapshot := by
  have staged : ∀ e, ((keysRun .strict cancelledFlow).edge e).isSome ↔ e ∈ ({"x"} : Finset String) := by
    intro e
    change (if e = "x" then some (⟨memberA,memberB,"success_only",""⟩ : FlowEdge) else none).isSome = true ↔ _
    by_cases he : e = "x" <;> simp [he]
  exact (untagged_flow_is_described .strict "f" cancelledFlow (by decide) (by decide +kernel)).mpr
    ⟨by decide +kernel,by decide +kernel,{"x"},staged,by decide⟩

/-- A new flow is given a tag, which succeeds, and can no longer be described. -/
theorem tagged_flow_is_not_described :
    let created := keysRun .strict [tick 1 (.createFlow ⟨"f","batch","n"⟩)]
    let tagged := commit created (created.setFlowTags .strict ["app.owner","ops"] ⟨2,by decide⟩)
    tagged.1 = .tuple (.ok ["1"]) ∧ buildFlowSnapshot "f" created.core = .ok
        ⟨"f","batch","n","open",0,0,0,1,1,none,none,none,[]⟩ ∧ buildFlowSnapshot "f" tagged.2.core = .error
        ⟨"describe_flow: flow_core",none,"has unexpected field 'tags_migrated' — not an FF field " ++
          "and not a namespaced tag (lowercase-alphanumeric-prefix + '.')"⟩ := by
  decide +kernel

end Client

end FlowFabric
