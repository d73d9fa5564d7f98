import FlowFabric.FlowRecord

/-! The keys of a flow carry its graph: every call moves the graph by one of its own moves, so
that the graph of the keys is sound in every run, cancelled and tagged flows included. -/
namespace FlowFabric
open Foundation FlowRecord

namespace FlowStore

inductive Move : FlowStore → FlowStore → Prop
  | stay (f) : Move f f
  | create (f : FlowStore) (absent : f.core = none) : Move f { f with core := some {} }
  | addMember (f : FlowStore) (c : FlowCore) (eid) (here : f.core = some c)
      (going : c.publicFlowState.isTerminal = false) (new : eid ∉ f.members) : Move f (f.addMember c eid)
  | addEdge (f : FlowStore) (c : FlowCore) (a : StageArgs) (here : f.core = some c)
      (going : c.publicFlowState.isTerminal = false) (upstream : a.upstreamEid ∈ f.members)
      (downstream : a.downstreamEid ∈ f.members)
      (acyclic : f.detectCycle a.downstreamEid a.upstreamEid = false) (fresh : f.edge a.edgeId = none) :
      Move f (f.addEdge c a)
  | cancel (f : FlowStore) (c : FlowCore) (here : f.core = some c) (going : c.publicFlowState.isTerminal = false) :
      Move f { f with core := some { c with publicFlowState := .cancelled } }

theorem Sound.move {f g : FlowStore} (h : f.Sound) (move : Move f g) : g.Sound := by
  cases move with
  | stay => exact h
  | create absent =>
    have created : FlowStore.createFlow "" f = .ok (.ok [""],{ f with core := some {} }) := by
      rw [FlowStore.createFlow,absent]
      rfl
    exact h.createFlow created
  | addMember c eid here going new => exact h.addMember here new
  | addEdge c a here going upstream downstream acyclic fresh => exact h.addEdge here upstream downstream acyclic fresh
  | cancel c here =>
    obtain ⟨edges,counted⟩ := h.counted
    refine ⟨h.listed,h.endpoints,h.acyclic,edges,counted.staged,by simp,?_,?_,?_⟩ <;> rintro c' ⟨⟩
    · exact counted.nodeCount c here
    · exact counted.edgeCount c here
    · exact counted.graphRevision c here

end FlowStore

/-- The graph that the keys of a flow carry. The counters of the graph have no end, those of the
hash are counted against them. -/
structure Carries (k : FlowKeys) (f : FlowStore) : Prop where
  members : f.members = k.members
  edge : f.edge = k.edge
  outgoing : f.outgoing = k.outgoing
  incoming : f.incoming = k.incoming
  core : (k.core = ∅ ∧ f.core = none) ∨ ∃ (r : FlowRecord) (c : FlowCore), r.Describes k.core ∧ f.core = some c ∧
    c.publicFlowState = r.publicFlowState ∧ r.Counted c.nodeCount c.edgeCount

section
variable {server : Server} {now : ServerTime} {call : FlowCall} {k t : FlowKeys} {f : FlowStore} {r : FlowRecord}

theorem FlowRecord.Describes.isTerminal (h : r.Describes k.core) : k.isTerminal = r.publicFlowState.isTerminal := by
  have state : k.publicFlowState = .text r.publicFlowState.text := by
    rw [FlowKeys.publicFlowState,show "public_flow_state" = FlowField.publicFlowState.name from rfl,h.named]
    rfl
  rw [FlowKeys.isTerminal,state]
  cases r.publicFlowState <;> rfl

theorem Carries.detectCycle (h : Carries k f) (u v : ExecutionId) : f.detectCycle u v = k.graph.detectCycle u v := by
  have same : f.successors = k.graph.successors := by
    funext eid
    simp only [FlowStore.successors,FlowKeys.graph,h.outgoing,h.edge]
  rw [FlowStore.detectCycle,FlowStore.detectCycle,same]

theorem Carries.live (h : Carries k f) (live : k.hasCore = true) :
    ∃ (r : FlowRecord) (c : FlowCore), r.Describes k.core ∧ f.core = some c ∧ c.publicFlowState = r.publicFlowState ∧
      r.Counted c.nodeCount c.edgeCount := by
  obtain ⟨absent,-⟩ | h := h.core
  · rw [hasCore_empty absent] at live
    cases live
  · exact h

theorem publicFlowState_same {r' : FlowRecord} (same : r.SameFlow r') : r'.publicFlowState = r.publicFlowState := by
  rw [publicFlowState,publicFlowState,same.cancellation]

variable (h : Carries k f)
include h

theorem Carries.staged {a : FlowStore.StageArgs} {nowMs : TimestampMs}
    (live : k.hasCore = true) (going : k.isTerminal = false) (upstream : a.upstreamEid ∈ k.members)
    (downstream : a.downstreamEid ∈ k.members)
    (acyclic : k.graph.detectCycle a.downstreamEid a.upstreamEid = false) (fresh : k.edge a.edgeId = none) :
    ∃ g, FlowStore.Move f g ∧ Carries (k.addEdge a nowMs) g := by
  obtain ⟨r,c,describes,here,state,counted⟩ := h.live live
  obtain ⟨r',describes',same,counted'⟩ := describes.countStaged counted nowMs
  have going : c.publicFlowState.isTerminal = false := by rw [state,← describes.isTerminal,going]
  refine ⟨_,.addEdge f c a here going (h.members ▸ upstream) (h.members ▸ downstream)
    ((h.detectCycle _ _).trans acyclic) (h.edge ▸ fresh),h.members,?_,?_,?_,
    .inr ⟨r',_,describes',rfl,state.trans (publicFlowState_same same).symm,counted'⟩⟩
  · simp only [FlowStore.addEdge,FlowKeys.addEdge,h.edge]
  · simp only [FlowStore.addEdge,FlowKeys.addEdge,h.outgoing]
  · simp only [FlowStore.addEdge,FlowKeys.addEdge,h.incoming]

theorem Carries.migrated (live : k.hasCore = true) (moved : k.migrateTags server = some t)
    (args : List String) (now : ServerTime) : Carries t f ∧ Carries (t.tag args now) f := by
  obtain ⟨r,c,describes,here,state,counted⟩ := h.live live
  obtain ⟨t',moved',describes',same⟩ := describes.migrateTags server
  obtain rfl : t' = t := Option.some.inj (moved'.symm.trans moved)
  have members := h.members.trans (congrArg FlowStore.members same).symm
  have edge := h.edge.trans (congrArg FlowStore.edge same).symm
  have outgoing := h.outgoing.trans (congrArg FlowStore.outgoing same).symm
  have incoming := h.incoming.trans (congrArg FlowStore.incoming same).symm
  have readable : r.migrate.tagsMigrated = false → (FieldValue.print now.ms).inRange (-2 ^ 63) (2 ^ 63) := by
    intro hn
    cases hn
  have counted : r.migrate.Counted c.nodeCount c.edgeCount :=
    ⟨counted.nodes_le,counted.edges_le,counted.right,counted.revision_le⟩
  have tagged : (r.migrate.mutate _ readable).Counted c.nodeCount c.edgeCount :=
    ⟨counted.nodes_le,counted.edges_le,counted.right,counted.revision_le⟩
  exact ⟨⟨members,edge,outgoing,incoming,.inr ⟨r.migrate,c,describes',here,state,counted⟩⟩,
    ⟨members,edge,outgoing,incoming,.inr ⟨_,c,describes'.mutate _ readable,here,state,tagged⟩⟩⟩

theorem Carries.effect (effect : KeysEffect server now k call t) : ∃ g, FlowStore.Move f g ∧ Carries t g := by
  have stay : ∃ g, FlowStore.Move f g ∧ Carries k.list g := ⟨f,.stay f,h.members,h.edge,h.outgoing,h.incoming,h.core⟩
  cases effect with
  | refused | overflowed => exact ⟨f,.stay f,h⟩
  | listed | turnedAway => exact stay
  | created a absent =>
    obtain ⟨hk,hf⟩ | ⟨r,c,describes,-⟩ := h.core
    · refine ⟨_,.create f hf,h.members,h.edge,h.outgoing,h.incoming,.inr ⟨new a now,{},?_,rfl,rfl,?_⟩⟩
      · have hcore : (k.list.create a now).core = Hash.hset (FlowKeys.newCore a now) ∅ := by
          rw [← hk]
          rfl
        rw [hcore]
        exact describes_new a now
      · exact ⟨Nat.le_refl 0,Nat.le_refl 0,.inl ⟨rfl,rfl⟩,Nat.le_refl 0⟩
    · rw [FlowKeys.hasCore_of_lookup (describes.named .flowId)] at absent
      cases absent
  | added a live going new =>
    obtain ⟨r,c,describes,here,state,counted⟩ := h.live live
    obtain ⟨r',describes',same,counted'⟩ := FlowRecord.Describes.countMember (k := k.list) describes counted now
    have going : c.publicFlowState.isTerminal = false := by rw [state,← describes.isTerminal,going]
    refine ⟨_,.addMember f c a.executionId here going (h.members ▸ new),?_,h.edge,h.outgoing,h.incoming,
      .inr ⟨r',_,describes',rfl,state.trans (publicFlowState_same same).symm,counted'⟩⟩
    rw [FlowStore.addMember,h.members]
    rfl
  | staged a nowMs live going upstream downstream acyclic fresh =>
    exact h.staged live going upstream downstream acyclic fresh
  | cancelled a grace live going =>
    obtain ⟨r,c,describes,here,state,counted⟩ := h.live live
    have going : c.publicFlowState.isTerminal = false := by rw [state,← describes.isTerminal,going]
    refine ⟨_,.cancel f c here going,h.members,h.edge,h.outgoing,h.incoming,
      .inr ⟨r.cancel a now,_,describes.cancel a now,rfl,rfl,?_⟩⟩
    exact ⟨counted.nodes_le,counted.edges_le,counted.right,counted.revision_le⟩
  | acknowledged => exact ⟨f,.stay f,h.members,h.edge,h.outgoing,h.incoming,h.core⟩
  | migrated args t live valid moved => exact ⟨f,.stay f,(h.migrated live moved args now).1⟩
  | tagged args t live valid moved => exact ⟨f,.stay f,(h.migrated live moved args now).2⟩

end

end FlowFabric
