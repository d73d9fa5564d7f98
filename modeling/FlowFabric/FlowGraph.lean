import FlowFabric.Foundation.Run
import FlowFabric.Foundation.Search
import FlowFabric.Flow

/-! The graph of a flow: ff_create_flow, ff_add_execution_to_flow and ff_stage_dependency_edge.
What the scripts read of the members themselves is an argument. -/
namespace FlowFabric
open Foundation Relation Finset

/-- The name of an execution, which is never empty. -/
structure ExecutionId where
  text : String
  nonempty : text ≠ ""
  deriving DecidableEq

def ExecutionId.parse (text : String) : Option ExecutionId :=
  if nonempty : text ≠ "" then some ⟨text,nonempty⟩ else none

inductive PublicFlowState where
  | opened | cancelled | completed | failed

def PublicFlowState.isTerminal : PublicFlowState → Bool
  | .opened => false
  | .cancelled | .completed | .failed => true

structure FlowCore where
  publicFlowState : PublicFlowState := .opened
  (graphRevision nodeCount edgeCount : Nat := 0)

structure FlowEdge where
  (upstreamExecutionId downstreamExecutionId : ExecutionId)
  (dependencyKind dataPassingRef : String)

/-- The keys of one flow. The edges that leave and enter a member are listed by their ids. -/
structure FlowStore where
  core : Option FlowCore := none
  members : Finset ExecutionId := ∅
  edge : String → Option FlowEdge := fun _ => none
  outgoing : ExecutionId → List String := fun _ => []
  incoming : ExecutionId → List String := fun _ => []

abbrev FlowOutcome := Except Reply (Reply × FlowStore)

namespace FlowStore

def createFlow (flowId : String) (f : FlowStore) : FlowOutcome :=
  if f.core.isSome then .ok (.alreadySatisfied [flowId],f)
  else .ok (.ok [flowId],{ f with core := some {} })

structure MemberArgs where
  flowId : String
  executionId : ExecutionId
  executionExists : Bool := true
  existingFlowId : String := ""

variable (f : FlowStore)

def addMember (c : FlowCore) (eid : ExecutionId) : FlowStore :=
  { f with
    members := insert eid f.members
    core := some { c with nodeCount := c.nodeCount + 1, graphRevision := c.graphRevision + 1 } }

def addExecutionToFlow (a : MemberArgs) (f : FlowStore) : FlowOutcome := do
  let c ← demand f.core (.fail .flowNotFound)
  ensure (c.publicFlowState.isTerminal = false) (.fail .flowAlreadyTerminal)
  ensure (a.executionExists = true) (.fail .executionNotFound)
  ensure (a.existingFlowId = "" ∨ a.existingFlowId = a.flowId) (.err .alreadyMemberOfDifferentFlow [a.existingFlowId])
  if a.executionId ∈ f.members then
    return (.alreadySatisfied [a.executionId.text,toString c.nodeCount],f)
  else return (.ok [a.executionId.text,toString (c.nodeCount + 1)],f.addMember c a.executionId)

def maxCycleCheckNodes : Nat := 1000

/-- The members that the listed edges of a member lead to. An edge that names nobody leads
nowhere. -/
def successors (eid : ExecutionId) : List ExecutionId :=
  (f.outgoing eid).filterMap fun edgeId =>
    ((f.edge edgeId).map (·.downstreamExecutionId)).filter fun nextEid => nextEid.text ≠ ""

/-- Whether the upstream is found from the downstream of a new edge. A graph that is too large
to be searched counts as found. -/
def detectCycle (startEid targetEid : ExecutionId) : Bool :=
  search f.successors targetEid maxCycleCheckNodes (maxCycleCheckNodes + 2) ∅ 0 [startEid]

/-- The same search, with no answer where the passes do not suffice. -/
def detectCycleWithin (passes : Nat) (startEid targetEid : ExecutionId) : Option Bool :=
  searchWithin f.successors targetEid maxCycleCheckNodes passes ∅ 0 [startEid]

def leads (u v : ExecutionId) : Prop :=
  ∃ edgeId ∈ f.outgoing u, ∃ p, f.edge edgeId = some p ∧ p.downstreamExecutionId = v

structure StageArgs where
  edgeId : String
  (upstreamEid downstreamEid : ExecutionId)
  dependencyKind : String := "success_only"
  dataPassingRef : String := ""
  expectedGraphRevision : String

def listEdge (edges : List String) (edgeId : String) : List String :=
  if edgeId ∈ edges then edges else edges ++ [edgeId]

def addEdge (c : FlowCore) (a : StageArgs) : FlowStore :=
  { f with
    edge := fun e =>
      if e = a.edgeId then
        some ⟨a.upstreamEid,a.downstreamEid,a.dependencyKind,a.dataPassingRef⟩
      else f.edge e
    outgoing := fun eid => if eid = a.upstreamEid then listEdge (f.outgoing eid) a.edgeId else f.outgoing eid
    incoming := fun eid => if eid = a.downstreamEid then listEdge (f.incoming eid) a.edgeId else f.incoming eid
    core := some { c with graphRevision := c.graphRevision + 1, edgeCount := c.edgeCount + 1 } }

def stageDependencyEdge (a : StageArgs) (f : FlowStore) : FlowOutcome := do
  ensure (a.upstreamEid ≠ a.downstreamEid) (.fail .selfReferencingEdge)
  let c ← demand f.core (.fail .flowNotFound)
  ensure (c.publicFlowState.isTerminal = false) (.fail .flowAlreadyTerminal)
  ensure (toString c.graphRevision = a.expectedGraphRevision) (.fail .staleGraphRevision)
  ensure (a.upstreamEid ∈ f.members) (.fail .executionNotInFlow)
  ensure (a.downstreamEid ∈ f.members) (.fail .executionNotInFlow)
  ensure (f.detectCycle a.downstreamEid a.upstreamEid = false) (.fail .cycleDetected)
  ensure (f.edge a.edgeId).isNone (.fail .dependencyAlreadyExists)
  return (.ok [a.edgeId,toString (c.graphRevision + 1)],f.addEdge c a)

end FlowStore

inductive FlowOp where
  | createFlow (flowId : String)
  | addExecutionToFlow (a : FlowStore.MemberArgs)
  | stageDependencyEdge (a : FlowStore.StageArgs)

def FlowOp.outcome : FlowOp → FlowStore → FlowOutcome
  | .createFlow flowId => FlowStore.createFlow flowId
  | .addExecutionToFlow a => FlowStore.addExecutionToFlow a
  | .stageDependencyEdge a => FlowStore.stageDependencyEdge a

def flowNext (op : FlowOp) (f : FlowStore) : FlowStore := (commit f (op.outcome f)).2

/-- The keys after a list of calls on a flow that does not exist yet. -/
def flowRun (ops : List FlowOp) : FlowStore := runFrom flowNext {} ops

namespace FlowStore
variable {f g : FlowStore} {c : FlowCore} {a : StageArgs} {u v : ExecutionId} {e : String}

/-- Some staged edge leads from one execution to the other. -/
def precedes (f : FlowStore) (u v : ExecutionId) : Prop :=
  ∃ e p, f.edge e = some p ∧ p.upstreamExecutionId = u ∧ p.downstreamExecutionId = v

/-- The counters of the flow, once it exists. -/
structure Counted (f : FlowStore) (edges : Finset String) : Prop where
  staged : ∀ e, (f.edge e).isSome ↔ e ∈ edges
  absent : f.core = none → f.members = ∅ ∧ edges = ∅
  nodeCount : ∀ c, f.core = some c → c.nodeCount = f.members.card
  edgeCount : ∀ c, f.core = some c → c.edgeCount = edges.card
  graphRevision : ∀ c, f.core = some c → c.graphRevision = f.members.card + edges.card

/-- The edges are listed with their upstream and lie between members, no path of them is closed,
and the counters are those of the members and of the edges. -/
structure Sound (f : FlowStore) : Prop where
  listed : ∀ u e, e ∈ f.outgoing u ↔ ∃ p, f.edge e = some p ∧ p.upstreamExecutionId = u
  endpoints : ∀ e p, f.edge e = some p → p.upstreamExecutionId ∈ f.members ∧ p.downstreamExecutionId ∈ f.members
  acyclic : Acyclic f.precedes
  counted : ∃ edges, f.Counted edges

theorem mem_listEdge {edges : List String} {x : String} : x ∈ listEdge edges e ↔ x = e ∨ x ∈ edges := by
  unfold listEdge
  split
  · rename_i h
    exact ⟨.inr,fun hx => hx.elim (fun hx => hx ▸ h) id⟩
  · simp [or_comm]

theorem mem_successors : v ∈ f.successors u ↔ f.leads u v := by
  simp [successors,leads,Option.filter_eq_some_iff,v.nonempty]

theorem Sound.mem_successors (h : f.Sound) : v ∈ f.successors u ↔ f.precedes u v := by
  rw [FlowStore.mem_successors]
  constructor
  · rintro ⟨e,he,q,hq,hv⟩
    obtain ⟨p,hp,hu⟩ := (h.listed u e).mp he
    obtain rfl : p = q := Option.some.inj (hp.symm.trans hq)
    exact ⟨e,p,hp,hu,hv⟩
  · rintro ⟨e,p,hp,hu,hv⟩
    exact ⟨e,(h.listed u e).mpr ⟨p,hp,hu⟩,p,hp,hv⟩

/-- The search comes to its end in every store. It finds the target or too many nodes, if they are there. -/
theorem detectCycle_exact (f : FlowStore) (startEid targetEid : ExecutionId) : (∃ enough, ∀ passes ≥ enough,
      f.detectCycleWithin passes startEid targetEid = some (f.detectCycle startEid targetEid)) ∧
    (f.detectCycle startEid targetEid = true ↔ ReflTransGen f.leads startEid targetEid ∨
      ∃ nodes : Finset ExecutionId, maxCycleCheckNodes < nodes.card ∧
        ∀ x ∈ nodes, ReflTransGen f.leads startEid x) := by
  refine ⟨⟨maxCycleCheckNodes + 2,fun passes enough => searchWithin_eq_search (Nat.zero_le _) enough le_rfl⟩,?_⟩
  have same : f.leads = fun u v => v ∈ f.successors u := by
    funext u v
    exact propext mem_successors.symm
  rw [detectCycle,search_eq_true_iff,same]

theorem Sound.unreachable (h : f.Sound) (hd : f.detectCycle v u = false) : ¬ ReflTransGen f.precedes v u := by
  obtain ⟨members,avoids,hstart,-⟩ := (search_eq_false_iff _ _ _ _).mp hd
  have same : (fun x y => y ∈ f.successors x) = f.precedes := by
    funext x y
    exact propext h.mem_successors
  rw [← same]
  exact avoids.unreachable hstart

private theorem precedes_addEdge (fresh : f.edge a.edgeId = none) :
    (f.addEdge c a).precedes u v ↔ f.precedes u v ∨ (u = a.upstreamEid ∧ v = a.downstreamEid) := by
  constructor
  · rintro ⟨e,p,hp,rfl,rfl⟩
    by_cases he : e = a.edgeId
    · simp only [addEdge,he,if_true,Option.some.injEq] at hp
      subst hp
      exact .inr ⟨rfl,rfl⟩
    · simp only [addEdge,he,if_false] at hp
      exact .inl ⟨e,p,hp,rfl,rfl⟩
  · rintro (⟨e,p,hp,hu,hv⟩ | ⟨rfl,rfl⟩)
    · have he : e ≠ a.edgeId := fun he => by simp [he,fresh] at hp
      exact ⟨e,p,by simp [addEdge,he,hp],hu,hv⟩
    · exact ⟨a.edgeId,_,if_pos rfl,rfl,rfl⟩

theorem Sound.createFlow {flowId : String} {reply : Reply} (h : f.Sound)
    (hok : createFlow flowId f = .ok (reply,g)) : g.Sound := by
  unfold FlowStore.createFlow at hok
  split at hok
  · cases hok
    exact h
  · rename_i hc
    cases hok
    obtain ⟨edges,staged,absent,-,-,-⟩ := h.counted
    obtain ⟨hm,rfl⟩ := absent (by simpa using hc)
    refine ⟨h.listed,h.endpoints,h.acyclic,∅,staged,nofun,?_,?_,?_⟩ <;> rintro c ⟨⟩ <;> simp [hm]

variable {eid : ExecutionId} {edges : Finset String}

theorem Counted.addMember (h : f.Counted edges) (hc : f.core = some c)
    (new : eid ∉ f.members) : (f.addMember c eid).Counted edges := by
  have hcard := card_insert_of_notMem new
  refine ⟨h.staged,nofun,?_,?_,?_⟩ <;> rintro c' ⟨⟩
  · simp only [FlowStore.addMember,hcard,h.nodeCount c hc]
  · exact h.edgeCount c hc
  · simp only [FlowStore.addMember,hcard,h.graphRevision c hc]
    omega

theorem Sound.addMember (h : f.Sound) (hc : f.core = some c) (new : eid ∉ f.members) : (f.addMember c eid).Sound := by
  obtain ⟨edges,counted⟩ := h.counted
  refine ⟨h.listed,fun e p hp => ?_,h.acyclic,edges,counted.addMember hc new⟩
  exact (h.endpoints e p hp).imp (mem_insert_of_mem ·) (mem_insert_of_mem ·)

theorem Counted.addEdge (h : f.Counted edges) (hc : f.core = some c)
    (fresh : f.edge a.edgeId = none) : (f.addEdge c a).Counted (insert a.edgeId edges) := by
  have new : a.edgeId ∉ edges := fun hin => by simpa [fresh] using (h.staged a.edgeId).mpr hin
  have hcard := card_insert_of_notMem new
  refine ⟨fun e => ?_,nofun,?_,?_,?_⟩
  · by_cases he : e = a.edgeId
    · simp [FlowStore.addEdge,he]
    · simpa [FlowStore.addEdge,he] using h.staged e
  all_goals rintro c' ⟨⟩
  · exact h.nodeCount c hc
  · simp only [hcard,h.edgeCount c hc]
  · simp only [FlowStore.addEdge,hcard,h.graphRevision c hc]
    omega

theorem Sound.listed_addEdge (h : f.Sound) (fresh : f.edge a.edgeId = none) (u : ExecutionId) (e : String) :
    e ∈ (f.addEdge c a).outgoing u ↔ ∃ p, (f.addEdge c a).edge e = some p ∧ p.upstreamExecutionId = u := by
  have unlisted : a.edgeId ∉ f.outgoing u := by
    intro hin
    obtain ⟨p,hp,-⟩ := (h.listed u a.edgeId).mp hin
    simp [fresh] at hp
  by_cases he : e = a.edgeId <;> by_cases hu : u = a.upstreamEid
  · simp [addEdge,he,hu,mem_listEdge]
  · have hne : ¬ a.upstreamEid = u := fun heq => hu heq.symm
    simpa [addEdge,he,hu,hne] using unlisted
  · simpa [addEdge,he,hu,mem_listEdge] using h.listed a.upstreamEid e
  · simpa [addEdge,he,hu] using h.listed u e

theorem Sound.acyclic_addEdge (h : f.Sound) (hd : f.detectCycle a.downstreamEid a.upstreamEid = false)
    (fresh : f.edge a.edgeId = none) : Acyclic (f.addEdge c a).precedes := by
  have grown : (f.addEdge c a).precedes = fun u v => f.precedes u v ∨ (u = a.upstreamEid ∧ v = a.downstreamEid) := by
    funext u v
    exact propext (precedes_addEdge fresh)
  rw [grown]
  exact h.acyclic.insert (h.unreachable hd)

theorem Sound.addEdge (h : f.Sound) (hc : f.core = some c) (hu : a.upstreamEid ∈ f.members)
    (hv : a.downstreamEid ∈ f.members) (hd : f.detectCycle a.downstreamEid a.upstreamEid = false)
    (fresh : f.edge a.edgeId = none) : (f.addEdge c a).Sound := by
  obtain ⟨edges,counted⟩ := h.counted
  refine ⟨h.listed_addEdge fresh,fun e p hp => ?_,h.acyclic_addEdge hd fresh,_,counted.addEdge hc fresh⟩
  by_cases he : e = a.edgeId
  · simp only [FlowStore.addEdge,he,if_true,Option.some.injEq] at hp
    subst hp
    exact ⟨hu,hv⟩
  · exact h.endpoints e p (by simpa [FlowStore.addEdge,he] using hp)

end FlowStore

theorem flowNext_sound (f : FlowStore) (op : FlowOp) (h : f.Sound) : (flowNext op f).Sound := by
  refine commit_induction (P := FlowStore.Sound) h fun reply t hok => ?_
  cases op with
  | createFlow => exact h.createFlow hok
  | addExecutionToFlow =>
    simp only [FlowOp.outcome,FlowStore.addExecutionToFlow,bind_ok,demand_ok,ensure_ok] at hok
    obtain ⟨c,hc,_,-,_,-,_,-,hok⟩ := hok
    split at hok
    · cases hok
      exact h
    · rename_i new
      cases hok
      exact h.addMember hc new
  | stageDependencyEdge =>
    simp only [FlowOp.outcome,FlowStore.stageDependencyEdge,bind_ok,demand_ok,ensure_ok] at hok
    obtain ⟨_,-,c,hc,_,-,_,-,_,hu,_,hv,_,hd,_,fresh,hok⟩ := hok
    cases hok
    exact h.addEdge hc hu hv hd (by simpa using fresh)

theorem flowRun_sound (ops : List FlowOp) : (flowRun ops).Sound := by
  refine runFrom_invariant (fun f op h => flowNext_sound f op h) ?_ ops
  refine ⟨by simp,by simp,fun x hcycle => ?_,∅,by simp,by simp,nofun,nofun,nofun⟩
  obtain ⟨y,⟨e,p,hp,-⟩,-⟩ := TransGen.head'_iff.mp hcycle
  cases hp

/-- In every run, no path of staged edges leads back to where it started, both ends of every edge
are members, and the counters are the number of members, the number of edges and their sum. -/
theorem flow_graph_is_acyclic (ops : List FlowOp) : (∀ x, ¬ TransGen (flowRun ops).precedes x x) ∧
    (∀ u v, (flowRun ops).precedes u v → u ∈ (flowRun ops).members ∧ v ∈ (flowRun ops).members) ∧
    ∃ edges : Finset String, (∀ e, ((flowRun ops).edge e).isSome ↔ e ∈ edges) ∧
      ∀ c, (flowRun ops).core = some c → c.nodeCount = (flowRun ops).members.card ∧
        c.edgeCount = edges.card ∧ c.graphRevision = (flowRun ops).members.card + edges.card := by
  obtain ⟨-,endpoints,acyclic,edges,counted⟩ := flowRun_sound ops
  refine ⟨acyclic,?_,edges,counted.staged,fun c hc => ?_⟩
  · rintro u v ⟨e,p,hp,rfl,rfl⟩
    exact endpoints e p hp
  · exact ⟨counted.nodeCount c hc,counted.edgeCount c hc,counted.graphRevision c hc⟩

end FlowFabric
