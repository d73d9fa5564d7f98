import FlowFabric.Postgres.Dispatch

/-! Building the graph of a flow, and cancelling the flow. -/
namespace FlowFabric.Postgres
open Foundation Option Method

variable (f : Uuid)

def createFlow (db : Db) : Method :=
  if (db.flows.lookup f).isSome = true then .ok (.alreadySatisfied,db)
  else .ok (.created,{ db with flows := db.flows.insert f {} })

def FlowRow.revised (row : FlowRow) : FlowRow := { row with graphRevision := row.graphRevision + 1 }

def addExecutionToFlow (f e : Uuid) (now : Int) (db : Db) : Method := do
  let flow ← demand (db.flows.lookup f) (.invalidInput "flow_not_found")
  ensure (flow.publicFlowState = .opened) (.invalidInput "flow_already_terminal")
  let rows ← demand (db.rowsOf e) (.invalidInput "execution_not_found")
  match rows.core.flowId with
  | none => return (.added,({ db with flows := db.flows.update f FlowRow.revised } : Db).write e ⟨.joinFlow f,now⟩)
  | some other =>
    ensure (other = f) (.invalidInput ("already_member_of_different_flow:" ++ toString other))
    return (.alreadyMember,db)

structure StageArgs where
  (flowId edgeId upstream downstream : Uuid)
  expectedGraphRevision : Nat

variable (db : Db)

def Db.isMember (f e : Uuid) : Prop := (db.rowsOf e).any (·.core.flowId = some f) = true

instance (db : Db) (f e : Uuid) : Decidable (db.isMember f e) := inferInstanceAs (Decidable (_ = true))

def stageDependencyEdge (a : StageArgs) (db : Db) : Method := do
  ensure (a.upstream ≠ a.downstream) (.invalidInput "self_referencing_edge")
  let flow ← demand (db.flows.lookup a.flowId) (.invalidInput "flow_not_found")
  ensure (flow.publicFlowState = .opened) (.invalidInput "flow_already_terminal")
  ensure (flow.graphRevision = a.expectedGraphRevision) (.contention .staleGraphRevision)
  ensure (db.isMember a.flowId a.upstream ∧ db.isMember a.flowId a.downstream) (.invalidInput "execution_not_in_flow")
  ensure (db.edges.lookup (a.flowId,a.edgeId) = none) .dependencyAlreadyExists
  return (.staged (flow.graphRevision + 1),
    { db with
      flows := db.flows.update a.flowId FlowRow.revised
      edges := db.edges.insert (a.flowId,a.edgeId) ⟨a.upstream,a.downstream,false⟩ })

theorem stageDependencyEdge_db (a : StageArgs) (db : Db) : (stageDependencyEdge a db).db db = db ∨
      db.isMember a.flowId a.downstream ∧ db.edges.lookup (a.flowId,a.edgeId) = none ∧
        (stageDependencyEdge a db).db db = { db with
            flows := db.flows.update a.flowId FlowRow.revised
            edges := db.edges.insert (a.flowId,a.edgeId) ⟨a.upstream,a.downstream,false⟩ } := by
  simp only [stageDependencyEdge,db_ensure,db_demand,db_pure]
  split
  · cases db.flows.lookup a.flowId with
    | none => exact .inl rfl
    | some =>
      simp only [map_some,getD_some,← ite_and]
      split
      · rename_i h
        exact .inr ⟨h.2.2.1.2,h.2.2.2,rfl⟩
      · exact .inl rfl
  · exact .inl rfl

structure ApplyArgs where
  (flowId edgeId downstream : Uuid)

/-- The group of the downstream execution that the caller names, which is not compared with that of the
edge, counts one more upstream. The execution itself is not written. -/
def Db.appliedTo (a : ApplyArgs) : Db :=
  { db with
    edges := db.edges.update (a.flowId,a.edgeId) fun edge => { edge with applied := true }
    groups := db.groups.upsert (a.flowId,a.downstream) { running := 1 } fun g => { g with running := g.running + 1 } }

def applyDependencyToChild (a : ApplyArgs) (db : Db) : Method := do
  let edge ← demand (db.edges.lookup (a.flowId,a.edgeId)) (.invalidInput "edge_not_found")
  if edge.applied = true then return (.alreadyApplied,db)
  else
    return (.applied (((db.groups.lookup (a.flowId,a.downstream)).map GroupRow.running).getD 0 + 1),db.appliedTo a)

theorem applyDependencyToChild_db (a : ApplyArgs) (db : Db) : (applyDependencyToChild a db).db db = db ∨
      ∃ edge, db.edges.lookup (a.flowId,a.edgeId) = some edge ∧ edge.applied = false ∧
        (applyDependencyToChild a db).db db = db.appliedTo a := by
  rw [applyDependencyToChild,db_demand]
  cases db.edges.lookup (a.flowId,a.edgeId) with
  | none => exact .inl rfl
  | some edge =>
    rw [map_some,getD_some]
    split
    · exact .inl rfl
    · rename_i hn
      exact .inr ⟨edge,rfl,Bool.not_eq_true _ ▸ hn,rfl⟩

def Db.staged (f d : Uuid) : Bool := db.edges.rows.any fun edge => edge.1.1 = f ∧ edge.2.downstream = d

def EdgeDependencyPolicy.valid : EdgeDependencyPolicy → Bool
  | .quorum k _ => 1 ≤ k
  | .allOf | .anyOf _ => true

def setEdgeGroupPolicy (f d : Uuid) (policy : EdgeDependencyPolicy) (db : Db) : Method := do
  ensure (policy.valid = true) (.invalidInput "quorum k must be >= 1")
  ensure (db.staged f d = false) (.invalidInput "edge_group_policy_already_fixed: dependencies already staged")
  if (db.groups.lookup (f,d)).map GroupRow.policy = some policy then return (.policyAlreadySet,db)
  else
    return (.policySet,
      { db with groups := db.groups.upsert (f,d) { policy := policy } fun g => { g with policy := policy } })

theorem setEdgeGroupPolicy_db (f d : Uuid) (policy : EdgeDependencyPolicy) (db : Db) :
    (setEdgeGroupPolicy f d policy db).db db = db ∨ db.staged f d = false ∧ (setEdgeGroupPolicy f d policy db).db db =
        { db with groups := db.groups.upsert (f,d) { policy := policy } fun g => { g with policy := policy } } := by
  rw [setEdgeGroupPolicy,db_ensure]
  split
  · rw [db_ensure]
    split
    · rename_i hs
      split
      · exact .inl rfl
      · exact .inr ⟨hs,rfl⟩
    · exact .inl rfl
  · exact .inl rfl

/-! ### Cancelling a flow -/

variable (policy : CancelFlowPolicy)

def Db.selected : List Uuid :=
  ((db.membersOf f).filter fun m => policy.selects m.2.core.lifecyclePhase = true).map Prod.fst

def Db.waitingGroups : List (Uuid × Uuid) := (db.groups.rows.filter fun g => g.1.1 = f ∧ 0 < g.2.running).map Prod.fst

def Db.flipFlow : Db :=
  { db with flows := db.flows.update f fun row => { row with publicFlowState := .cancelled } }

def Db.cancelMembers (now : Int) (members : List Uuid) : Db :=
  members.foldl (fun db e => db.write e ⟨.cancelMember policy,now⟩) db

def cancelFlow (now : Int) (db : Db) : Method :=
  match db.flows.lookup f with
  | none => .ok (.cancelled [],db)
  | some _ =>
    let cancelled := (db.flipFlow f).cancelMembers policy now (db.selected f policy)
    .ok (.cancelled (db.selected f policy),
      if policy = .cancelPending then cancelled.enqueueAll (db.waitingGroups f) else cancelled)

def cancelFlowHeader (reason : String) (now : Int) (db : Db) : Method := do
  let flow ← demand (db.flows.lookup f) (.notFound "flow")
  if flow.publicFlowState = .opened then
    let members := ((db.membersOf f).filter fun m => ¬ m.2.core.isEnded).map Prod.fst
    return (.cancelled members,members.foldl (fun db e => db.write e ⟨.cancelHeader reason,now⟩) (db.flipFlow f))
  else return (.alreadyTerminal ((db.membersOf f).map Prod.fst),db)

end FlowFabric.Postgres
