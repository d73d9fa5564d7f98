import FlowFabric.Postgres.Database

/-! Completion events and edge groups. An event is marked in one transaction, and each of the edges
that lead on from its execution is advanced in one of its own. -/
namespace FlowFabric.Postgres

inductive OutcomeKind where
  | success | fail | skip
  deriving DecidableEq

def Outcome.kind : Outcome → OutcomeKind
  | .success => .success
  | .skipped => .skip
  | _ => .fail

inductive Decision where
  | pending
  | satisfied (cancelSiblings : Bool)
  | impossible
  deriving DecidableEq

/-- The quorum is an unsigned integer of 32 bits that is read as a signed one. -/
def asI32 (k : Nat) : Int := if k < 2 ^ 31 then k else k - 2 ^ 32

def EdgeDependencyPolicy.evaluate (policy : EdgeDependencyPolicy) (success fail skip total : Nat) : Decision :=
  match policy with
  | .allOf =>
    if success = total ∧ 0 < total then .satisfied false
    else if 0 < fail + skip then .impossible
    else .pending
  | .anyOf onSatisfied =>
    if 1 ≤ success then .satisfied (onSatisfied ≠ .letRun)
    else if total ≤ fail + skip ∧ 0 < total then .impossible
    else .pending
  | .quorum k onSatisfied =>
    if asI32 k ≤ success then .satisfied (onSatisfied ≠ .letRun)
    else if (total : Int) - ((fail + skip : Nat) : Int) < asI32 k then .impossible
    else .pending

namespace GroupRow

def total (g : GroupRow) : Nat := g.success + g.fail + g.skip + g.running

def decision (g : GroupRow) : Decision := g.policy.evaluate g.success g.fail g.skip g.total

def count (outcome : OutcomeKind) (g : GroupRow) : GroupRow :=
  match outcome with
  | .success => { g with running := g.running - 1, success := g.success + 1 }
  | .fail => { g with running := g.running - 1, fail := g.fail + 1 }
  | .skip => { g with running := g.running - 1, skip := g.skip + 1 }

end GroupRow

variable (db : Db)

/-- The upstreams of the group that have not ended, apart from the one that decided it. -/
def Db.siblings (f upstream downstream : Uuid) : List Uuid :=
  (db.edges.rows.filter fun edge => edge.1.1 = f ∧ edge.2.downstream = downstream ∧
    edge.2.upstream ≠ upstream ∧ (db.rowsOf edge.2.upstream).any
      (fun rows => ¬ rows.core.isEnded ∧ rows.core.publicState ≠ .skipped)).map (·.2.upstream)

def Db.enqueue (f upstream downstream : Uuid) : Db :=
  { db with
    pendingCancelGroups :=
      if (f,downstream) ∈ db.pendingCancelGroups then db.pendingCancelGroups
      else db.pendingCancelGroups ++ [(f,downstream)]
    groups := db.groups.update (f,downstream) fun g =>
      { g with cancelSiblings := true, members := db.siblings f upstream downstream } }

def Db.enqueueAll (groups : List (Uuid × Uuid)) : Db :=
  { db with pendingCancelGroups := db.pendingCancelGroups ++ groups.filter (· ∉ db.pendingCancelGroups) }

/-- The transaction of one edge. The decision is applied again at every event that finds it. -/
def advanceEdgeGroup (f upstream : Uuid) (outcome : OutcomeKind) (now : Int) (db : Db) (downstream : Uuid) : Db :=
  match db.groups.lookup (f,downstream) with
  | none => db
  | some g =>
    let stored := { db with groups := db.groups.insert (f,downstream) (g.count outcome) }
    match (g.count outcome).decision with
    | .pending => stored
    | .satisfied cancelSiblings =>
      let unblocked := stored.write downstream ⟨.unblock,now⟩
      if cancelSiblings = true ∧ g.cancelSiblings = false then unblocked.enqueue f upstream downstream
      else unblocked
    | .impossible => stored.write downstream ⟨.skip f,now⟩

/-- The downstreams of the edges from the execution, applied or not. -/
def Db.outgoing (f e : Uuid) : List Uuid :=
  (db.edges.rows.filter fun edge => edge.1.1 = f ∧ edge.2.upstream = e).map (·.2.downstream)

def Db.marked (id : Nat) (now : Int) : Db :=
  { db with events := db.events.modify id fun event => { event with dispatchedAtMs := some now } }

/-- The call may come to an end before some of the edges, because the process ends or because the
transaction of an edge is given up. The event stays marked then. -/
def dispatchCompletion (id : Nat) (stop : Option Nat) (now : Int) (db : Db) : Except EngineError Answer × Db :=
  match db.events[id]? with
  | none => (.ok .noOp,db)
  | some event =>
    if event.dispatchedAtMs.isSome = true then (.ok .noOp,db)
    else
      match event.completion.flowId with
      | none => (.ok (.advanced 0),db.marked id now)
      | some f =>
        let edges := db.outgoing f event.executionId
        let reached := edges.take (stop.getD edges.length)
        let advanced := reached.foldl (advanceEdgeGroup f event.executionId event.completion.outcome.kind now)
          (db.marked id now)
        (if reached.length < edges.length then .error (.contention .retryExhausted)
          else .ok (.advanced edges.length),advanced)

structure ScannerFilter where
  (eventNamespace instanceTag : Option String := none)

def batchLimit : Nat := 1000

variable (filter : ScannerFilter)

/-- The event is one the reconciler looks for. -/
def EventRow.stale (cutoff : Int) (event : EventRow) : Bool :=
  event.dispatchedAtMs = none ∧ event.committedAtMs < cutoff ∧
    (∀ ns ∈ filter.eventNamespace, event.completion.eventNamespace = some ns) ∧
    (∀ tag ∈ filter.instanceTag, event.completion.instanceTag = some tag)

def Db.staleEvents (cutoff : Int) : List Nat :=
  ((List.range db.events.length).filter fun id => db.events[id]?.any (EventRow.stale filter cutoff)).take batchLimit

/-- Every event that was found is dispatched again, and an error does not stop the tick. -/
def reconcileTick (staleThresholdMs : Int) (stop : Nat → Option Nat) (now : Int)
    (db : Db) : Except EngineError Answer × Db :=
  let stale := db.staleEvents filter (now - staleThresholdMs)
  (.ok (.reconciled stale.length),stale.foldl (fun db id => (dispatchCompletion id (stop id) now db).2) db)

/-! ### Cancelling siblings -/

def GroupRow.drained (g : GroupRow) : GroupRow := { g with cancelSiblings := false, members := [] }

variable (f d : Uuid)

def Db.dequeue : Db :=
  { db with pendingCancelGroups := db.pendingCancelGroups.filter (· ≠ (f,d)) }

def Db.drain : Db := ({ db with groups := db.groups.update (f,d) GroupRow.drained } : Db).dequeue f d

/-- edge_cancel_dispatcher on one group. -/
def dispatchOneGroup (now : Int) (db : Db) : Db :=
  if (f,d) ∈ db.pendingCancelGroups then
    match db.groups.lookup (f,d) with
    | none => db.dequeue f d
    | some g =>
      if g.cancelSiblings = true then
        (g.members.foldl (fun db e => db.write e ⟨.cancelSibling,now⟩) db).drain f d
      else db
  else db

/-- edge_cancel_reconciler on one group. -/
def reconcileOneGroup (db : Db) : Db :=
  if (f,d) ∈ db.pendingCancelGroups then
    match db.groups.lookup (f,d) with
    | none => db.dequeue f d
    | some g =>
      if g.cancelSiblings = false then db.dequeue f d
      else if ∃ e ∈ g.members, (db.rowsOf e).any (fun rows => ¬ rows.core.isEnded) = true then db
      else db.drain f d
  else db

end FlowFabric.Postgres
