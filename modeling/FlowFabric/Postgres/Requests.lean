import FlowFabric.Postgres.FlowStaging
import FlowFabric.Postgres.Waitpoints

/-! The partition as one machine, and the statements that a request is made of. What they leave of the rows
of an execution comes from calls on these rows alone. -/
namespace FlowFabric.Postgres
open Foundation Option

inductive Request where
  | call (executionId : Uuid) (op : Op)
  | replayExecution (executionId : Uuid)
  | createExecution (executionId : Uuid) (a : CreateArgs)
  | suspend (executionId : Uuid) (h : Handle) (a : SuspendArgs)
  | createWaitpoint (executionId : Uuid) (waitpointId waitpointKey : String) (expiresInMs : Nat)
  | deliverSignal (a : DeliverArgs)
  | closeWaitpoint (waitpointId : String)
  | rotateWaitpointHmacSecretAll (a : RotateArgs)
  | seedWaitpointHmacSecret (a : SeedArgs)
  | createFlow (flowId : Uuid)
  | addExecutionToFlow (flowId executionId : Uuid)
  | stageDependencyEdge (a : StageArgs)
  | applyDependencyToChild (a : ApplyArgs)
  | setEdgeGroupPolicy (flowId downstream : Uuid) (policy : EdgeDependencyPolicy)
  | cancelFlow (flowId : Uuid) (policy : CancelFlowPolicy)
  | cancelFlowHeader (flowId : Uuid) (reason : String)
  | dispatchCompletion (eventId : Nat) (stop : Option Nat)
  | reconcileTick (filter : ScannerFilter) (staleThresholdMs : Int) (stop : Nat → Option Nat)
  | dispatchOneGroup (flowId downstream : Uuid)
  | reconcileOneGroup (flowId downstream : Uuid)

structure Arrival where
  request : Request
  now : Int

def Method.result (db : Db) (m : Method) : Except EngineError Answer × Db := (m.map Prod.fst,m.db db)

def serve (q : Arrival) (db : Db) : Except EngineError Answer × Db :=
  match q.request with
  | .call e op => (callOn e ⟨op,q.now⟩ db).result db
  | .replayExecution e => (replayOn e q.now db).result db
  | .createExecution e a => (createExecution e a q.now db).result db
  | .suspend e h a => (suspendOn e h a q.now db).result db
  | .createWaitpoint e id key expiresInMs => (createWaitpoint e id key expiresInMs q.now db).result db
  | .deliverSignal a => (deliverSignal a q.now db).result db
  | .closeWaitpoint id => (.ok .nothing,closeWaitpoint id q.now db)
  | .rotateWaitpointHmacSecretAll a => (keystoreOn (rotateWaitpointHmacSecretAll a q.now) db).result db
  | .seedWaitpointHmacSecret a => (keystoreOn (seedWaitpointHmacSecret a q.now) db).result db
  | .createFlow f => (createFlow f db).result db
  | .addExecutionToFlow f e => (addExecutionToFlow f e q.now db).result db
  | .stageDependencyEdge a => (stageDependencyEdge a db).result db
  | .applyDependencyToChild a => (applyDependencyToChild a db).result db
  | .setEdgeGroupPolicy f d policy => (setEdgeGroupPolicy f d policy db).result db
  | .cancelFlow f policy => (cancelFlow f policy q.now db).result db
  | .cancelFlowHeader f reason => (cancelFlowHeader f reason q.now db).result db
  | .dispatchCompletion id stop => dispatchCompletion id stop q.now db
  | .reconcileTick filter staleThresholdMs stop => reconcileTick filter staleThresholdMs stop q.now db
  | .dispatchOneGroup f d => (.ok .nothing,dispatchOneGroup f d q.now db)
  | .reconcileOneGroup f d => (.ok .nothing,reconcileOneGroup f d db)

def after (q : Arrival) (db : Db) : Db := (serve q db).2

namespace Client

/-- A partition with one execution and one secret. -/
def partition : Db :=
  { execs := (∅ : Table Uuid Rows).insert 1 fresh
    keystore := (∅ : Keystore).insert "k1" ⟨"51",0,true⟩ }

def takes (e : Uuid) (w : Worker) (now : Int) : Arrival :=
  ⟨.call e (.claim { lane := "default", worker := w, leaseTtlMs := 10 }),now⟩

def approves (waitpointId : String) (signalId : String := "sig") : DeliverArgs :=
  ⟨1,waitpointId,hmacSign "51" "k1" 1 waitpointId,⟨signalId,"approve","user","carol"⟩⟩

/-- The token is known to be accepted, so no run computes the digest. -/
theorem serve_approves {id signalId : String} {wp : WaitpointRow} {db : Db} (hl : db.waitpoints.lookup id = some wp)
    (hk : db.keystore.fetchKid "k1" = some "51")
    (hw : (wp.executionId,wp.tokenKid,wp.token) = (1,"k1",hmacSign "51" "k1" 1 id)) (now : Int) :
    authenticate (approves id signalId) db = .ok wp ∧
      serve ⟨.deliverSignal (approves id signalId),now⟩ db = (deliverTo wp (approves id signalId) now db).result db := by
  obtain ⟨e,kid,token,key,expires⟩ := wp
  cases hw
  have plain : ':' ∉ "k1".toList := by decide
  have ha : authenticate (approves id signalId) db = .ok _ := authenticate_of_signed hl rfl hk plain rfl rfl
  exact ⟨ha,congrArg (Method.result db) (deliverSignal_of_ok ha now)⟩

end Client

/-! ### The rows of one execution -/

variable {q : Request} (f d : Uuid) {now : Int} {e : Uuid}

theorem rowsOf_of_step {db : Db} {r : Rows} (hr : db.rowsOf e = some r) (c : Call) {k : Committed → Method}
    (hk : ∀ done, step c r = .ok done → ∀ e', ((k done).db db).rowsOf e' = (db.commitOn e c.now done).rowsOf e')
    (e' : Uuid) : (Method.db db (step c r >>= k)).rowsOf e' = if e' = e then some (next c r) else db.rowsOf e' := by
  cases hs : step c r with
  | error =>
    rw [next_of_error hs,← hr]
    change db.rowsOf e' = _
    split
    · rename_i he
      rw [he]
    · rfl
  | ok done =>
    change ((k done).db db).rowsOf e' = _
    rw [hk done hs,Db.rowsOf_commitOn,next_of_ok hs]

theorem rowsOf_callOn (e : Uuid) (c : Call) (db : Db) (e' : Uuid) : ((callOn e c db).db db).rowsOf e' =
      if e' = e ∧ c.op.own = true then (db.rowsOf e).map (next c) else db.rowsOf e' := by
  rw [callOn,Method.db_ensure]
  by_cases ho : c.op.own = true
  · rw [if_pos ho,Method.db_demand]
    simp only [ho,and_true]
    cases hr : db.rowsOf e with
    | none =>
      split
      · rename_i he
        subst he
        exact hr
      · rfl
    | some => exact rowsOf_of_step hr c (fun _ _ _ => rfl) e'
  · rw [if_neg ho,if_neg fun h => ho h.2]

theorem deliverSignal_of_error {a : DeliverArgs} {db : Db} {err : EngineError}
    (ha : authenticate a db = .error err) : (deliverSignal a now db).db db = db := by
  rw [deliverSignal,ha]
  rfl

theorem rowsOf_deliverSignal {a : DeliverArgs} {db : Db} {row : WaitpointRow}
    (ha : authenticate a db = .ok row) (e' : Uuid) : ((deliverSignal a now db).db db).rowsOf e' =
      if e' = a.executionId then (db.rowsOf a.executionId).map (next ⟨.deliver row.waitpointKey a.signal,now⟩)
      else db.rowsOf e' := by
  rw [deliverSignal,ha]
  change (Method.db db (demand (db.rowsOf a.executionId) _ >>= _)).rowsOf e' = _
  rw [Method.db_demand]
  cases hr : db.rowsOf a.executionId with
  | none =>
    split
    · rename_i he
      subst he
      exact hr
    · rfl
  | some =>
    refine rowsOf_of_step hr ⟨.deliver row.waitpointKey a.signal,now⟩ ?_ e'
    intro done _ e''
    split <;> rfl

/-! ### The statements of a request -/

/-- The calls on the rows of an execution that a request comes down to. -/
def Request.issues (q : Request) (e : Uuid) (r : Rows) (op : Op) : Prop :=
  match q with
  | .call e' op' => e = e' ∧ op = op' ∧ op'.own = true
  | .replayExecution e' => e = e' ∧ op = .replayExecution
  | .suspend e' h a => e = e' ∧ ∃ kid, op = .worker h (.suspend a false kid)
  | .deliverSignal a => e = a.executionId ∧ ∃ key, op = .deliver key a.signal
  | .closeWaitpoint _ => ∃ key, op = .close key
  | .addExecutionToFlow f e' => e = e' ∧ op = .joinFlow f ∧ r.core.flowId = none
  | .cancelFlow _ policy => op = .cancelMember policy
  | .cancelFlowHeader _ reason => op = .cancelHeader reason
  | .dispatchCompletion .. | .reconcileTick .. => op = .unblock ∨ ∃ f, op = .skip f
  | .dispatchOneGroup .. => op = .cancelSibling
  | _ => False

def Request.dispatches : Request → Bool
  | .dispatchCompletion .. | .reconcileTick .. => true
  | _ => false

def Request.tokens : Request → Bool
  | .suspend .. | .createWaitpoint .. | .deliverSignal _ | .closeWaitpoint _ | .rotateWaitpointHmacSecretAll _
  | .seedWaitpointHmacSecret _ => true
  | _ => false

inductive Statement (q : Request) (db : Db) : Db → Prop
  | commit {e r c done} (hq : q.issues e r c.op) (hr : db.rowsOf e = some r) (hs : step c r = .ok done) :
      Statement q db (db.commitOn e c.now done)
  | create (e a) (now : Int) (hq : q = .createExecution e a) (hn : db.rowsOf e = none) :
      Statement q db { db with execs := db.execs.insert e { core := .created a now } }
  | beside {flows pendingCancelGroups} : Statement q db { db with flows, pendingCancelGroups }
  | tokens {waitpoints suspendDedup keystore} (hq : q.tokens = true) :
      Statement q db { db with waitpoints, suspendDedup, keystore }
  | stage (a) (hq : q = .stageDependencyEdge a) (hm : db.isMember a.flowId a.downstream)
      (hn : db.edges.lookup (a.flowId,a.edgeId) = none) : Statement q db
      { db with edges := db.edges.insert (a.flowId,a.edgeId) ⟨a.upstream,a.downstream,false⟩ }
  | apply (a edge) (hq : q = .applyDependencyToChild a) (hl : db.edges.lookup (a.flowId,a.edgeId) = some edge)
      (hn : edge.applied = false) : Statement q db (db.appliedTo a)
  | policy (f d p) (hq : q = .setEdgeGroupPolicy f d p) (hs : db.staged f d = false) : Statement q db
      { db with groups := db.groups.upsert (f,d) { policy := p } fun g => { g with policy := p } }
  | mark (id event) (now : Int) (hq : q.dispatches = true) (hl : db.events[id]? = some event)
      (hn : event.dispatchedAtMs = none) : Statement q db (db.marked id now)
  | count (f d g outcome) (hq : q.dispatches = true) (hl : db.groups.lookup (f,d) = some g) :
      Statement q db { db with groups := db.groups.insert (f,d) (g.count outcome) }
  | flag (k) (u : GroupRow → GroupRow) (hu : ∀ g, (u g).drained = g.drained) :
      Statement q db { db with groups := db.groups.update k u }
  | replay {e r done} {now : Int} (hr : db.rowsOf e = some r) (hs : step ⟨.replayExecution,now⟩ r = .ok done)
      (hq : q = .replayExecution e) (hk : r.skippedMember) : Statement q db (resetGroups e (db.commitOn e now done))

/-- The statements of a request, one after the other. -/
def Statements (q : Request) : Db → Db → Prop := Relation.ReflTransGen (Statement q)

namespace Statements
variable {q : Request} {db db' db'' : Db} {err : EngineError} {α : Type} {e : Uuid} {c : Call}

theorem refl (db : Db) : Statements q db db := Relation.ReflTransGen.refl

theorem trans (h : Statements q db db') (h' : Statements q db' db'') : Statements q db db'' :=
  Relation.ReflTransGen.trans h h'

theorem invariant {I : Db → Prop} (h : Statements q db db') (hI : ∀ db db', Statement q db db' → I db → I db')
    (hdb : I db) : I db' := by
  induction h with
  | refl => exact hdb
  | tail _ hs ih => exact hI _ _ hs ih

theorem one (h : Statement q db db') : Statements q db db' := Relation.ReflTransGen.single h

theorem besides {flows pendingCancelGroups} (h : Statements q { db with flows, pendingCancelGroups } db') :
    Statements q db db' := (one .beside).trans h

theorem foldl {f : Db → α → Db} (hf : ∀ db a, Statements q db (f db a)) (as : List α) (db : Db) :
    Statements q db (as.foldl f db) := by
  induction as generalizing db with
  | nil => exact refl db
  | cons a as ih => exact (hf db a).trans (ih (f db a))

theorem write (hq : ∀ r, db.rowsOf e = some r → q.issues e r c.op) : Statements q db (db.write e c) := by
  unfold Db.write
  cases hr : db.rowsOf e with
  | none => exact .refl _
  | some r =>
    rw [map_some]
    cases hs : step c r with
    | error => exact .refl _
    | ok => exact one (.commit (hq r hr) hr hs)

theorem ensure {p : Prop} [Decidable p] {k : Unit → Method}
    (hk : p → Statements q db ((k ()).db db)) : Statements q db (Method.db db (Foundation.ensure p err >>= k)) := by
  rw [Method.db_ensure]
  split
  · exact hk ‹p›
  · exact refl db

theorem demand {o : Option α} {k : α → Method} (hk : ∀ a, o = some a → Statements q db ((k a).db db)) :
    Statements q db (Method.db db (Foundation.demand o err >>= k)) := by
  cases o with
  | none => exact refl db
  | some a => exact hk a rfl

theorem step {r : Rows} {k : Committed → Method} (hq : q.issues e r c.op) (hr : db.rowsOf e = some r)
    (hk : ∀ done, Postgres.step c r = .ok done → Statements q (db.commitOn e c.now done) ((k done).db db)) :
    Statements q db (Method.db db (Postgres.step c r >>= k)) := by
  cases hs : Postgres.step c r with
  | error => exact .refl _
  | ok done => exact (one (.commit hq hr hs)).trans (hk done hs)

theorem write_members {policy : Op} (now : Int) (hq : ∀ e r, q.issues e r policy) (members : List Uuid) (db : Db) :
    Statements q db (members.foldl (fun db e => db.write e ⟨policy,now⟩) db) :=
  foldl (fun _ e => write fun r _ => hq e r) members db

end Statements

section
variable (db : Db)

private theorem cancelFlow_statements (f : Uuid) (policy : CancelFlowPolicy) (now : Int) :
    Statements (.cancelFlow f policy) db ((cancelFlow f policy now db).db db) := by
  unfold cancelFlow
  cases db.flows.lookup f with
  | none => exact .refl _
  | some =>
    have cancelled : Statements (.cancelFlow f policy) db
        ((db.flipFlow f).cancelMembers policy now (db.selected f policy)) :=
      .besides (.write_members now (by intros; rfl) _ (db.flipFlow f))
    dsimp only [Method.db_ok]
    split
    · exact cancelled.trans (.one .beside)
    · exact cancelled

end

section
variable {q : Request} (hq : q.dispatches = true)
include hq

theorem issues_of_dispatches {op : Op} (ho : op = .unblock ∨ ∃ f, op = .skip f) (e : Uuid) (r : Rows) :
    q.issues e r op := by
  cases q <;> first | exact ho | cases hq

private theorem advanceEdgeGroup_statements (f upstream : Uuid) (outcome : OutcomeKind) (now : Int) (db : Db)
    (downstream : Uuid) : Statements q db (advanceEdgeGroup f upstream outcome now db downstream) := by
  unfold advanceEdgeGroup
  cases hl : db.groups.lookup (f,downstream) with
  | none => exact .refl _
  | some g =>
    dsimp only
    have counted : Statements q db { db with groups := db.groups.insert (f,downstream) (g.count outcome) } :=
      .one (.count f downstream g outcome hq hl)
    cases (g.count outcome).decision with
    | pending => exact counted
    | satisfied =>
      have unblocked := counted.trans
        (.write (e := downstream) (c := ⟨.unblock,now⟩) fun r _ => issues_of_dispatches hq (.inl rfl) _ r)
      dsimp only
      split
      · refine (unblocked.trans (.one (.flag (f,downstream) _ ?_))).trans (.one .beside)
        exact fun _ => rfl
      · exact unblocked
    | impossible => exact counted.trans (.write fun r _ => issues_of_dispatches hq (.inr ⟨f,rfl⟩) _ r)

theorem dispatchCompletion_statements (id : Nat) (stop : Option Nat) (now : Int) (db : Db) :
    Statements q db (dispatchCompletion id stop now db).2 := by
  unfold dispatchCompletion
  cases hl : db.events[id]? with
  | none => exact .refl _
  | some event =>
    dsimp only
    split
    · exact .refl _
    · rename_i hn
      have marked : Statements q db (db.marked id now) := .one (.mark id event now hq hl (not_isSome_iff_eq_none.mp hn))
      cases event.completion.flowId with
      | none => exact marked
      | some f => exact marked.trans (.foldl (advanceEdgeGroup_statements hq f _ _ now) _ _)

end

theorem drain_statements (db : Db) : Statements q db (db.drain f d) :=
  (Statements.one (.flag (f,d) GroupRow.drained fun _ => rfl)).trans (.one .beside)

private theorem dispatchOneGroup_statements (now : Int) (db : Db) :
    Statements (.dispatchOneGroup f d) db (dispatchOneGroup f d now db) := by
  unfold dispatchOneGroup
  split
  · split
    · exact .one .beside
    · split
      · exact (Statements.write_members now (by intros; rfl) _ db).trans (drain_statements f d _)
      · exact .refl _
  · exact .refl _

private theorem reconcileOneGroup_statements (db : Db) :
    Statements (.reconcileOneGroup f d) db (reconcileOneGroup f d db) := by
  unfold reconcileOneGroup
  split
  · split
    · exact .one .beside
    · split
      · exact .one .beside
      · split
        · exact .refl _
        · exact drain_statements f d db
  · exact .refl _

theorem keystoreOn_statements (hq : q.tokens = true)
    (method : Keystore → Except EngineError (KeyReply × Keystore)) (db : Db) :
    Statements q db ((keystoreOn method db).db db) := by
  unfold keystoreOn
  cases method db.keystore with
  | error => exact .refl db
  | ok => exact .one (.tokens hq)

theorem after_statements (q : Arrival) (db : Db) : Statements q.request db (after q db) := by
  obtain ⟨request,now⟩ := q
  cases request with simp only [after,serve,Method.result]
  | call e op => exact .ensure fun ho => .demand fun _ hr => .step ⟨rfl,rfl,ho⟩ hr fun _ _ => .refl _
  | replayExecution e =>
    obtain h | ⟨r,done,hr,hs,h⟩ := replayOn_db e now db
    · rw [h]
      exact .refl db
    · rw [h]
      split
      · rename_i hk
        exact .one (.replay hr hs rfl hk)
      · exact .one (.commit (c := ⟨.replayExecution,now⟩) ⟨rfl,rfl⟩ hr hs)
  | createExecution e a =>
    unfold createExecution
    split
    · exact .refl _
    · exact .one (.create e a now rfl (not_isSome_iff_eq_none.mp ‹_›))
  | suspend e h a =>
    unfold suspendOn
    split
    · exact .refl _
    · refine .demand fun _ hr => ?_
      exact .step (c := ⟨.worker h (.suspend a false (db.keystore.currentActiveKid.map Prod.fst)),now⟩)
        ⟨rfl,_,rfl⟩ hr fun _ _ => .one (.tokens rfl)
  | createWaitpoint e id key expiresInMs => exact .demand fun _ _ => .ensure fun _ => .one (.tokens rfl)
  | deliverSignal a =>
    cases ha : authenticate a db with
    | error =>
      rw [deliverSignal_of_error ha]
      exact .refl db
    | ok row =>
      rw [deliverSignal,ha]
      refine .demand fun _ hr => ?_
      refine .step (c := ⟨.deliver row.waitpointKey a.signal,now⟩) ⟨rfl,_,rfl⟩ hr fun done _ => ?_
      split
      · exact .one (.tokens rfl)
      · exact .refl _
  | closeWaitpoint id =>
    unfold closeWaitpoint Db.closed
    split
    · split
      · exact (Statements.one (.tokens rfl)).trans (.write fun _ _ => ⟨_,rfl⟩)
      · exact .refl _
    · exact .refl _
  | rotateWaitpointHmacSecretAll | seedWaitpointHmacSecret => exact keystoreOn_statements rfl _ db
  | createFlow f =>
    unfold createFlow
    split
    · exact .refl _
    · exact .one .beside
  | addExecutionToFlow f e =>
    refine .demand fun _ _ => .ensure fun _ => .demand fun r hr => ?_
    cases hf : r.core.flowId with
    | none =>
      refine .besides (.write fun r' hr' => ?_)
      cases hr.symm.trans hr'
      exact ⟨rfl,rfl,hf⟩
    | some => exact .ensure fun _ => .refl _
  | stageDependencyEdge a =>
    rcases stageDependencyEdge_db a db with h | ⟨hm,hn,h⟩ <;> rw [h]
    · exact .refl db
    · exact (Statements.one (.stage a rfl hm hn)).trans (.one .beside)
  | applyDependencyToChild a =>
    rcases applyDependencyToChild_db a db with h | ⟨edge,hl,hn,h⟩ <;> rw [h]
    · exact .refl db
    · exact .one (.apply a edge rfl hl hn)
  | setEdgeGroupPolicy f d policy =>
    rcases setEdgeGroupPolicy_db f d policy db with h | ⟨hs,h⟩ <;> rw [h]
    · exact .refl db
    · exact .one (.policy f d policy rfl hs)
  | cancelFlow f policy => exact cancelFlow_statements db f policy now
  | cancelFlowHeader f reason =>
    refine .demand fun _ _ => ?_
    split
    · exact .besides (.write_members now (by intros; rfl) _ (db.flipFlow f))
    · exact .refl _
  | dispatchCompletion id stop => exact dispatchCompletion_statements rfl id stop now db
  | reconcileTick _ _ stop => exact .foldl (fun db id => dispatchCompletion_statements rfl id (stop id) now db) _ _
  | dispatchOneGroup f d => exact dispatchOneGroup_statements f d now db
  | reconcileOneGroup f d => exact reconcileOneGroup_statements f d db

theorem Statement.spares {db db' : Db} (h : Statement q db db') (hq : q.tokens = false) :
    db'.waitpoints = db.waitpoints ∧ db'.keystore = db.keystore := by
  cases h with
  | tokens ht => cases hq.symm.trans ht
  | _ => exact ⟨rfl,rfl⟩

theorem after_tokens {q : Arrival} (hq : q.request.tokens = false) (db : Db) :
    (after q db).waitpoints = db.waitpoints ∧ (after q db).keystore = db.keystore :=
  (after_statements q db).invariant
    (I := fun db' => db'.waitpoints = db.waitpoints ∧ db'.keystore = db.keystore)
    (fun _ _ hs h => ⟨(hs.spares hq).1.trans h.1,(hs.spares hq).2.trans h.2⟩) ⟨rfl,rfl⟩

theorem Statement.rowsOf {db db' : Db} (h : Statement q db db') (e : Uuid) : db'.rowsOf e = db.rowsOf e ∨
      (∃ a now, db.rowsOf e = none ∧ db'.rowsOf e = some { core := .created a now }) ∨
      ∃ r c, db.rowsOf e = some r ∧ q.issues e r c.op ∧ db'.rowsOf e = some (next c r) := by
  have committed {e' : Uuid} {r : Rows} {c : Call} {done : Committed} (hq : q.issues e' r c.op)
      (hr : db.rowsOf e' = some r) (hs : step c r = .ok done) {o : Option Rows}
      (ho : o = (db.commitOn e' c.now done).rowsOf e) :
      o = db.rowsOf e ∨ (∃ a now, db.rowsOf e = none ∧ o = some { core := .created a now }) ∨
        ∃ r c, db.rowsOf e = some r ∧ q.issues e r c.op ∧ o = some (next c r) := by
    rw [Db.rowsOf_commitOn] at ho
    split at ho
    · rename_i he
      subst he
      exact .inr (.inr ⟨r,c,hr,hq,by rw [ho,next_of_ok hs]⟩)
    · exact .inl ho
  cases h with
  | commit hq hr hs => exact committed hq hr hs rfl
  | replay hr hs hq => exact committed (c := ⟨.replayExecution,_⟩) (by rw [hq]; exact ⟨rfl,rfl⟩) hr hs rfl
  | create e' a now _ hn =>
    change (db.execs.insert e' _).lookup e = _ ∨ _
    by_cases he : e = e'
    · subst he
      exact .inr (.inl ⟨a,now,hn,by rw [Db.rowsOf,Table.lookup_insert,if_pos rfl]⟩)
    · exact .inl (by rw [Table.lookup_insert,if_neg he]; rfl)
  | beside | tokens | stage | apply | policy | mark | count | flag => exact .inl rfl

theorem after_rows {I : Rows → Prop} (q : Arrival) (hnew : ∀ a now, I { core := .created a now })
    (hcall : ∀ c r, q.request.issues e r c.op → I r → I (next c r)) {db : Db} (h : ∀ r, db.rowsOf e = some r → I r) :
    ∀ r, (after q db).rowsOf e = some r → I r := by
  refine (after_statements q db).invariant (I := fun db => ∀ r, Db.rowsOf db e = some r → I r) ?_ h
  intro db db' hs hI r hr
  rcases hs.rowsOf e with h | ⟨a,now,-,h⟩ | ⟨r',c,hr',hi,h⟩
  · exact hI r (h ▸ hr)
  · cases h.symm.trans hr
    exact hnew a now
  · cases h.symm.trans hr
    exact hcall c r' hi (hI r' hr')

theorem rows_invariant {I : Rows → Prop} (hnew : ∀ a now, I { core := .created a now })
    (hcall : ∀ c r, I r → I (next c r)) {db : Db} (h : ∀ e r, db.rowsOf e = some r → I r) (qs : List Arrival) :
    ∀ e r, (runFrom after db qs).rowsOf e = some r → I r :=
  runFrom_invariant (I := fun db => ∀ e r, Db.rowsOf db e = some r → I r)
    (fun _ q hdb e => after_rows q hnew (fun c r _ => hcall c r) (hdb e)) h qs

end FlowFabric.Postgres
