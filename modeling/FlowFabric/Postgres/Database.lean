import FlowFabric.Postgres.Keystore
import FlowFabric.Postgres.Machine

/-! The tables of one partition. The rows of an execution are kept together under its id, the other
tables have their own keys. -/
namespace FlowFabric.Postgres
open Foundation Option

/-- What the token of a waitpoint is a signature of. The execution ids are those of partition zero. -/
def tokenMessage (executionId : Uuid) (waitpointId : String) : String :=
  hashTag 0 ++ ":" ++ uuidText executionId ++ ":" ++ waitpointId

@[irreducible] def hmacSign (secret kid : String) (executionId : Uuid) (waitpointId : String) : String :=
  Digest.sha256.hmacSign secret kid (tokenMessage executionId waitpointId)

def HmacVerifyError.text : HmacVerifyError → String
  | .malformed => "token malformed; expected kid:hex shape"
  | .wrongKid expected actual => "token kid mismatch; expected " ++ expected ++ ", got " ++ actual
  | .signatureMismatch => "HMAC signature mismatch"

def hmacVerify (secret kid : String) (executionId : Uuid) (waitpointId token : String) : Except EngineError Unit :=
  (Digest.sha256.hmacVerify secret kid (tokenMessage executionId waitpointId) token).mapError fun e =>
    .invalidInput ("waitpoint_token verify: " ++ e.text)

/-- An ff_waitpoint_pending row, kept under its waitpoint id. -/
structure WaitpointRow where
  executionId : Uuid
  (tokenKid token waitpointKey : String)
  expiresAtMs : Option Int

inductive FlowState where
  | opened | cancelled | completed | failed
  deriving DecidableEq

structure FlowRow where
  publicFlowState : FlowState := .opened
  graphRevision : Nat := 0

/-- An ff_edge row, kept under its flow and its edge id. -/
structure EdgeRow where
  (upstream downstream : Uuid)
  applied : Bool := false

inductive EdgeDependencyPolicy where
  | allOf
  | anyOf (onSatisfied : OnSatisfied)
  | quorum (k : Nat) (onSatisfied : OnSatisfied)
  deriving DecidableEq

/-- An ff_edge_group row, kept under its flow and its downstream execution. -/
structure GroupRow where
  policy : EdgeDependencyPolicy := .allOf
  (success fail skip running : Nat := 0)
  cancelSiblings : Bool := false
  members : List Uuid := []

/-- An ff_completion_event row. Its event id is its place in the table. -/
structure EventRow where
  executionId : Uuid
  completion : Completion
  committedAtMs : Int
  dispatchedAtMs : Option Int := none

structure Db where
  execs : Table Uuid Rows := ∅
  waitpoints : Table String WaitpointRow := ∅
  suspendDedup : List String := []
  keystore : Keystore := ∅
  flows : Table Uuid FlowRow := ∅
  edges : Table (Uuid × Uuid) EdgeRow := ∅
  groups : Table (Uuid × Uuid) GroupRow := ∅
  events : List EventRow := []
  pendingCancelGroups : List (Uuid × Uuid) := []

inductive Answer where
  | reply (r : Reply)
  | nothing
  | created | alreadySatisfied
  | added | alreadyMember
  | staged (newGraphRevision : Nat)
  | applied (unsatisfiedCount : Nat) | alreadyApplied
  | policySet | policyAlreadySet
  | cancelled (memberExecutionIds : List Uuid) | alreadyTerminal (memberExecutionIds : List Uuid)
  | advanced (edges : Nat) | noOp
  | reconciled (scanned : Nat)
  | waitpoint (waitpointId token : String)
  | keystore (r : KeyReply)

/-- A method that is one transaction on several tables. -/
abbrev Method := Except EngineError (Answer × Db)

def Method.db (db : Db) : Method → Db
  | .ok done => done.2
  | .error _ => db

@[simp] theorem Method.db_ok (db : Db) (done : Answer × Db) : Method.db db (.ok done) = done.2 := rfl

@[simp] theorem Method.db_pure (db : Db) (done : Answer × Db) : Method.db db (pure done) = done.2 := rfl

@[simp] theorem Method.db_ensure (db : Db) (p : Prop) [Decidable p] (e : EngineError) (k : Unit → Method) :
    Method.db db (ensure p e >>= k) = if p then Method.db db (k ()) else db := by
  by_cases h : p
  · rw [ensure_of h,if_pos h]
    rfl
  · rw [ensure_of_not h,if_neg h]
    rfl

@[simp] theorem Method.db_demand {α : Type} (db : Db) (o : Option α) (e : EngineError) (k : α → Method) :
    Method.db db (demand o e >>= k) = (o.map fun a => Method.db db (k a)).getD db := by
  cases o <;> rfl

namespace Db

def rowsOf (db : Db) (e : Uuid) : Option Rows := db.execs.lookup e

/-- Store what a transaction on the rows of the execution leaves, with its events. -/
def commitOn (db : Db) (e : Uuid) (now : Int) (done : Committed) : Db :=
  { db with
    execs := db.execs.insert e done.rows
    events := db.events ++ done.events.map fun completion => ⟨e,completion,now,none⟩ }

theorem rowsOf_commitOn (db : Db) (e e' : Uuid) (now : Int) (done : Committed) :
    (db.commitOn e now done).rowsOf e' = if e' = e then some done.rows else db.rowsOf e' :=
  Table.lookup_insert e e' done.rows db.execs

def membersOf (db : Db) (flowId : Uuid) : List (Uuid × Rows) :=
  db.execs.rows.filter fun m => m.2.core.flowId = some flowId

end Db

theorem forall_rowsOf {db : Db} {P : Rows → Prop} (h : ∀ m ∈ db.execs.rows, P m.2) :
    ∀ e r, db.rowsOf e = some r → P r :=
  fun e r hr => h (e,r) (Table.mem_rows.mpr hr)

/-- The methods and the reconcilers that read and write the rows of one execution only. -/
def Op.own : Op → Bool
  | .worker _ (.suspend ..) | .deliver .. | .close _ | .joinFlow _ | .cancelMember _ | .cancelHeader _
  | .unblock | .skip _ | .cancelSibling | .replayExecution => false
  | _ => true

/-- A part of a larger method that falls on one execution. Without its rows it does nothing. -/
def Db.write (db : Db) (e : Uuid) (c : Call) : Db :=
  match (db.rowsOf e).map (step c) with
  | some (.ok done) => db.commitOn e c.now done
  | _ => db

theorem Db.rowsOf_write (db : Db) (e : Uuid) (c : Call) (e' : Uuid) :
    (db.write e c).rowsOf e' = if e' = e then (db.rowsOf e).map (next c) else db.rowsOf e' := by
  have kept {o : Option Rows} (h : db.rowsOf e = o) : db.rowsOf e' = if e' = e then o else db.rowsOf e' := by
    split
    · rename_i he
      rw [he,h]
    · rfl
  unfold Db.write
  cases hr : db.rowsOf e with
  | none => exact kept hr
  | some r =>
    rw [map_some,map_some]
    cases hs : step c r with
    | error =>
      rw [next_of_error hs]
      exact kept hr
    | ok => rw [next_of_ok hs,Db.rowsOf_commitOn]

theorem Db.rowsOf_foldl_write {c : Call} (hc : ∀ r, next c (next c r) = next c r) (es : List Uuid) (db : Db)
    (e : Uuid) :
    (es.foldl (fun db e => db.write e c) db).rowsOf e = if e ∈ es then (db.rowsOf e).map (next c) else db.rowsOf e := by
  induction es generalizing db with
  | nil => rfl
  | cons m ms ih =>
    rw [List.foldl_cons,ih,Db.rowsOf_write]
    by_cases he : e = m
    · subst he
      rw [if_pos rfl,if_pos List.mem_cons_self]
      split
      · rw [map_map]
        exact congrFun (congrArg Option.map (funext hc)) _
      · rfl
    · simp only [List.mem_cons,he,false_or,if_false]

theorem Db.write_frame {α : Type} {g : Db → α} (h : ∀ db e now done, g (Db.commitOn db e now done) = g db)
    (db : Db) (e : Uuid) (c : Call) : g (db.write e c) = g db := by
  unfold Db.write
  split
  · exact h db e c.now _
  · rfl

variable (e : Uuid)

def callOn (c : Call) (db : Db) : Method := do
  ensure (c.op.own = true) (.unavailable "not a method")
  let rows ← demand (db.rowsOf e) (.notFound "execution")
  let done ← step c rows
  return (.reply done.reply,db.commitOn e c.now done)

/-- A replay of a skipped member resets the counters of its edge groups. -/
def resetGroups (db : Db) : Db :=
  let inbound := db.edges.rows.filter fun edge => edge.2.downstream = e
  let reset (groups : Table (Uuid × Uuid) GroupRow) (edge : (Uuid × Uuid) × EdgeRow) :=
    groups.update (edge.1.1,e) fun g => { g with skip := 0, fail := 0, running := 0 }
  { db with groups := inbound.foldl reset db.groups }

def replayOn (now : Int) (db : Db) : Method := do
  let rows ← demand (db.rowsOf e) (.notFound "execution")
  let done ← replayExecution now rows
  let stored := db.commitOn e now done
  return (.reply done.reply,if rows.skippedMember then resetGroups e stored else stored)

theorem replayOn_db (now : Int) (db : Db) : (replayOn e now db).db db = db ∨
      ∃ r done, db.rowsOf e = some r ∧ step ⟨.replayExecution,now⟩ r = .ok done ∧ (replayOn e now db).db db =
          if r.skippedMember then resetGroups e (db.commitOn e now done) else db.commitOn e now done := by
  rw [replayOn,Method.db_demand]
  cases hr : db.rowsOf e with
  | none => exact .inl rfl
  | some r =>
    rw [map_some,getD_some]
    cases hs : replayExecution now r with
    | error => exact .inl rfl
    | ok done => exact .inr ⟨r,done,rfl,hs,rfl⟩

/-- create_execution on an id that is taken does nothing. -/
def createExecution (a : CreateArgs) (now : Int) (db : Db) : Method :=
  if (db.rowsOf e).isSome = true then .ok (.alreadySatisfied,db)
  else .ok (.created,{ db with execs := db.execs.insert e { core := .created a now } })

end FlowFabric.Postgres
