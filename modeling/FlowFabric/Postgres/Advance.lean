import FlowFabric.Postgres.Dispatch

/-! What the transaction of one edge leaves, and what is left after the edges of an event. -/
namespace FlowFabric.Postgres
open Foundation List Function GroupRow

def Appends (db db' : Db) : Prop := ∃ new, db'.events = db.events ++ new ∧ ∀ event ∈ new, event.dispatchedAtMs = none

namespace Appends
variable {db db' db'' : Db}

theorem of_eq (h : db'.events = db.events) : Appends db db' := ⟨[],by rw [h,append_nil],fun _ he => by cases he⟩

theorem trans (h : Appends db db') (h' : Appends db' db'') : Appends db db'' := by
  obtain ⟨new,hn,hu⟩ := h
  obtain ⟨new',hn',hu'⟩ := h'
  refine ⟨new ++ new',by rw [hn',hn,append_assoc],?_⟩
  intro event he
  exact (mem_append.mp he).elim (hu event) (hu' event)

theorem commitOn (db : Db) (e : Uuid) (now : Int) (done : Committed) : Appends db (db.commitOn e now done) := by
  refine ⟨_,rfl,?_⟩
  intro event he
  obtain ⟨completion,-,rfl⟩ := mem_map.mp he
  rfl

theorem write (db : Db) (e : Uuid) (c : Call) : Appends db (db.write e c) := by
  unfold Db.write
  split
  · exact commitOn db e c.now _
  · exact of_eq rfl

theorem foldl {α : Type} {f : Db → α → Db} (hf : ∀ db a, Appends db (f db a)) (as : List α) (db : Db) :
    Appends db (as.foldl f db) := by
  induction as generalizing db with
  | nil => exact of_eq rfl
  | cons a as ih => exact (hf db a).trans (ih (f db a))

private theorem getElem? (h : Appends db db') {id : Nat} {event : EventRow} (he : db.events[id]? = some event) :
    db'.events[id]? = some event := by
  obtain ⟨new,hn,-⟩ := h
  rw [hn,List.getElem?_append_left (List.getElem?_eq_some_iff.mp he).1]
  exact he

end Appends

/-! ### One edge -/

/-- What a decision does to the rows of the downstream execution. -/
def Decision.write (f : Uuid) (now : Int) : Decision → Rows → Rows
  | .pending, r => r
  | .satisfied _, r => next ⟨.unblock,now⟩ r
  | .impossible, r => next ⟨.skip f,now⟩ r

section
variable (f upstream : Uuid) (outcome : OutcomeKind) (now : Int) (db : Db) (d : Uuid)

private theorem edges_advance : (advanceEdgeGroup f upstream outcome now db d).edges = db.edges := by
  unfold advanceEdgeGroup
  cases db.groups.lookup (f,d) with
  | none => rfl
  | some =>
    have written (db : Db) (c : Call) : (db.write d c).edges = db.edges := Db.write_frame (by intros; rfl) db d c
    dsimp only
    split
    · rfl
    · split <;> exact written _ _
    · exact written _ _

theorem appends_advance : Appends db (advanceEdgeGroup f upstream outcome now db d) := by
  unfold advanceEdgeGroup
  cases db.groups.lookup (f,d) with
  | none => exact .of_eq rfl
  | some g =>
    have stored : Appends db { db with groups := db.groups.insert (f,d) (g.count outcome) } := .of_eq rfl
    dsimp only
    split
    · exact stored
    · split
      · exact (stored.trans (.write _ _ _)).trans (.of_eq rfl)
      · exact stored.trans (.write _ _ _)
    · exact stored.trans (.write _ _ _)

theorem group_enqueue (k : Uuid × Uuid) :
    ((db.enqueue f upstream d).groups.lookup k).map drained = (db.groups.lookup k).map drained := by
  apply Table.map_lookup_update
  intro row
  rfl

theorem group_advance (k : Uuid × Uuid) : ((advanceEdgeGroup f upstream outcome now db d).groups.lookup k).map drained =
      if k = (f,d) then (db.groups.lookup k).map fun g => (g.count outcome).drained
      else (db.groups.lookup k).map drained := by
  unfold advanceEdgeGroup
  cases hg : db.groups.lookup (f,d) with
  | none =>
    by_cases hk : k = (f,d)
    · rw [if_pos hk,hk,hg]
      rfl
    · rw [if_neg hk]
  | some g =>
    have written (db : Db) (c : Call) : (db.write d c).groups = db.groups := Db.write_frame (by intros; rfl) db d c
    have stored : ((db.groups.insert (f,d) (g.count outcome)).lookup k).map drained =
        if k = (f,d) then (db.groups.lookup k).map fun g => (g.count outcome).drained
        else (db.groups.lookup k).map drained := by
      rw [Table.lookup_insert]
      split
      · rename_i hk
        rw [hk,hg]
        rfl
      · rfl
    dsimp only
    split
    · exact stored
    · split
      · rw [group_enqueue,written]
        exact stored
      · rw [written]
        exact stored
    · rw [written]
      exact stored

theorem rowsOf_advance (e : Uuid) : (advanceEdgeGroup f upstream outcome now db d).rowsOf e =
      if e = d then (db.rowsOf e).map
        (((db.groups.lookup (f,d)).map fun g => (g.count outcome).decision.write f now).getD id)
      else db.rowsOf e := by
  unfold advanceEdgeGroup
  cases db.groups.lookup (f,d) with
  | none => rw [Option.map_none,Option.getD_none,Option.map_id,id,ite_self]
  | some g =>
    rw [Option.map_some,Option.getD_some]
    have written (db : Db) (c : Call) : (db.write d c).rowsOf e = if e = d then (db.rowsOf e).map (next c) else db.rowsOf e := by
      rw [Db.rowsOf_write]
      split
      · rename_i he
        rw [he]
      · rfl
    dsimp only
    cases (g.count outcome).decision with
    | pending =>
      change db.rowsOf e = if e = d then (db.rowsOf e).map id else db.rowsOf e
      rw [Option.map_id,id,ite_self]
    | satisfied =>
      dsimp only
      split <;> exact written _ _
    | impossible => exact written _ _

end

/-! ### The edges of an event -/

namespace GroupRow
variable (outcome : OutcomeKind) (g : GroupRow)

def settled : Nat := g.success + g.fail + g.skip

@[simp] theorem drained_count : (g.count outcome).drained = g.drained.count outcome := by
  cases outcome <;> rfl

theorem settled_count : (g.count outcome).settled = g.settled + 1 := by
  cases outcome <;> simp only [settled,count] <;> omega

theorem settled_iterate (n : Nat) : ((count outcome)^[n] g).settled = g.settled + n := by
  induction n with
  | zero => rfl
  | succ n ih => rw [iterate_succ_apply',settled_count,ih,Nat.add_assoc]

end GroupRow

section
variable (f upstream : Uuid) (outcome : OutcomeKind) (now : Int) (ds : List Uuid) (db : Db)

theorem edges_advances : (ds.foldl (advanceEdgeGroup f upstream outcome now) db).edges = db.edges := by
  induction ds generalizing db with
  | nil => rfl
  | cons d ds ih => exact (ih _).trans (edges_advance f upstream outcome now db d)

theorem appends_advances : Appends db (ds.foldl (advanceEdgeGroup f upstream outcome now) db) :=
  .foldl (appends_advance f upstream outcome now) ds db

theorem group_advances (k : Uuid × Uuid) :
    ((ds.foldl (advanceEdgeGroup f upstream outcome now) db).groups.lookup k).map drained =
      ((db.groups.lookup k).map drained).map
        (count outcome)^[(ds.map fun d => (f,d)).count k] := by
  induction ds generalizing db with
  | nil => exact Option.map_id.symm ▸ rfl
  | cons d ds ih =>
    rw [foldl_cons,ih,group_advance,map_cons,count_cons]
    by_cases hk : k = (f,d)
    · subst hk
      rw [if_pos rfl,beq_self_eq_true,if_pos rfl,Option.map_map,Option.map_map]
      refine congrFun (congrArg Option.map (funext fun g => ?_)) _
      rw [comp_apply,comp_apply,iterate_succ_apply,drained_count]
    · rw [if_neg hk,if_neg (by simpa using Ne.symm hk),Nat.add_zero]

end

/-! ### Dispatching an event -/

def Db.within (db : Db) (f e : Uuid) (stop : Option Nat) : List Uuid :=
  (db.outgoing f e).take (stop.getD (db.outgoing f e).length)

section
variable {id : Nat} {stop : Option Nat} {now : Int} {db : Db} {event : EventRow}

theorem dispatch_idle (h : ∀ event, db.events[id]? = some event → event.dispatchedAtMs ≠ none) :
    (dispatchCompletion id stop now db).2 = db := by
  unfold dispatchCompletion
  cases he : db.events[id]? with
  | none => rfl
  | some event =>
    dsimp only
    rw [if_pos (Option.isSome_iff_ne_none.mpr (h event he))]

theorem dispatch_due (he : db.events[id]? = some event) (hn : event.dispatchedAtMs = none) :
    (dispatchCompletion id stop now db).2 = match event.completion.flowId with
      | none => db.marked id now
      | some f => (db.within f event.executionId stop).foldl
          (advanceEdgeGroup f event.executionId event.completion.outcome.kind now) (db.marked id now) := by
  unfold dispatchCompletion
  rw [he]
  dsimp only
  rw [if_neg (by rw [hn]; decide)]
  cases event.completion.flowId with
  | none | some => rfl

theorem edges_dispatch : (dispatchCompletion id stop now db).2.edges = db.edges := by
  by_cases h : ∃ event, db.events[id]? = some event ∧ event.dispatchedAtMs = none
  · obtain ⟨event,he,hn⟩ := h
    rw [dispatch_due he hn]
    split
    · rfl
    · exact edges_advances _ _ _ _ _ _
  · rw [dispatch_idle fun event he hn => h ⟨event,he,hn⟩]

theorem getElem?_marked {id' : Nat} (he : db.events[id']? = some event) : (db.marked id now).events[id']? =
      some (if id = id' then { event with dispatchedAtMs := some now } else event) := by
  rw [Db.marked,List.getElem?_modify,he]
  rfl

theorem getElem?_dispatch {id' : Nat} (he : db.events[id']? = some event) :
    (dispatchCompletion id stop now db).2.events[id']? =
      some (if id = id' ∧ event.dispatchedAtMs = none then { event with dispatchedAtMs := some now } else event) := by
  by_cases h : ∃ event, db.events[id]? = some event ∧ event.dispatchedAtMs = none
  · obtain ⟨due,hd,hn⟩ := h
    have marked : (db.marked id now).events[id']? =
        some (if id = id' ∧ event.dispatchedAtMs = none then { event with dispatchedAtMs := some now } else event) := by
      rw [getElem?_marked he]
      by_cases hid : id = id'
      · subst hid
        cases hd.symm.trans he
        rw [if_pos rfl,if_pos ⟨rfl,hn⟩]
      · rw [if_neg hid,if_neg fun h => hid h.1]
    rw [dispatch_due hd hn]
    split
    · exact marked
    · exact (appends_advances _ _ _ _ _ _).getElem? marked
  · rw [dispatch_idle fun event he hn => h ⟨event,he,hn⟩,he,if_neg]
    rintro ⟨rfl,hn⟩
    exact h ⟨event,he,hn⟩

end
end FlowFabric.Postgres
