import FlowFabric.Postgres.Literals

/-! cancel_flow. The filters of its policies name phases that no statement writes, and leave out one that
many of them do. -/
namespace FlowFabric.Postgres
open Foundation CancelFlowPolicy Option

def CancelFlowPolicy.meant : CancelFlowPolicy → Phase → Prop
  | .flowOnly, _ => False
  | .cancelAll, phase => phase ≠ .terminal ∧ phase ≠ .cancelled
  | .cancelPending, phase => phase ≠ .terminal ∧ phase ≠ .cancelled ∧ phase ≠ .active ∧ phase ≠ .suspended

def cancelled (f : Uuid) (policy : CancelFlowPolicy) (now : Int) (db : Db) : Db := (cancelFlow f policy now db).db db

/-- The call cancels and returns the members its policy is about and writes no other execution, and once
more it cancels nobody. -/
structure Follows (f : Uuid) (policy : CancelFlowPolicy) (now : Int) (db : Db) : Prop where
  returned : ∃ ids, cancelFlow f policy now db = .ok (.cancelled ids,cancelled f policy now db) ∧
    ∀ e, e ∈ ids ↔ ∃ r, db.rowsOf e = some r ∧ r.core.flowId = some f ∧ policy.meant r.core.lifecyclePhase
  changed : ∀ e r, db.rowsOf e = some r → r.core.flowId = some f → policy.meant r.core.lifecyclePhase →
    ∃ r', (cancelled f policy now db).rowsOf e = some r' ∧ r'.core.lifecyclePhase = .cancelled
  kept : ∀ e r, db.rowsOf e = some r → ¬ (r.core.flowId = some f ∧ policy.meant r.core.lifecyclePhase) →
    (cancelled f policy now db).rowsOf e = some r
  again : ∀ later, ∃ db', cancelFlow f policy later (cancelled f policy now db) = .ok (.cancelled [],db') ∧
    ∀ e, db'.rowsOf e = (cancelled f policy now db).rowsOf e

/-! ### What the call does -/

theorem selects_cancelled (policy : CancelFlowPolicy) : policy.selects .cancelled = false := by
  cases policy <;> rfl

theorem next_cancelMember (policy : CancelFlowPolicy) (now : Int) (r : Rows) : next ⟨.cancelMember policy,now⟩ r =
      if policy.selects r.core.lifecyclePhase = true then r.cancelledMember now else r :=
  cancelMember_rows policy now r

private theorem cancelMember_twice (policy : CancelFlowPolicy) (now : Int) (r : Rows) :
    next ⟨.cancelMember policy,now⟩ (next ⟨.cancelMember policy,now⟩ r) = next ⟨.cancelMember policy,now⟩ r := by
  rw [next_cancelMember policy now r]
  split
  · rw [next_cancelMember]
    refine if_neg ?_
    change ¬ policy.selects .cancelled = true
    rw [selects_cancelled]
    decide
  · rename_i hn
    rw [next_cancelMember,if_neg hn]

variable {policy : CancelFlowPolicy}

theorem mem_selected {db : Db} {f : Uuid} {e : Uuid} : e ∈ db.selected f policy ↔
      ∃ r, db.rowsOf e = some r ∧ r.core.flowId = some f ∧ policy.selects r.core.lifecyclePhase = true := by
  simp only [Db.selected,Db.membersOf,List.mem_map,List.mem_filter,decide_eq_true_eq]
  constructor
  · rintro ⟨⟨e',r⟩,⟨⟨hm,hf⟩,hs⟩,rfl⟩
    exact ⟨r,Table.mem_rows.mp hm,hf,hs⟩
  · rintro ⟨r,hr,hf,hs⟩
    exact ⟨(e,r),⟨⟨Table.mem_rows.mpr hr,hf⟩,hs⟩,rfl⟩

section
variable {db : Db} {f : Uuid} {flow : FlowRow} (hf : db.flows.lookup f = some flow) (policy : CancelFlowPolicy)
  (now : Int)
include hf

theorem cancelFlow_eq : cancelFlow f policy now db = .ok (.cancelled (db.selected f policy),cancelled f policy now db) := by
  rw [cancelled,cancelFlow,hf]
  rfl

theorem rowsOf_cancelled (e : Uuid) : (cancelled f policy now db).rowsOf e = (db.rowsOf e).map fun r =>
      if r.core.flowId = some f then next ⟨.cancelMember policy,now⟩ r else r := by
  have folded : (cancelled f policy now db).rowsOf e =
      ((db.flipFlow f).cancelMembers policy now (db.selected f policy)).rowsOf e := by
    rw [cancelled,cancelFlow,hf]
    dsimp only [Method.db_ok]
    split <;> rfl
  rw [folded,Db.cancelMembers,Db.rowsOf_foldl_write (cancelMember_twice policy now)]
  change (if e ∈ db.selected f policy then (db.rowsOf e).map _ else db.rowsOf e) = _
  cases hr : db.rowsOf e with
  | none => simp
  | some r =>
    rw [map_some,map_some]
    by_cases hs : e ∈ db.selected f policy
    · obtain ⟨r',hr',hm,-⟩ := mem_selected.mp hs
      cases hr.symm.trans hr'
      rw [if_pos hs,if_pos hm]
    · rw [if_neg hs]
      by_cases hm : r.core.flowId = some f
      · rw [if_pos hm,next_cancelMember,if_neg fun h => hs (mem_selected.mpr ⟨r,hr,hm,h⟩)]
      · rw [if_neg hm]

private theorem flows_cancelled : ∃ flow', (cancelled f policy now db).flows.lookup f = some flow' := by
  have flows (members : List Uuid) (db : Db) : (db.cancelMembers policy now members).flows = db.flows := by
    induction members generalizing db with
    | nil => rfl
    | cons m ms ih => exact (ih _).trans (Db.write_frame (by intros; rfl) db m _)
  refine ⟨{ flow with publicFlowState := .cancelled },?_⟩
  have same : (cancelled f policy now db).flows = (db.flipFlow f).flows := by
    rw [cancelled,cancelFlow,hf]
    dsimp only [Method.db_ok]
    split <;> exact flows _ _
  rw [same,Db.flipFlow,Table.lookup_update,if_pos rfl,hf]
  rfl

theorem selected_cancelled : (cancelled f policy now db).selected f policy = [] := by
  rw [List.eq_nil_iff_forall_not_mem]
  intro e he
  obtain ⟨r',hr',hm,hs⟩ := mem_selected.mp he
  rw [rowsOf_cancelled hf] at hr'
  obtain ⟨r,-,rfl⟩ := map_eq_some_iff.mp hr'
  split at hs
  · rw [next_cancelMember] at hs
    split at hs
    · change policy.selects .cancelled = true at hs
      rw [selects_cancelled] at hs
      cases hs
    · rename_i hn
      exact hn hs
  · rename_i hn
    rw [if_neg hn] at hm
    exact hn hm

private theorem cancelFlow_again (later : Int) :
    ∃ db', cancelFlow f policy later (cancelled f policy now db) = .ok (.cancelled [],db') ∧
      ∀ e, db'.rowsOf e = (cancelled f policy now db).rowsOf e := by
  obtain ⟨flow',hf'⟩ := flows_cancelled hf policy now
  refine ⟨cancelled f policy later (cancelled f policy now db),?_,?_⟩
  · rw [cancelFlow_eq hf',selected_cancelled hf]
  · intro e
    rw [rowsOf_cancelled hf']
    cases hr : (cancelled f policy now db).rowsOf e with
    | none => rfl
    | some r =>
      rw [map_some,Option.some.injEq]
      split
      · rename_i hm
        rw [next_cancelMember,if_neg]
        intro hs
        have he := mem_selected.mpr ⟨r,hr,hm,hs⟩
        rw [selected_cancelled hf] at he
        cases he
      · rfl

private theorem follows_iff_selects : Follows f policy now db ↔ ∀ e r, db.rowsOf e = some r → r.core.flowId = some f →
      (policy.selects r.core.lifecyclePhase = true ↔ policy.meant r.core.lifecyclePhase) := by
  constructor
  · intro h e r hr hm
    obtain ⟨ids,hids,hmem⟩ := h.returned
    rw [cancelFlow_eq hf] at hids
    cases hids
    constructor
    · intro hs
      obtain ⟨r',hr',-,ht⟩ := (hmem e).mp (mem_selected.mpr ⟨r,hr,hm,hs⟩)
      cases hr.symm.trans hr'
      exact ht
    · intro ht
      obtain ⟨r',hr',-,hs⟩ := mem_selected.mp ((hmem e).mpr ⟨r,hr,hm,ht⟩)
      cases hr.symm.trans hr'
      exact hs
  · intro h
    constructor
    · refine ⟨_,cancelFlow_eq hf policy now,?_⟩
      intro e
      rw [mem_selected]
      constructor
      · rintro ⟨r,hr,hm,hs⟩
        exact ⟨r,hr,hm,(h e r hr hm).mp hs⟩
      · rintro ⟨r,hr,hm,ht⟩
        exact ⟨r,hr,hm,(h e r hr hm).mpr ht⟩
    · intro e r hr hm ht
      refine ⟨r.cancelledMember now,?_,rfl⟩
      rw [rowsOf_cancelled hf,hr,map_some,if_pos hm,next_cancelMember,if_pos ((h e r hr hm).mpr ht)]
    · intro e r hr hn
      rw [rowsOf_cancelled hf,hr,map_some]
      split
      · rename_i hm
        rw [next_cancelMember,if_neg fun hs => hn ⟨hm,(h e r hr hm).mp hs⟩]
      · rfl
    · exact cancelFlow_again hf policy now

end

/-! ### Reachable partitions -/

/-- The phases in which the filter of the policy does what the policy says. -/
def CancelFlowPolicy.suits : CancelFlowPolicy → Phase → Prop
  | .flowOnly, _ => True
  | .cancelAll, phase => phase ≠ .terminal
  | .cancelPending, phase => phase ≠ .submitted ∧ phase ≠ .runnable

theorem selects_iff_meant {phase : Phase} (hw : phase.isWritten = true) :
    (policy.selects phase = true ↔ policy.meant phase) ↔ policy.suits phase := by
  cases policy with
  | flowOnly => exact iff_of_true ⟨Bool.noConfusion,False.elim⟩ trivial
  | cancelAll => cases phase <;> simp_all [suits,meant,selects,Phase.isWritten]
  | cancelPending =>
    cases phase <;> simp_all [suits,meant,selects,Phase.isWritten]

/-- In every partition that the backend can reach cancel_flow follows its policy exactly when no member is in
a phase that its filter does not know or does not mean. -/
theorem cancelFlow_follows_iff {db : Db} (h : ∀ e r, db.rowsOf e = some r → r.Written) (qs : List Arrival)
    {f : Uuid} {flow : FlowRow} (hf : (runFrom after db qs).flows.lookup f = some flow) (policy : CancelFlowPolicy)
    (now : Int) : Follows f policy now (runFrom after db qs) ↔
      ∀ e r, (runFrom after db qs).rowsOf e = some r → r.core.flowId = some f → policy.suits r.core.lifecyclePhase := by
  rw [follows_iff_selects hf]
  have written := runFrom_written h qs
  constructor
  · exact fun hs e r hr hm => (selects_iff_meant (written e r hr)).mp (hs e r hr hm)
  · exact fun hs e r hr hm => (selects_iff_meant (written e r hr)).mpr (hs e r hr hm)

namespace Client

def pair : Db := { partition with execs := partition.execs.insert 2 fresh }

def joined : List Arrival := [⟨.createFlow 9,0⟩,⟨.addExecutionToFlow 9 1,1⟩,⟨.addExecutionToFlow 9 2,2⟩]

def finished : List Arrival := joined ++ [takes 1 alice 3,⟨.call 1 (.worker ⟨0,1,10⟩ (.complete none)),4⟩]

theorem joined_follows : Follows 9 .cancelAll 5 (runFrom after pair joined) := by
  have unended : ∀ e r, (runFrom after pair joined).rowsOf e = some r → r.core.lifecyclePhase ≠ .terminal :=
    forall_rowsOf (by decide)
  exact (cancelFlow_follows_iff (forall_rowsOf (by decide)) joined rfl .cancelAll 5).mpr fun e r hr _ => unended e r hr

def phaseOf (e : Uuid) (db : Db) : Option Phase := (db.rowsOf e).map (·.core.lifecyclePhase)

/-- With cancel_all the completed member is cancelled once more and returned, with cancel_pending the
member that nobody has claimed is not. -/
theorem completed_cancelled : let db := runFrom after pair finished
    phaseOf 1 db = some .terminal ∧ phaseOf 2 db = some .runnable ∧
      (cancelFlow 9 .cancelAll 5 db).map Prod.fst = .ok (.cancelled [1,2]) ∧
      phaseOf 1 (cancelled 9 .cancelAll 5 db) = some .cancelled ∧
      (cancelFlow 9 .cancelPending 5 db).map Prod.fst = .ok (.cancelled []) ∧
      phaseOf 2 (cancelled 9 .cancelPending 5 db) = some .runnable :=
  ⟨rfl,rfl,rfl,rfl,rfl,rfl⟩

end Client
end FlowFabric.Postgres
