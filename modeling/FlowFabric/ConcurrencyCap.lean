import FlowFabric.Quota
import FlowFabric.Executions

/-! The executions that run under a concurrency cap, among admissions, releases, the passing of time
and the commands of reconcile_one_quota, which takes the guards for the executions. -/
namespace FlowFabric
open Foundation Finset Nat

/-- What the scan of the admitted set has counted. The executions it has counted are for the proofs. -/
structure LiveTally where
  live : Nat
  seen : Finset String

/-- The command that the reconciler issues next. A scan owes the members that have been in the set
from its start on and were not returned yet. -/
inductive ReconcileStage where
  | idle
  | scan (owed : Finset String) (t : LiveTally)
  | look (eid : String) (rest : List String) (owed : Option (Finset String)) (t : LiveTally)
  | remove (eid : String) (rest : List String) (owed : Option (Finset String)) (t : LiveTally)
  | read (t : LiveTally)
  | write (t : LiveTally)

open ReconcileStage

namespace ReconcileStage

/-- The next member of the page, the next page, or the end of the scan. -/
def goOn (t : LiveTally) (owed : Option (Finset String)) : List String → ReconcileStage
  | eid :: rest => .look eid rest owed t
  | [] =>
    match owed with
    | some owed => .scan owed t
    | none => .read t

def forget (x : String) : ReconcileStage → ReconcileStage
  | .scan owed t => .scan (owed.erase x) t
  | .look eid rest owed t => .look eid rest (owed.map (·.erase x)) t
  | .remove eid rest owed t => .remove eid rest (owed.map (·.erase x)) t
  | stage => stage

/-- The members that are still to be looked at. -/
def left : ReconcileStage → Finset String
  | .scan owed _ => owed
  | .look eid rest owed _ => insert eid (rest.toFinset ∪ owed.getD ∅)
  | .remove _ rest owed _ => rest.toFinset ∪ owed.getD ∅
  | .idle | .read _ | .write _ => ∅

def looking : ReconcileStage → Option String
  | .look eid _ _ _ => some eid
  | _ => none

def tally : ReconcileStage → Option LiveTally
  | .scan _ t | .look _ _ _ t | .remove _ _ _ t | .read t | .write t => some t
  | .idle => none

variable (t : LiveTally) (owed : Option (Finset String))

private theorem left_goOn (rest : List String) : (goOn t owed rest).left = rest.toFinset ∪ owed.getD ∅ := by
  cases rest with
  | nil => cases owed <;> simp [goOn,left]
  | cons => simp [goOn,left,insert_union]

private theorem tally_goOn (rest : List String) : (goOn t owed rest).tally = some t := by
  cases rest with
  | nil => cases owed <;> rfl
  | cons => rfl

theorem tally_forget (stage : ReconcileStage) (x : String) : (stage.forget x).tally = stage.tally := by
  cases stage <;> rfl

private theorem left_forget {stage : ReconcileStage} {x y : String} (hy : y ≠ x) (h : y ∈ stage.left) :
    y ∈ (stage.forget x).left := by
  cases stage with
  | scan => exact mem_erase.mpr ⟨hy,h⟩
  | look eid rest owed | remove eid rest owed => cases owed <;> simp_all [left,forget]
  | _ => exact h

end ReconcileStage

/-- One policy and the executions. Those that were admitted and not released are for the proofs. -/
structure CapWorld where
  now : Int
  quota : Quota
  executions : String → Execution
  admitted : Finset String
  stage : ReconcileStage

/-- What may happen next. Grants, claims and whatever ends an execution are calls on it. -/
inductive CapStep where
  | wait (ms : Nat)
  | check (eid : String) (nowMs : Int) (jitter : Nat)
  | release (eid : String)
  | call (eid : String) (i : Call) (lasting : i.op.revives = false)
  | reconcile
  | sscan (members : List String) (last : Bool)
  | guardExists (fails : Bool)
  | srem (fails : Bool)
  | get
  | set
  | fail

namespace CapWorld
variable (server : Server) (quotaId : String) (l : QuotaPolicyLimits)

def start (executions : String → Execution) (now : Int) : CapWorld := ⟨now,newQuota,executions,∅,.idle⟩

/-- A reply of SSCAN has members of the set, and the last one leaves nothing owed. -/
def Scans (w : CapWorld) (owed : Finset String) (members : List String) (last : Bool) : Prop :=
  (∀ x ∈ members, x ∈ w.quota.admittedSet) ∧ (last = true → owed ⊆ members.toFinset)

instance (w : CapWorld) (owed : Finset String) (members : List String) (last : Bool) :
    Decidable (w.Scans owed members last) :=
  inferInstanceAs (Decidable (_ ∧ (_ → _)))

def checked (w : CapWorld) (eid : String) (nowMs : Int) (jitter : Nat) : Except String QuotaCheckOutcome × Quota :=
  checkQuota server quotaId eid l nowMs jitter w.now w.quota

abbrev ask (w : CapWorld) (eid : String) (nowMs : Int) (jitter : Nat) :=
  checkAdmissionAndRecord server (l.admissionArgs eid nowMs jitter) w.now w.quota

def next : CapStep → CapWorld → CapWorld
  | .wait ms, w => { w with now := w.now + ms }
  | .check eid nowMs jitter, w =>
    { w with
      quota := (w.checked server quotaId l eid nowMs jitter).2
      admitted :=
        match (w.checked server quotaId l eid nowMs jitter).1 with
        | .ok (.admitted _ _) => insert eid w.admitted
        | _ => w.admitted }
  | .release eid, w =>
    { w with
      quota := (releaseAdmission eid w.quota).2, admitted := w.admitted.erase eid, stage := w.stage.forget eid }
  | .call eid i _, w =>
    { w with executions := Function.update w.executions eid ((w.executions eid).next i) }
  | .reconcile, w =>
    match w.stage with
    | .idle => { w with stage := .scan w.quota.admittedSet ⟨0,∅⟩ }
    | _ => w
  | .sscan members last, w =>
    match w.stage with
    | .scan owed t =>
      if w.Scans owed members last then
        { w with stage := .goOn t (if last then none else some (owed \ members.toFinset)) members }
      else w
    | _ => w
  | .guardExists fails, w =>
    match w.stage with
    | .look eid rest owed t =>
      -- An error counts as a missing guard.
      if w.quota.guarded eid w.now ∧ fails = false then
        { w with stage := .goOn ⟨t.live + 1,insert eid t.seen⟩ owed rest }
      else { w with stage := .remove eid rest owed t }
    | _ => w
  | .srem fails, w =>
    match w.stage with
    | .remove eid rest owed t =>
      if fails then { w with stage := .goOn t owed rest }
      else
        { w with
          quota := { w.quota with admittedSet := w.quota.admittedSet.erase eid }
          stage := .goOn t (owed.map (·.erase eid)) rest }
    | _ => w
  | .get, w =>
    match w.stage with
    | .read t => { w with stage := if w.quota.counter = t.live then .idle else .write t }
    | _ => w
  | .set, w =>
    match w.stage with
    | .write t => { w with quota := { w.quota with counter := t.live }, stage := .idle }
    | _ => w
  | .fail, w =>
    match w.stage with
    | .look .. | .remove .. => w
    | _ => { w with stage := .idle }

def running (w : CapWorld) : Finset String := w.admitted.filter fun x => (w.executions x).ended = false

def Holds (w : CapWorld) (x : String) : Prop := x ∈ w.running ∨ w.quota.guarded x w.now = true

instance (w : CapWorld) (x : String) : Decidable (w.Holds x) := inferInstanceAs (Decidable (_ ∨ _))

def held (w : CapWorld) : Finset String := w.quota.admittedSet.filter w.Holds

/-- No admission comes into a round of the reconciler, a release is of an execution that runs or whose
guard is up, and the reconciler finds the guard of every running execution. -/
def Careful (w : CapWorld) : CapStep → Prop
  | .check eid nowMs jitter => (w.ask server l eid nowMs jitter).1 = .admitted → w.stage.tally.isNone
  | .release eid => w.Holds eid
  | .guardExists fails => ∀ eid ∈ w.stage.looking, fails = false ∧ (eid ∈ w.running → w.quota.guarded eid w.now = true)
  | .wait _ | .call .. | .reconcile | .sscan .. | .srem _ | .get | .set | .fail => True

instance (w : CapWorld) : ∀ i, Decidable (w.Careful server l i)
  | .check .. => inferInstanceAs (Decidable (_ → _))
  | .release eid => inferInstanceAs (Decidable (w.Holds eid))
  | .guardExists _ => inferInstanceAs (Decidable (∀ eid ∈ w.stage.looking, _))
  | .wait _ | .call .. | .reconcile | .sscan .. | .srem _ | .get | .set | .fail => isTrue trivial

/-- The executions that run, and all whose guard is up, have a slot; a round under way has counted them
or will still look at them. -/
structure Kept (cap : Nat) (w : CapWorld) : Prop where
  bounded : w.running.card ≤ cap
  known : ∀ x, w.quota.guarded x w.now = true → x ∈ w.admitted
  listed : ∀ x, w.Holds x → x ∈ w.quota.admittedSet
  covered : w.held.card ≤ w.quota.counter
  counted : ∀ t, w.stage.tally = some t → t.seen.card ≤ t.live
  found : ∀ t, w.stage.tally = some t → ∀ x, w.Holds x → x ∈ t.seen ∨ x ∈ w.stage.left
  gone : ∀ x rest owed t, w.stage = .remove x rest owed t → ¬ w.Holds x

variable {server quotaId l} {w w' : CapWorld} {cap : Nat} {eid x : String} (fails : Bool) {q : Quota} {now : Int}

private theorem kept_start (executions : String → Execution) (now : Int) : (start executions now).Kept cap := by
  have none : ∀ x, ¬ (start executions now).Holds x := by
    intro x hx
    rcases hx with hx | hx
    · exact absurd (mem_filter.mp hx).1 (notMem_empty x)
    · cases hx
  refine ⟨zero_le cap,fun x hx => (none x (.inr hx)).elim,fun x hx => (none x hx).elim,le_refl 0,?_,?_,?_⟩
  · intro t ht
    cases ht
  · intro t ht
    cases ht
  · intro x rest owed t hs
    cases hs

namespace Kept

variable (h : w.Kept cap) {t : LiveTally}
include h

theorem rest : Kept cap { w with stage := .idle } :=
  ⟨h.bounded,h.known,h.listed,h.covered,fun _ ht => (by cases ht),fun _ ht => (by cases ht),
    fun _ _ _ _ hs => by cases hs⟩

theorem move {stage : ReconcileStage} (tally : stage.tally = some t)
    (counted : t.seen.card ≤ t.live) (found : ∀ x, w.Holds x → x ∈ t.seen ∨ x ∈ stage.left)
    (gone : ∀ x rest owed t, stage = .remove x rest owed t → ¬ w.Holds x) : Kept cap { w with stage } := by
  refine ⟨h.bounded,h.known,h.listed,h.covered,fun t' ht => ?_,fun t' ht => ?_,gone⟩
  · cases tally.symm.trans ht
    exact counted
  · cases tally.symm.trans ht
    exact found

theorem goOn {owed : Option (Finset String)} {rest : List String}
    (counted : t.seen.card ≤ t.live) (found : ∀ x, w.Holds x → x ∈ t.seen ∨ x ∈ rest.toFinset ∪ owed.getD ∅) :
    Kept cap { w with stage := .goOn t owed rest } := by
  refine h.move (tally_goOn ..) counted ?_ ?_
  · rw [left_goOn]
    exact found
  · intro x rest' owed' t' hs
    cases rest with
    | nil => cases owed <;> cases hs
    | cons => cases hs

theorem shrink (run : w'.running ⊆ w.running)
    (guards : ∀ x, w'.quota.guarded x w'.now = true → w.quota.guarded x w.now = true)
    (admitted : w'.admitted = w.admitted) (listing : w'.quota.admittedSet = w.quota.admittedSet)
    (counter : w'.quota.counter = w.quota.counter) (stage : w'.stage = w.stage) : w'.Kept cap := by
  have holds : ∀ x, w'.Holds x → w.Holds x := fun x hx => hx.imp (fun hr => run hr) (guards x)
  refine ⟨(card_le_card run).trans h.bounded,?_,?_,?_,?_,?_,?_⟩
  · intro x hx
    rw [admitted]
    exact h.known x (guards x hx)
  · intro x hx
    rw [listing]
    exact h.listed x (holds x hx)
  · rw [counter]
    refine (card_le_card fun x hx => ?_).trans h.covered
    obtain ⟨hm,hh⟩ := mem_filter.mp hx
    exact mem_filter.mpr ⟨listing ▸ hm,holds x hh⟩
  · rw [stage]
    exact h.counted
  · rw [stage]
    exact fun t ht x hx => h.found t ht x (holds x hx)
  · rw [stage]
    exact fun x rest owed t hs hx => h.gone x rest owed t hs (holds x hx)

theorem mem_held (hx : w.Holds x) : x ∈ w.held := Finset.mem_filter.mpr ⟨h.listed x hx,hx⟩

private theorem running_le : w.running.card ≤ w.quota.counter := (card_le_card fun _ hx => h.mem_held (.inl hx)).trans h.covered

end Kept

private theorem guarded_of_later {ms : Nat} (h : q.guarded x (now + ms) = true) : q.guarded x now = true := by
  unfold Quota.guarded at h ⊢
  cases hg : q.guard x with
  | none =>
    rw [hg] at h
    cases h
  | some =>
    rw [hg,Option.any_some,decide_eq_true_eq] at h
    rw [Option.any_some,decide_eq_true_eq]
    omega

theorem guarded_congr {q' : Quota} (h : q'.guard x = q.guard x) : q'.guarded x now = q.guarded x now := by
  rw [Quota.guarded,Quota.guarded,h]

private theorem kept_release (h : w.Kept cap) (careful : w.Holds eid) :
    (next server quotaId l (.release eid) w).Kept cap := by
  let w' := next server quotaId l (.release eid) w
  have run : ∀ x ∈ w'.running, x ≠ eid ∧ x ∈ w.running := by
    intro x hx
    obtain ⟨hm,going⟩ := mem_filter.mp hx
    obtain ⟨hne,hm⟩ := mem_erase.mp hm
    exact ⟨hne,mem_filter.mpr ⟨hm,going⟩⟩
  have guards : ∀ x, w'.quota.guarded x w'.now = true → x ≠ eid ∧ w.quota.guarded x w.now = true := by
    intro x hx
    by_cases he : x = eid
    · subst he
      simp [w',next,releaseAdmission,Quota.guarded] at hx
    · exact ⟨he,(guarded_congr (if_neg he)).symm.trans hx⟩
  have holds : ∀ x, w'.Holds x → x ≠ eid ∧ w.Holds x := by
    intro x hx
    rcases hx with hx | hx
    · exact ⟨(run x hx).1,.inl (run x hx).2⟩
    · exact ⟨(guards x hx).1,.inr (guards x hx).2⟩
  refine ⟨(card_le_card fun x hx => (run x hx).2).trans h.bounded,?_,?_,?_,?_,?_,?_⟩
  · intro x hx
    exact mem_erase.mpr ⟨(guards x hx).1,h.known x (guards x hx).2⟩
  · intro x hx
    exact mem_erase.mpr ⟨(holds x hx).1,h.listed x (holds x hx).2⟩
  · -- The slot that the counter gives up is the one of the released execution.
    have sub : w'.held ⊆ w.held.erase eid := by
      intro x hx
      obtain ⟨hne,hh⟩ := holds x (mem_filter.mp hx).2
      exact mem_erase.mpr ⟨hne,h.mem_held hh⟩
    have le := card_le_card sub
    rw [card_erase_of_mem (h.mem_held careful)] at le
    have covered := h.covered
    change w'.held.card ≤ w.quota.counter - 1
    omega
  · intro t ht
    exact h.counted t ((w.stage.tally_forget eid).symm.trans ht)
  · intro t ht x hx
    obtain ⟨hne,hh⟩ := holds x hx
    exact (h.found t ((w.stage.tally_forget eid).symm.trans ht) x hh).imp id (left_forget hne)
  · intro x rest owed t hs hx
    have same : w'.stage = w.stage.forget eid := rfl
    rw [same] at hs
    cases hstage : w.stage with
    | remove =>
      rw [hstage] at hs
      cases hs
      exact h.gone _ _ _ _ hstage (holds _ hx).2
    | _ =>
      rw [hstage] at hs
      cases hs

section
variable {nowMs : Int} {jitter : Nat}

theorem outcome_admitted (reply : QuotaReply) (a b : Finset String) : (match reply.outcome quotaId eid l with
      | .ok (.admitted _ _) => a
      | _ => b) = if reply.admits then a else b := by
  cases reply <;> rfl

theorem next_check (hcap : 0 < l.activeConcurrencyCap) : next server quotaId l (.check eid nowMs jitter) w = { w with
        quota := (w.ask server l eid nowMs jitter).2
        admitted :=
          if (w.ask server l eid nowMs jitter).1.admits then
            insert eid w.admitted
          else w.admitted } := by
  have limited : l.isUnlimited = false := by
    simp [QuotaPolicyLimits.isUnlimited]
    omega
  have asked : w.checked server quotaId l eid nowMs jitter = ((w.ask server l eid nowMs jitter).1.outcome quotaId eid l,
        (w.ask server l eid nowMs jitter).2) := by
    simp only [checked,checkQuota,limited]
    rfl
  simp only [next,asked]
  rw [outcome_admitted]

theorem Kept.admission (h : w.Kept l.activeConcurrencyCap) (hcap : 0 < l.activeConcurrencyCap) {q : Quota}
    (admits : Admits (l.admissionArgs eid nowMs jitter) w.now w.quota q) (idle : w.stage.tally.isNone) :
    Kept l.activeConcurrencyCap { w with quota := q, admitted := insert eid w.admitted } := by
  let w' : CapWorld := { w with quota := q, admitted := insert eid w.admitted }
  have run : w'.running ⊆ insert eid w.running := by
    intro x hx
    obtain ⟨hm,going⟩ := mem_filter.mp hx
    rcases mem_insert.mp hm with rfl | hm
    · exact mem_insert_self _ _
    · exact mem_insert_of_mem (mem_filter.mpr ⟨hm,going⟩)
  have guards : ∀ x, x ≠ eid → w'.quota.guarded x w'.now = true → w.quota.guarded x w.now = true := by
    intro x hne hx
    exact (guarded_congr (admits.guard x hne)).symm.trans hx
  have holds : ∀ x, w'.Holds x → x = eid ∨ w.Holds x := by
    intro x hx
    by_cases hne : x = eid
    · exact .inl hne
    · refine .inr (hx.imp (fun hr => ?_) (guards x hne))
      exact (mem_insert.mp (run hr)).resolve_left hne
  have counter := admits.counter_succ hcap
  have below := admits.counter_lt hcap
  have slots := card_insert_le eid w.held
  have covered := h.covered
  refine ⟨?_,?_,?_,?_,?_,?_,?_⟩
  · have le := (card_le_card run).trans (card_insert_le eid w.running)
    have running := h.running_le
    change w.quota.counter < l.activeConcurrencyCap at below
    change w'.running.card ≤ _
    omega
  · intro x hx
    by_cases hne : x = eid
    · rw [hne]
      exact mem_insert_self _ _
    · exact mem_insert_of_mem (h.known x (guards x hne hx))
  · intro x hx
    rw [admits.admittedSet]
    rcases holds x hx with rfl | hh
    · exact mem_insert_self _ _
    · exact mem_insert_of_mem (h.listed x hh)
  · have sub : w'.held ⊆ insert eid w.held := by
      intro x hx
      rcases holds x (mem_filter.mp hx).2 with rfl | hh
      · exact mem_insert_self _ _
      · exact mem_insert_of_mem (h.mem_held hh)
    have le := card_le_card sub
    change w'.held.card ≤ q.counter
    omega
  · intro t ht
    simp [show w.stage.tally = some t from ht] at idle
  · intro t ht
    simp [show w.stage.tally = some t from ht] at idle
  · intro x rest owed t hs
    simp [show w.stage = .remove x rest owed t from hs,ReconcileStage.tally] at idle

theorem kept_check (hcap : 0 < l.activeConcurrencyCap) (h : w.Kept l.activeConcurrencyCap)
    (careful : w.Careful server l (.check eid nowMs jitter)) :
    (next server quotaId l (.check eid nowMs jitter) w).Kept l.activeConcurrencyCap := by
  rw [next_check hcap]
  rcases check_cases server (l.admissionArgs eid nowMs jitter) w.now w.quota with ⟨hr,hc,hs⟩ | ⟨hr,admits⟩
  · have guards := check_guard hr
    -- The only other reply that admits is about an execution that is known already.
    have same : (if (w.ask server l eid nowMs jitter).1.admits
        then insert eid w.admitted else w.admitted) = w.admitted := by
      cases reply : (w.ask server l eid nowMs jitter).1 with
      | admitted => exact absurd reply hr
      | alreadyAdmitted => exact insert_eq_of_mem (h.known eid (check_alreadyAdmitted reply))
      | _ => rfl
    rw [same]
    exact h.shrink (Finset.Subset.refl _) (fun x hx => (guarded_congr (congrFun guards x)).symm.trans hx) rfl hs hc rfl
  · rw [hr]
    exact h.admission hcap admits (careful hr)

end

theorem kept_guardExists (h : w.Kept cap) (careful : w.Careful server l (.guardExists fails)) :
    (next server quotaId l (.guardExists fails) w).Kept cap := by
  simp only [next]
  split
  · rename_i eid rest owed t hstage
    have tally := congrArg tally hstage
    have found := h.found t tally
    have careful := careful eid (congrArg looking hstage)
    rw [hstage] at found
    split
    · refine h.goOn ?_ fun x hx => ?_
      · exact (card_insert_le eid t.seen).trans (succ_le_succ (h.counted t tally))
      · rcases found x hx with seen | left
        · exact .inl (mem_insert_of_mem seen)
        · rcases mem_insert.mp left with rfl | left
          · exact .inl (mem_insert_self _ _)
          · exact .inr left
    · rename_i missing
      have down : ¬ w.Holds eid := by
        rintro (run | up)
        · exact missing ⟨careful.2 run,careful.1⟩
        · exact missing ⟨up,careful.1⟩
      refine h.move rfl (h.counted t tally) ?_ ?_
      · rintro x hx
        refine (found x hx).imp id fun left => ?_
        rcases mem_insert.mp left with rfl | left
        · exact absurd hx down
        · exact left
      · rintro x rest' owed' t' hs
        cases hs
        exact down
  · exact h

theorem kept_srem (h : w.Kept cap) : (next server quotaId l (.srem fails) w).Kept cap := by
  simp only [next]
  split
  · rename_i eid rest owed t hstage
    have tally := congrArg tally hstage
    have down := h.gone eid rest owed t hstage
    have found := h.found t tally
    rw [hstage] at found
    split
    · exact h.goOn (h.counted t tally) found
    · -- What is removed holds nothing, so the slots are the same.
      have kept : Kept cap { w with quota := { w.quota with admittedSet := w.quota.admittedSet.erase eid } } := by
        refine ⟨h.bounded,h.known,fun x hx => ?_,?_,h.counted,h.found,h.gone⟩
        · refine mem_erase.mpr ⟨?_,h.listed x hx⟩
          rintro rfl
          exact down hx
        · exact (card_le_card (filter_subset_filter _ (erase_subset _ _))).trans h.covered
      refine kept.goOn (h.counted t tally) fun x hx => (found x hx).imp id fun left => ?_
      have hne : x ≠ eid := by
        rintro rfl
        exact down hx
      rcases mem_union.mp left with left | left
      · exact mem_union_left _ left
      · refine mem_union_right _ ?_
        cases owed with
        | none => exact left
        | some => exact mem_erase.mpr ⟨hne,left⟩
  · exact h

section
variable (h : w.Kept cap)
include h

theorem Kept.seen {t : LiveTally} (tally : w.stage.tally = some t) (left : w.stage.left = ∅) :
    ∀ x, w.Holds x → x ∈ t.seen := by
  intro x hx
  refine (h.found t tally x hx).resolve_right ?_
  rw [left]
  exact notMem_empty x

end

theorem kept_next (hcap : 0 < l.activeConcurrencyCap) (w : CapWorld) (i : CapStep)
    (h : w.Kept l.activeConcurrencyCap) (careful : w.Careful server l i) :
    (next server quotaId l i w).Kept l.activeConcurrencyCap := by
  cases i with
  | wait ms => exact h.shrink (Finset.Subset.refl _) (fun _ => guarded_of_later) rfl rfl rfl rfl
  | check => exact kept_check hcap h careful
  | release => exact kept_release h careful
  | call eid i lasting =>
    refine h.shrink ?_ (fun _ hg => hg) rfl rfl rfl rfl
    intro x hx
    obtain ⟨hm,going⟩ := mem_filter.mp hx
    refine mem_filter.mpr ⟨hm,?_⟩
    -- An execution that had ended before the call would have ended after it.
    by_contra ended
    have after : (Function.update w.executions eid ((w.executions eid).next i) x).ended = true :=
      Execution.ended_update (fun e => Execution.ended_next e lasting) (Bool.eq_true_of_not_eq_false ended)
    cases after.symm.trans going
  | reconcile =>
    simp only [next]
    split
    · exact h.move rfl (le_refl 0) (fun x hx => .inr (h.listed x hx)) fun _ _ _ _ hs => by cases hs
    · exact h
  | sscan members last =>
    simp only [next]
    split
    · rename_i owed t hstage
      split
      · rename_i scans
        have tally := congrArg tally hstage
        refine h.goOn (h.counted t tally) fun x hx => ?_
        refine (h.found t tally x hx).imp id fun due => ?_
        have due : x ∈ owed := by rwa [hstage] at due
        cases last with
        | true => exact mem_union_left _ (scans.2 rfl due)
        | false =>
          by_cases hm : x ∈ members.toFinset
          · exact mem_union_left _ hm
          · exact mem_union_right _ (mem_sdiff.mpr ⟨due,hm⟩)
      · exact h
    · exact h
  | guardExists fails => exact kept_guardExists fails h careful
  | srem fails => exact kept_srem fails h
  | get =>
    simp only [next]
    split
    · rename_i t hstage
      have tally := congrArg tally hstage
      have seen := h.seen tally (congrArg left hstage)
      split
      · exact h.rest
      · exact h.move rfl (h.counted t tally) (fun x hx => .inl (seen x hx)) fun _ _ _ _ hs => by cases hs
    · exact h
  | set =>
    simp only [next]
    split
    · rename_i t hstage
      have tally := congrArg tally hstage
      have seen := h.seen tally (congrArg left hstage)
      have slots : w.held.card ≤ t.live :=
        (card_le_card fun x hx => seen x (mem_filter.mp hx).2).trans (h.counted t tally)
      have written : Kept l.activeConcurrencyCap { w with quota := { w.quota with counter := t.live } } :=
        ⟨h.bounded,h.known,h.listed,slots,h.counted,h.found,h.gone⟩
      exact written.rest
    · exact h
  | fail =>
    simp only [next]
    split
    · exact h
    · exact h
    · exact h.rest

end CapWorld

/-- The cap holds in every run in which no admission comes into a round of the reconciler, every release
is of an execution that runs or is guarded, and the reconciler finds a guard for whatever runs. -/
theorem running_within_cap (server : Server) (quotaId : String) (l : QuotaPolicyLimits)
    (executions : String → Execution) (now : Int) (steps : List CapStep) (hcap : 0 < l.activeConcurrencyCap)
    (careful : Along (CapWorld.next server quotaId l) (CapWorld.Careful server l) (.start executions now) steps) :
    Throughout (CapWorld.next server quotaId l) (fun w => w.running.card ≤ l.activeConcurrencyCap)
      (.start executions now) steps :=
  careful.throughout (CapWorld.kept_next hcap) (fun _ h => h.bounded) (CapWorld.kept_start executions now)

namespace Client

def capped (cap : Nat) : QuotaPolicyLimits := ⟨0,1,cap,0⟩

variable (executionId : String)

def waitingJobs : Execution := .of [⟨0,.create { executionId, priority := .number 0, schedulingZset := .eligible }⟩]

def capStart : CapWorld := .start waitingJobs 0

def endJob : CapStep := .call executionId ⟨1,.cancel { executionId }⟩ rfl

/-- A round of the reconciler over one member, up to what it writes. -/
def lookAt (fails : Bool) : List CapStep := [.reconcile,.sscan [executionId] true,.guardExists fails]

/-- One of two executions ends and is released, and after a round of the reconciler a third one comes. -/
def slotComesBack : List CapStep :=
  [.check "A" 0 0,.check "B" 0 0,endJob "A",.release "A",.reconcile,.sscan ["B"] true,.guardExists false,.get,
    .check "C" 0 0]

theorem slot_comes_back :
    Throughout (CapWorld.next .strict "q" (capped 2)) (fun w => w.running.card ≤ 2) capStart slotComesBack ∧
      (runFrom (CapWorld.next .strict "q" (capped 2)) capStart slotComesBack).running = {"B","C"} :=
  ⟨running_within_cap .strict "q" (capped 2) waitingJobs 0 slotComesBack (by decide) (by decide +kernel),
    by decide +kernel⟩

def outlivesGuard : List CapStep :=
  [.check "A" 0 0,.wait 1001] ++ lookAt "A" false ++ [.srem false,.get,.set,.check "B" 1001 0]

/-- An admission between the reads of the reconciler and its write. -/
def admittedInBetween : List CapStep :=
  [.check "A" 0 0,endJob "A",.wait 1001] ++ lookAt "A" false ++
    [.srem false,.get,.check "B" 1001 0,.set,.check "C" 1001 0,.check "D" 1001 0]

/-- The release of an execution whose slot the reconciler has given away. -/
def releasedLate : List CapStep :=
  [.check "A" 0 0,endJob "A",.wait 1001] ++ lookAt "A" false ++
    [.srem false,.get,.set,.check "B" 1001 0,.release "A",.check "C" 1001 0]

/-- An error of the reconciler's question for the guard. -/
def unanswered : List CapStep := [.check "A" 0 0] ++ lookAt "A" true ++ [.srem false,.get,.set,.check "B" 1000 0]

theorem more_run_than_the_cap :
    (runFrom (CapWorld.next .strict "q" (capped 1)) capStart outlivesGuard).running = {"A","B"} ∧
      (runFrom (CapWorld.next .strict "q" (capped 2)) capStart admittedInBetween).running = {"B","C","D"} ∧
      (runFrom (CapWorld.next .strict "q" (capped 1)) capStart releasedLate).running = {"B","C"} ∧
      (runFrom (CapWorld.next .strict "q" (capped 1)) capStart unanswered).running = {"A","B"} := by
  decide +kernel

end Client

end FlowFabric
