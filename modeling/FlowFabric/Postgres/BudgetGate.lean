import FlowFabric.Postgres.GrantUse
import FlowFabric.Postgres.Overshoot

/-! Whether the scheduler keeps executions back whose budgets are used up. -/
namespace FlowFabric.Postgres
open Foundation List Function

/-! ### Runs of the budgets -/

inductive BudgetCall where
  | createBudget (a : CreateBudgetArgs)
  | use (q : UsageCall)

def BudgetCall.next (partition : String → Nat) : BudgetCall → BudgetStore → BudgetStore
  | .createBudget a, s => ((s.createBudget a).map Prod.snd).toOption.getD s
  | .use q, s => q.next partition s

def BudgetStore.Built (s : BudgetStore) : Prop :=
  ∀ b policy, s.policyJson b = some policy → ∃ a, policy = buildPolicyJson a

open BudgetStore

variable {s s' : BudgetStore}

private theorem recordSpend_policyJson (partition : String → Nat) (a : RecordSpendArgs) (s : BudgetStore) :
    (s.recordSpend partition a).2.policyJson = s.policyJson := by
  unfold BudgetStore.recordSpend
  split
  · split
    · rename_i hs
      exact (spend_ok hs).2
    · rfl
  · split
    · rfl
    · split
      · rename_i s' hs
        change s'.policyJson = _
        exact (spend_ok hs).2
      · rfl

private theorem policyJson_use (partition : String → Nat) (q : UsageCall) (s : BudgetStore) :
    (q.next partition s).policyJson = s.policyJson := by
  cases q with
  | reportUsage => rfl
  | reportUsageAdmin a =>
    have served : UsageCall.next partition (.reportUsageAdmin a) s = (s.reportUsageAdmin partition a).2 := rfl
    rw [served,reportUsageAdmin]
    split <;> rfl
  | recordSpend a => exact recordSpend_policyJson partition a s

private theorem built_next (h : s.Built) (partition : String → Nat) (q : BudgetCall) : (q.next partition s).Built := by
  cases q with
  | createBudget a =>
    rw [BudgetCall.next]
    cases hc : s.createBudget a with
    | error => exact h
    | ok =>
      simp only [createBudget,bind_ok,ensure_ok,exists_const] at hc
      obtain ⟨-,-,hc⟩ := hc
      split at hc
      · cases hc
        exact h
      · cases hc
        intro b policy hp
        change Function.update s.policyJson a.budgetId (some (buildPolicyJson a)) b = some policy at hp
        rw [update_apply] at hp
        split at hp
        · cases hp
          exact ⟨a,rfl⟩
        · exact h b policy hp
  | use =>
    rw [BudgetCall.next,BudgetStore.Built,policyJson_use]
    exact h

theorem admitBudget_built (h : s.Built) (p : BudgetPlacement) (b : String) : s.admitBudget p b = true := by
  unfold admitBudget policyAt
  dsimp only
  split
  · rfl
  · rename_i policy hp
    split at hp
    · obtain ⟨a,rfl⟩ := h b policy hp
      rfl
    · cases hp

/-! ### Grants -/

namespace Cluster

/-- The execution of a partition that would be granted if there were no budgets. -/
def candidate (c : Cluster) (a : ScheduleArgs) (locked : Nat → Uuid → Bool) (part : Nat) : Option (Uuid × Rows) :=
  (c.eligible a.lane locked part).find? fun m => capsMatch m.2.core.requiredCapabilities a.capabilities

def picked (c : Cluster) (a : ScheduleArgs) (locked : Nat → Uuid → Bool) : Option (Nat × Uuid × Rows) :=
  c.keystore.currentActiveKid.bind fun _ =>
    (List.range totalPartitions).findSome? fun part => (c.candidate a locked part).map fun m => (part,m)

/-- Every limit of the budget is above the usage of its dimension. -/
def HasRoom (s : BudgetStore) (b : String) : Prop :=
  ∀ dim limit, (limitsOf s.budgets b).lookup dim = some limit → 0 < limit → valueOf (s.budgets.usage b) dim < limit

variable {D : Digest} {p : BudgetPlacement} {a : ScheduleArgs} {now : Int} {locked : Nat → Uuid → Bool} {c : Cluster}

theorem tryClaimInPartition_built (h : c.budgets.Built) (key : String × String) (part : Nat) :
    (c.tryClaimInPartition D p a key now locked part).map (fun out => (out.1.partition,out.1.executionId)) =
      (c.candidate a locked part).map fun m => (part,m.1) := by
  unfold tryClaimInPartition candidate
  split
  · rename_i hn
    rw [hn]
    rfl
  · rename_i e rows hf
    have admits : rows.core.budgets.all (c.budgets.admitBudget p) = true :=
      all_eq_true.mpr fun b _ => admitBudget_built h p b
    rw [if_pos admits,hf]
    rfl

variable (D p now) in
theorem granted_iff_picked (h : c.budgets.Built) {part : Nat} {e : Uuid} :
    (∃ g c', c.claimForWorker D p a now locked = .ok (some (g,c')) ∧ g.partition = part ∧ g.executionId = e) ↔
      ∃ rows, c.picked a locked = some (part,e,rows) := by
  unfold claimForWorker picked
  cases c.keystore.currentActiveKid with
  | none => simp [demand,bind,Except.bind]
  | some key =>
    have same : ((List.range totalPartitions).findSome? fun part =>
          c.tryClaimInPartition D p a key now locked part).map (fun out => (out.1.partition,out.1.executionId)) =
        ((List.range totalPartitions).findSome? fun part => (c.candidate a locked part).map fun m => (part,m)).map
          fun out => (out.1,out.2.1) := by
      rw [map_findSome?,map_findSome?]
      refine congrArg (List.findSome? · _) (funext fun part => ?_)
      rw [comp_apply,tryClaimInPartition_built h key part,comp_apply,Option.map_map]
      rfl
    have here := congrArg (· = some (part,e)) same
    simp only [Option.map_eq_some_iff,Prod.exists,Prod.mk.injEq,eq_iff_iff] at here
    simp only [demand,bind,Except.bind,pure,Except.pure,Except.ok.injEq,Option.bind_some]
    rw [here]
    constructor
    · rintro ⟨_,_,rows,hp,rfl,rfl⟩
      exact ⟨rows,hp⟩
    · rintro ⟨rows,hp⟩
      exact ⟨_,_,rows,hp,rfl,rfl⟩

theorem rowsOf_picked {part : Nat} {e : Uuid} {rows : Rows} (h : c.picked a locked = some (part,e,rows)) :
    c.rowsOf part e = some rows := by
  obtain ⟨key,-,h⟩ := Option.bind_eq_some_iff.mp h
  obtain ⟨part',-,h⟩ := exists_of_findSome?_eq_some h
  obtain ⟨m,hm,he⟩ := Option.map_eq_some_iff.mp h
  cases he
  exact (mem_eligible (mem_of_find?_eq_some hm)).1

/-- Executions are granted only while their budgets have room exactly if the one that is picked without a look at
the budgets has such budgets. -/
theorem budgets_enforced_iff (D : Digest) (p : BudgetPlacement) (a : ScheduleArgs) (now : Int)
    (locked : Nat → Uuid → Bool) (keystore : Keystore) (execs : Nat → Table Uuid Rows) (calls : List BudgetCall) :
    let c : Cluster := ⟨keystore,runFrom (BudgetCall.next p.configured) {} calls,execs⟩
    (∀ g c', c.claimForWorker D p a now locked = .ok (some (g,c')) →
        ∀ rows, c.rowsOf g.partition g.executionId = some rows → ∀ b ∈ rows.core.budgets, HasRoom c.budgets b) ↔
      ∀ part e rows, c.picked a locked = some (part,e,rows) → ∀ b ∈ rows.core.budgets, HasRoom c.budgets b := by
  intro c
  have built : c.budgets.Built :=
    runFrom_invariant (I := BudgetStore.Built) (fun _ q hs => built_next hs p.configured q)
      (fun _ _ hp => by cases hp) calls
  constructor
  · intro enforced part e rows hp
    obtain ⟨g,c',hg,rfl,rfl⟩ := (granted_iff_picked D p now built).mpr ⟨rows,hp⟩
    exact enforced g c' hg rows (rowsOf_picked hp)
  · intro room g c' hg rows hr
    obtain ⟨rows',hp⟩ := (granted_iff_picked D p now built).mp ⟨g,c',hg,rfl,rfl⟩
    cases hr.symm.trans (rowsOf_picked hp)
    exact room _ _ rows hp

end Cluster

namespace Client

def attached : Rows := { core := { waiting with rawFields := { budgetIds := some "b" } } }

def spent : List BudgetCall := [.createBudget budgetArgs,.use (usageReport "tokens" 10)]

def spentCluster : Cluster :=
  { cluster with
    budgets := runFrom (BudgetCall.next onePlace.configured) {} spent
    execs := Function.update (fun _ => ∅) 0 ((∅ : Table Uuid Rows).insert 1 attached) }

/-- The execution is granted all the same. -/
theorem spent_budget_granted : attached.core.budgets = ["b"] ∧
      (limitsOf spentCluster.budgets.budgets "b").lookup "tokens" = some 10 ∧
      valueOf (spentCluster.budgets.budgets.usage "b") "tokens" = 10 ∧
      spentCluster.claimForWorker .sha256 onePlace schedules 10 (fun _ _ => false) =
        .ok (some (grant,spentCluster.setRows 0 1 (attached.claimGranted (Cluster.grantRow schedules "k1" 10)))) := by
  refine ⟨?_,?_,?_,rfl⟩
  · decide
  · decide +kernel
  · decide +kernel

end Client
end FlowFabric.Postgres
