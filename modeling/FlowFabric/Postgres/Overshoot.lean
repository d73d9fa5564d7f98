import Mathlib.Algebra.Order.BigOperators.Group.List
import FlowFabric.Postgres.Budgets

/-! Whether the usage of a budget stays within its limits, and whether the amounts of a call are what it adds. -/
namespace FlowFabric.Postgres
open Foundation List Int Prod

/-! ### Amounts -/

def given (es : List (String × Nat)) (dim : String) : Nat := ((es.filter fun e => e.1 = dim).map snd).sum

/-- What the statements add to the usage of a dimension. -/
def added (es : List (String × Nat)) (dim : String) : Int := ((es.filter fun e => e.1 = dim).map fun e => asI64 e.2).sum

private theorem added_cons (e : String × Nat) (es : List (String × Nat)) (dim : String) :
    added (e :: es) dim = (if dim = e.1 then asI64 e.2 else 0) + added es dim := by
  by_cases h : dim = e.1
  · simp [added,h]
  · simp [added,h,Ne.symm h]

/-- The value of a dimension. A row that is missing counts as zero. -/
def valueOf (usage : Hash Int) (dim : String) : Int := (usage.lookup dim).getD 0

theorem valueOf_insert (usage : Hash Int) (k dim : String) (v : Int) :
    valueOf (usage.insert k v) dim = if dim = k then v else valueOf usage dim := by
  rw [valueOf,Hash.lookup_insert]
  split <;> rfl

theorem valueOf_touch (usage : Hash Int) (k dim : String) :
    valueOf (usage.insert k ((usage.lookup k).getD 0)) dim = valueOf usage dim := by
  rw [valueOf_insert]
  split
  · rename_i h
    rw [h,valueOf]
  · rfl

theorem checkHardLimits_value (hard : Hash Nat) (es : List (String × Nat)) (usage : Hash Int) (dim : String) :
    valueOf (checkHardLimits hard es usage).2 dim = valueOf usage dim := by
  induction es generalizing usage with
  | nil => rfl
  | cons e es ih =>
    rw [checkHardLimits]
    split
    · exact valueOf_touch usage e.1 dim
    · rw [ih,valueOf_touch]

/-- No limit is exceeded by the value and the amount of a dimension. -/
def Fits (hard : Hash Nat) (usage : Hash Int) (e : String × Nat) : Prop :=
  exceeded (hard.lookup e.1) (FlowFabric.saturatingAdd (asU64 (valueOf usage e.1)) e.2) = none

variable {usage usage' : Hash Int} {es : List (String × Nat)} {breach breach' : Option ReportUsageResult}
    {soft : Hash Nat}

private theorem checkHardLimits_fits {hard : Hash Nat}
    (h : (checkHardLimits hard es usage).1 = none) : ∀ e ∈ es, Fits hard usage e := by
  induction es generalizing usage with
  | nil => exact fun _ he => absurd he not_mem_nil
  | cons e es ih =>
    rw [checkHardLimits] at h
    split at h
    · cases h
    · rename_i hfit
      rw [forall_mem_cons]
      refine ⟨hfit,fun e' he' => ?_⟩
      have fits := ih h e' he'
      rwa [Fits,valueOf_touch] at fits

private theorem applyIncrements_value
    (h : applyIncrements soft es breach usage = some (breach',usage')) (dim : String) :
    valueOf usage' dim = valueOf usage dim + added es dim ∧ (valueOf usage dim < 2 ^ 63 → valueOf usage' dim < 2 ^ 63) := by
  induction es generalizing breach usage with
  | nil =>
    cases h
    exact ⟨by simp [added],id⟩
  | cons e es ih =>
    rw [applyIncrements] at h
    split at h
    · rename_i range
      obtain ⟨hv,hr⟩ := ih h
      rw [valueOf_insert] at hv hr
      rw [added_cons]
      split at hv
      · rename_i hd
        rw [if_pos hd] at hr ⊢
        subst hd
        change valueOf usage' e.1 = (valueOf usage e.1 + asI64 e.2) + added es e.1 at hv
        exact ⟨by rw [hv,add_assoc],fun _ => hr range.2⟩
      · rename_i hd
        rw [if_neg hd] at hr ⊢
        exact ⟨by rw [hv,zero_add],hr⟩
    · cases h

private theorem applyIncrements_soft (h : applyIncrements soft es breach usage = some (breach',usage'))
    (hb : ∀ outcome ∈ breach, isHardBreach outcome = false) : ∀ outcome ∈ breach', isHardBreach outcome = false := by
  induction es generalizing breach usage with
  | nil =>
    cases h
    exact hb
  | cons e es ih =>
    rw [applyIncrements] at h
    split at h
    · refine ih h ?_
      intro outcome ho
      rcases Option.or_eq_some_iff.mp ho with ho | ⟨-,ho⟩
      · exact hb outcome ho
      · obtain ⟨limit,-,rfl⟩ := Option.map_eq_some_iff.mp ho
        rfl
    · cases h

/-! ### What an evaluation leaves -/

def limitsOf (w : PgBudgets) (b : String) : Hash Nat := ((w.policy b).map BudgetPolicyRow.hardLimits).getD ∅

theorem limitsOf_updatePolicy (w : PgBudgets) (k : String) {f : BudgetPolicyRow → BudgetPolicyRow}
    (hf : ∀ row, (f row).hardLimits = row.hardLimits) (b : String) : limitsOf (w.updatePolicy k f) b = limitsOf w b := by
  rw [limitsOf,PgBudgets.updatePolicy]
  dsimp only
  split
  · rw [Option.map_map,limitsOf]
    exact congrArg (fun g => ((w.policy b).map g).getD ∅) (funext hf)
  · rfl

structure Counted (w w' : PgBudgets) (r : UsageReport) (outcome : ReportUsageResult) : Prop where
  limits : ∀ b, limitsOf w' b = limitsOf w b
  others : ∀ b, r.budgetId ≠ b → w'.usage b = w.usage b
  breached : isHardBreach outcome = true → ∀ dim, valueOf (w'.usage r.budgetId) dim = valueOf (w.usage r.budgetId) dim
  fits : isHardBreach outcome = false → ∀ e ∈ r.dimensions.custom, Fits (limitsOf w r.budgetId) (w.usage r.budgetId) e
  counted : isHardBreach outcome = false → ∀ dim,
    valueOf (w'.usage r.budgetId) dim = valueOf (w.usage r.budgetId) dim + added r.dimensions.custom dim ∧
      (valueOf (w.usage r.budgetId) dim < 2 ^ 63 → valueOf (w'.usage r.budgetId) dim < 2 ^ 63)

section
variable {w w' : PgBudgets} {r : UsageReport} {outcome : ReportUsageResult} {usage usage' : Hash Int}

theorem Counted.of_breach {found : String × Nat × Nat}
    (hc : checkHardLimits (limitsOf w r.budgetId) r.dimensions.custom (w.usage r.budgetId) = (some found,usage))
    (ho : isHardBreach outcome = true) (hl : ∀ b, limitsOf w' b = limitsOf w b)
    (hu : ∀ b, w'.usage b = if b = r.budgetId then usage else w.usage b) : Counted w w' r outcome := by
  refine ⟨hl,?_,?_,?_,?_⟩
  · intro b hb
    rw [hu,if_neg (Ne.symm hb)]
  · intro _ dim
    rw [hu,if_pos rfl,← checkHardLimits_value (limitsOf w r.budgetId) r.dimensions.custom (w.usage r.budgetId),hc]
  · intro hf
    cases ho.symm.trans hf
  · intro hf
    cases ho.symm.trans hf

theorem Counted.of_applied {soft : Hash Nat} {breach : Option ReportUsageResult}
    (hc : checkHardLimits (limitsOf w r.budgetId) r.dimensions.custom (w.usage r.budgetId) = (none,usage))
    (ha : applyIncrements soft r.dimensions.custom none usage = some (breach,usage'))
    (ho : isHardBreach outcome = false) (hl : ∀ b, limitsOf w' b = limitsOf w b)
    (hu : ∀ b, w'.usage b = if b = r.budgetId then usage' else w.usage b) : Counted w w' r outcome := by
  refine ⟨hl,?_,?_,?_,?_⟩
  · intro b hb
    rw [hu,if_neg (Ne.symm hb)]
  · intro hf
    cases ho.symm.trans hf
  · intro _
    exact checkHardLimits_fits (by rw [hc])
  · intro _ dim
    have same := checkHardLimits_value (limitsOf w r.budgetId) r.dimensions.custom (w.usage r.budgetId) dim
    rw [hc] at same
    rw [hu,if_pos rfl,← same]
    exact applyIncrements_value ha dim

theorem evaluate_counted (h : w.evaluate r = some (outcome,w')) : Counted w w' r outcome := by
  rw [PgBudgets.evaluate] at h
  split at h
  · rename_i hc
    cases h
    exact .of_breach hc rfl (limitsOf_updatePolicy _ _ fun _ => rfl) fun _ => rfl
  · rename_i hc
    split at h
    · cases h
    · rename_i ha
      cases h
      exact .of_applied hc ha rfl (fun _ => rfl) fun _ => rfl
    · rename_i ha
      cases h
      refine .of_applied hc ha ?_ (limitsOf_updatePolicy _ _ fun _ => rfl) fun _ => rfl
      exact applyIncrements_soft ha (fun _ hb => by cases hb) _ rfl

end

/-! ### Calls -/

/-- The outcome of a call that is no replay, is not rejected and commits. -/
def evaluatedAs : Except EngineError PgReply → Option ReportUsageResult
  | .ok (.evaluated outcome) => some outcome
  | .ok (.replayed _) | .ok .failed | .error _ => none

inductive UsageCall where
  | reportUsage (r : UsageReport)
  | reportUsageAdmin (a : ReportUsageAdminArgs)
  | recordSpend (a : RecordSpendArgs)

open UsageCall

namespace UsageCall

def report : UsageCall → UsageReport
  | .reportUsage r => r
  | .reportUsageAdmin a => a.report
  | .recordSpend a => a.report

def listed : UsageCall → List (String × Nat)
  | .reportUsage r => r.dimensions.custom
  | .reportUsageAdmin a => a.dimensions.zip a.deltas
  | .recordSpend a => a.report.dimensions.custom

variable (partition : String → Nat)

def serve : UsageCall → BudgetStore → Except EngineError PgReply × BudgetStore
  | .reportUsage r, s => (.ok (s.reportUsage partition r).1,(s.reportUsage partition r).2)
  | .reportUsageAdmin a, s => s.reportUsageAdmin partition a
  | .recordSpend a, s => (.ok (s.recordSpend partition a).1,(s.recordSpend partition a).2)

def next (q : UsageCall) (s : BudgetStore) : BudgetStore := (q.serve partition s).2

def outcome (q : UsageCall) (s : BudgetStore) : Option ReportUsageResult := evaluatedAs (q.serve partition s).1

end UsageCall

section
variable {partition : String → Nat}

variable {outcome : ReportUsageResult} {e : String × Nat} {es : List (String × Nat)}

theorem Counted.insertDedup {w w' : PgBudgets} {r : UsageReport}
    (h : Counted w w' r outcome) (n : Nat) (k : String) (row : DedupRow) :
    Counted w (w'.insertDedup n k row) r outcome :=
  ⟨h.limits,h.others,h.breached,h.fits,h.counted⟩

private theorem reportUsage_cases (partition : String → Nat) (r : UsageReport) (w : PgBudgets) :
    evaluatedAs (.ok (w.reportUsage partition r).1) = none ∧ (w.reportUsage partition r).2 = w ∨
      ∃ outcome, evaluatedAs (.ok (w.reportUsage partition r).1) = some outcome ∧
        Counted w (w.reportUsage partition r).2 r outcome := by
  unfold PgBudgets.reportUsage
  split
  · split
    · rename_i he
      exact .inr ⟨_,rfl,evaluate_counted he⟩
    · exact .inl ⟨rfl,rfl⟩
  · split
    · exact .inl ⟨rfl,rfl⟩
    · split
      · rename_i he
        exact .inr ⟨_,rfl,(evaluate_counted he).insertDedup _ _ _⟩
      · exact .inl ⟨rfl,rfl⟩

theorem spend_ok {a : RecordSpendArgs} {s s' : BudgetStore} (h : s.spend a = some (outcome,s')) :
    Counted s.budgets s'.budgets a.report outcome ∧ s'.policyJson = s.policyJson := by
  unfold BudgetStore.spend at h
  split at h
  · cases h
  · rename_i he
    split at h
    · cases h
      exact ⟨evaluate_counted he,rfl⟩
    · obtain ⟨ledger,-,hs⟩ := Option.map_eq_some_iff.mp h
      cases hs
      exact ⟨evaluate_counted he,rfl⟩

/-- A call that has no outcome has no effect, any other one that of its evaluation. -/
theorem serve_cases (partition : String → Nat) (q : UsageCall) (s : BudgetStore) :
    q.outcome partition s = none ∧ q.next partition s = s ∨ ∃ outcome, q.outcome partition s = some outcome ∧
        Counted s.budgets (q.next partition s).budgets q.report outcome := by
  have reported (r : UsageReport) :
      evaluatedAs (.ok (s.reportUsage partition r).1) = none ∧ (s.reportUsage partition r).2 = s ∨
        ∃ outcome, evaluatedAs (.ok (s.reportUsage partition r).1) = some outcome ∧
          Counted s.budgets (s.reportUsage partition r).2.budgets r outcome :=
    (reportUsage_cases partition r s.budgets).imp_left fun h => ⟨h.1,by rw [BudgetStore.reportUsage,h.2]⟩
  cases q with
  | reportUsage r => exact reported r
  | reportUsageAdmin a =>
    have served : serve partition (.reportUsageAdmin a) s = s.reportUsageAdmin partition a := rfl
    rw [outcome,UsageCall.next,served,BudgetStore.reportUsageAdmin]
    split
    · exact .inl ⟨rfl,rfl⟩
    · exact reported a.report
  | recordSpend a =>
    change evaluatedAs (.ok (s.recordSpend partition a).1) = none ∧ (s.recordSpend partition a).2 = s ∨
      ∃ outcome, evaluatedAs (.ok (s.recordSpend partition a).1) = some outcome ∧
        Counted s.budgets (s.recordSpend partition a).2.budgets a.report outcome
    unfold BudgetStore.recordSpend
    split
    · split
      · rename_i hs
        exact .inr ⟨_,rfl,(spend_ok hs).1⟩
      · exact .inl ⟨rfl,rfl⟩
    · split
      · exact .inl ⟨rfl,rfl⟩
      · split
        · rename_i hs
          exact .inr ⟨_,rfl,(spend_ok hs).1.insertDedup _ _ _⟩
        · exact .inl ⟨rfl,rfl⟩

/-! ### Listed and counted amounts -/

private theorem mem_listed {q : UsageCall} (h : e ∈ q.report.dimensions.custom) : e ∈ q.listed := by
  cases q with
  | reportUsage | recordSpend => exact h
  | reportUsageAdmin => exact SortedMap.mem_of_mem_ofList h

private theorem keys_listed (q : UsageCall) (dim : String) :
    dim ∈ q.report.dimensions.custom.map fst ↔ dim ∈ q.listed.map fst := by
  cases q with
  | reportUsage | recordSpend => exact Iff.rfl
  | reportUsageAdmin => exact SortedMap.mem_keys_ofList

theorem filter_key_eq_nil {dim : String} (h : dim ∉ es.map fst) : es.filter (fun e => e.1 = dim) = [] := by
  rw [filter_eq_nil_iff]
  intro e he hd
  exact h (of_decide_eq_true hd ▸ mem_map_of_mem he)

private theorem le_given (h : e ∈ es) : e.2 ≤ given es e.1 :=
  single_le_sum (fun _ _ => Nat.zero_le _) _
    (mem_map_of_mem (mem_filter.mpr ⟨h,decide_eq_true rfl⟩))

theorem asI64_of_lt {n : Nat} (h : n < 2 ^ 63) : asI64 n = n := if_pos h

theorem added_of_mem {d : UsageDimensions} (he : e ∈ d.custom) : added d.custom e.1 = asI64 e.2 := by
  rw [added,SortedMap.Sorted.filter_key d.sorted he]
  simp

theorem added_of_notMem {dim : String} (h : dim ∉ es.map fst) : added es dim = 0 := by
  rw [added,filter_key_eq_nil h]
  rfl

private theorem added_eq_given_iff (q : UsageCall) :
    (∀ dim, added q.report.dimensions.custom dim = given q.listed dim) ↔
      ∀ e ∈ q.report.dimensions.custom, e.2 < 2 ^ 63 ∧ given q.listed e.1 = e.2 := by
  constructor
  · intro sums e he
    have sum := sums e.1
    have least := le_given (mem_listed he)
    rw [added_of_mem he] at sum
    have fits : e.2 < 2 ^ 63 := by
      by_contra hn
      have less : asI64 e.2 < e.2 := by
        rw [asI64,if_neg hn]
        omega
      omega
    rw [asI64_of_lt fits] at sum
    exact ⟨fits,by omega⟩
  · intro amounts dim
    by_cases hd : dim ∈ q.report.dimensions.custom.map fst
    · obtain ⟨e,he,rfl⟩ := mem_map.mp hd
      rw [added_of_mem he,asI64_of_lt (amounts e he).1,(amounts e he).2]
    · rw [added_of_notMem hd,given,filter_key_eq_nil (fun h => hd ((keys_listed q dim).mpr h))]
      rfl

/-! ### The law -/

/-- The stored values are non-negative and not above a positive hard limit. They are of type bigint. -/
def Within (b : String) (limits : Hash Nat) (s : BudgetStore) : Prop :=
  ∀ dim, 0 ≤ valueOf (s.budgets.usage b) dim ∧ valueOf (s.budgets.usage b) dim < 2 ^ 63 ∧
    ∀ limit, limits.lookup dim = some limit → 0 < limit → valueOf (s.budgets.usage b) dim ≤ limit

/-- What a call does to the usage of a budget: a hard breach, a replay and a rejected call change nothing, and
every other call adds what it lists. -/
def AddsListed (partition : String → Nat) (b : String) (s : BudgetStore) (q : UsageCall) : Prop :=
  ∀ dim, valueOf ((q.next partition s).budgets.usage b) dim = valueOf (s.budgets.usage b) dim +
    match q.outcome partition s with
    | some outcome => if isHardBreach outcome = false ∧ q.report.budgetId = b then (given q.listed dim : Int) else 0
    | none => 0

/-- A call that is counted lists each dimension once, or only zeros besides the last, with an amount that fits
a bigint. -/
def Sums (partition : String → Nat) (b : String) (s : BudgetStore) (q : UsageCall) : Prop :=
  ∀ outcome, q.outcome partition s = some outcome → isHardBreach outcome = false → q.report.budgetId = b →
    ∀ e ∈ q.report.dimensions.custom, e.2 < 2 ^ 63 ∧ given q.listed e.1 = e.2

private theorem addsListed_iff (b : String) (s : BudgetStore) (q : UsageCall) :
    AddsListed partition b s q ↔ Sums partition b s q := by
  unfold AddsListed Sums
  rcases serve_cases partition q s with ⟨ho,hs⟩ | ⟨outcome,ho,hc⟩
  · simp only [ho,hs,add_zero]
    exact iff_of_true (fun _ => trivial) (fun _ h => by cases h)
  · simp only [ho]
    by_cases hb : q.report.budgetId = b
    · subst hb
      cases hh : isHardBreach outcome with
      | true =>
        refine iff_of_true ?_ ?_
        · intro dim
          rw [hc.breached hh dim]
          simp
        · rintro _ ⟨⟩ hf
          cases hh.symm.trans hf
      | false =>
        have sums : (∀ dim, valueOf ((q.next partition s).budgets.usage q.report.budgetId) dim =
            valueOf (s.budgets.usage q.report.budgetId) dim + (given q.listed dim : Int)) ↔
              ∀ dim, added q.report.dimensions.custom dim = given q.listed dim := by
          refine forall_congr' fun dim => ?_
          rw [(hc.counted hh dim).1]
          exact add_right_inj _
        simp only [and_self,if_true,sums,added_eq_given_iff]
        exact ⟨fun h _ _ _ _ => h,fun h => h outcome rfl hh trivial⟩
    · refine iff_of_true ?_ fun _ _ _ h => absurd h hb
      intro dim
      rw [hc.others b hb,if_neg (fun h => hb h.2),add_zero]

theorem Fits.le {hard : Hash Nat} {usage : Hash Int} (h : Fits hard usage e)
    (low : 0 ≤ valueOf usage e.1) (high : valueOf usage e.1 < 2 ^ 63) (fits : e.2 < 2 ^ 63) {limit : Nat}
    (hl : hard.lookup e.1 = some limit) (hp : 0 < limit) : valueOf usage e.1 + e.2 ≤ limit := by
  rw [Fits,hl,exceeded,Option.filter_eq_none_iff] at h
  have least : ¬ (0 < limit ∧ limit < FlowFabric.saturatingAdd (asU64 (valueOf usage e.1)) e.2) := by
    simpa using h limit rfl
  have below : FlowFabric.saturatingAdd (asU64 (valueOf usage e.1)) e.2 ≤ limit := by omega
  rw [FlowFabric.saturatingAdd,asU64,emod_eq_of_lt low (by omega)] at below
  omega

/-- A call whose amounts add up keeps the usage within the limits. -/
theorem Within.next {b : String} {limits : Hash Nat} {s : BudgetStore} (h : Within b limits s)
    (hl : limitsOf s.budgets b = limits) {q : UsageCall} (hq : Sums partition b s q) :
    Within b limits (q.next partition s) := by
  rcases serve_cases partition q s with ⟨-,hs⟩ | ⟨outcome,ho,hc⟩
  · rw [hs]
    exact h
  · intro dim
    by_cases hb : q.report.budgetId = b
    · subst hb
      cases hh : isHardBreach outcome with
      | true =>
        rw [hc.breached hh dim]
        exact h dim
      | false =>
        obtain ⟨low,high,least⟩ := h dim
        obtain ⟨value,range⟩ := hc.counted hh dim
        by_cases hd : dim ∈ q.report.dimensions.custom.map fst
        · obtain ⟨e,he,rfl⟩ := mem_map.mp hd
          have fits := (hq outcome ho hh rfl e he).1
          rw [added_of_mem he,asI64_of_lt fits] at value
          refine ⟨by omega,range high,fun limit hlimit hp => ?_⟩
          rw [value]
          exact (hc.fits hh e he).le low high fits (by rw [hl,hlimit]) hp
        · rw [added_of_notMem hd,add_zero] at value
          rw [value]
          exact h dim
    · rw [hc.others b hb]
      exact h dim

private theorem limitsOf_next (b : String) (s : BudgetStore) (q : UsageCall) :
    limitsOf (q.next partition s).budgets b = limitsOf s.budgets b := by
  rcases serve_cases partition q s with ⟨-,hs⟩ | ⟨outcome,-,hc⟩
  · rw [hs]
  · exact hc.limits b

end

/-! ### New budgets -/

def CreateBudgetArgs.limits (a : CreateBudgetArgs) : Hash Nat := Hash.hset (a.dimensions.zip a.hardLimits) ∅

theorem foldl_put_limitFields (es : List (String × Nat)) (h : ∀ e ∈ es, e.2 < 2 ^ 64) (limits : Hash Nat) :
    (es.map fun e => (e.1,Json.num e.2)).foldl (fun limits f => Hash.put f.1 (asNat f.2) limits) limits =
      Hash.hset es limits := by
  induction es generalizing limits with
  | nil => rfl
  | cons e es ih =>
    obtain ⟨he,hes⟩ := forall_mem_cons.mp h
    have number : asNat (.num e.2) = some e.2 := by
      rw [asNat,if_pos ⟨natCast_nonneg _,by exact_mod_cast he⟩,toNat_natCast]
    rw [map_cons,foldl_cons,number,Hash.put,ih hes,Hash.hset_cons]

theorem limitsFromPolicy_buildPolicyJson (a : CreateBudgetArgs) (h : ∀ l ∈ a.hardLimits, l < 2 ^ 64) :
    limitsFromPolicy (buildPolicyJson a) "hard_limits" = a.limits :=
  foldl_put_limitFields _ (fun _ he => h _ (of_mem_zip he).2) ∅

theorem limitsOf_created {a : CreateBudgetArgs} {s s' : BudgetStore} (h : ∀ l ∈ a.hardLimits, l < 2 ^ 64)
    (hc : s.createBudget a = .ok (.created,s')) : limitsOf s'.budgets a.budgetId = a.limits := by
  simp only [BudgetStore.createBudget,bind_ok,ensure_ok,exists_const] at hc
  obtain ⟨-,-,hc⟩ := hc
  split at hc
  · cases hc
  · cases hc
    rw [limitsOf,BudgetStore.install,← limitsFromPolicy_buildPolicyJson a h]
    dsimp only
    rw [Function.update_self]
    rfl

/-- Usage stays within the limits of a new budget and every call adds what it lists, exactly if the usage that
is there already is within the limits and the amounts of every call that is counted add up. -/
theorem usage_exact_iff (partition : String → Nat) {a : CreateBudgetArgs} (hu : ∀ l ∈ a.hardLimits, l < 2 ^ 64)
    {s₀ s : BudgetStore} (hc : s₀.createBudget a = .ok (.created,s)) (qs : List UsageCall) :
    Throughout (next partition) (Within a.budgetId a.limits) s qs ∧
        Along (next partition) (AddsListed partition a.budgetId) s qs ↔
      Within a.budgetId a.limits s ∧ Along (next partition) (Sums partition a.budgetId) s qs := by
  have same : AddsListed partition a.budgetId = Sums partition a.budgetId :=
    funext₂ fun s q => propext (addsListed_iff a.budgetId s q)
  rw [same]
  constructor
  · exact fun h => ⟨h.1.start,h.2⟩
  · rintro ⟨start,sums⟩
    refine ⟨?_,sums⟩
    refine Along.throughout (I := fun s => Within a.budgetId a.limits s ∧ limitsOf s.budgets a.budgetId = a.limits)
      ?_ (fun _ h => h.1) ⟨start,limitsOf_created hu hc⟩ sums
    rintro s q ⟨within,limits⟩ hq
    exact ⟨within.next limits hq,(limitsOf_next _ s q).trans limits⟩

namespace Client

/-- A budget with a limit on one of its two dimensions. -/
def budgetArgs : CreateBudgetArgs :=
  { budgetId := "b", dimensions := ["calls","tokens"], hardLimits := [0,10], softLimits := [0,0], nowMs := 0 }

def budgetStore : BudgetStore := ({} : BudgetStore).install "b" (buildPolicyJson budgetArgs) 0

def usageReport (dim : String) (amount : Nat) : UsageCall :=
  .reportUsage ⟨"b",{ custom := [(dim,amount)], sorted := List.pairwise_singleton _ dim },1,1⟩

theorem budgetStore_created : ({} : BudgetStore).createBudget budgetArgs = .ok (.created,budgetStore) := rfl

theorem budgetStore_within : Within "b" budgetArgs.limits budgetStore :=
  fun _ => ⟨le_refl 0,(by decide : (0 : Int) < 2 ^ 63),fun _ _ _ => natCast_nonneg _⟩

/-- The second report would go beyond the limit. -/
theorem small_amounts_exact : Throughout (next fun _ => 0) (Within "b" budgetArgs.limits) budgetStore
        [usageReport "tokens" 7,usageReport "tokens" 7] ∧
      Along (next fun _ => 0) (AddsListed (fun _ => 0) "b") budgetStore
        [usageReport "tokens" 7,usageReport "tokens" 7] := by
  refine (usage_exact_iff (fun _ => 0) (by decide) budgetStore_created _).mpr ⟨budgetStore_within,?_,?_,trivial⟩
  · intro _ _ _ _
    decide
  · intro _ _ _ _
    decide

/-- An amount of 2 ^ 63 makes the usage negative. -/
theorem usage_negative : ({} : BudgetStore).createBudget budgetArgs = .ok (.created,budgetStore) ∧
      Within "b" budgetArgs.limits budgetStore ∧
      valueOf (((usageReport "calls" (2 ^ 63)).next (fun _ => 0) budgetStore).budgets.usage "b") "calls" = -2 ^ 63 ∧
      ¬ Throughout (next fun _ => 0) (Within "b" budgetArgs.limits) budgetStore
        [usageReport "calls" (2 ^ 63)] := by
  have negative :
      valueOf (((usageReport "calls" (2 ^ 63)).next (fun _ => 0) budgetStore).budgets.usage "b") "calls" = -2 ^ 63 := by
    decide +kernel
  refine ⟨budgetStore_created,budgetStore_within,negative,?_⟩
  rintro ⟨-,h⟩
  have low := (h "calls").1
  exact absurd low (by decide)

end Client
end FlowFabric.Postgres
