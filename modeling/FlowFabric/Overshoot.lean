import FlowFabric.Spending

/-! Hard limits. Every amount of a call is compared with the usage before the call, so a
dimension that is listed twice can pass its limit. -/
namespace FlowFabric
open Foundation List BudgetCall

/-- The execution, if any, and the amounts of a call that reports usage. -/
def BudgetOp.amounts : BudgetOp → Option (String × UsageArgs)
  | reportUsageAndCheck a => some ("",a)
  | recordSpend executionId a => some (executionId,a)
  | releaseBudget _ | resetBudget _ => none

def Budget.withinLimits (b : Budget) : Prop :=
  ∀ d limit, b.hard.lookup d = some limit → 0 < limit → (b.usage.read d).value ≤ limit

/-- A call that is rejected changes no counter, any other adds exactly its amounts, and no
usage is above its limit afterwards. -/
def BudgetCall.addsExactly (server : Server) (i : BudgetCall) (b : Budget) : Prop :=
  ∀ executionId a, i.op.amounts = some (executionId,a) → ((budgetStep server i b).1.rejects →
      (budgetNext server i b).usage = b.usage ∧ (budgetNext server i b).byExec = b.byExec) ∧
    ((budgetStep server i b).1.rejects = false →
      (budgetNext server i b).account = b.account.spend (ownerOf executionId) a.deltas) ∧
    (budgetNext server i b).withinLimits

/-- A call that passes has amounts and totals that the counters hold. -/
def BudgetCall.countable (i : BudgetCall) (b : Budget) : Bool :=
  i.op.amounts.all fun e => !b.passes e.2 i.now || decide (Fits (2 ^ 63) (ownerOf e.1) e.2.deltas b.account)

/-- The amounts that a call lists for a limited dimension fit into the limit together, unless
there is only one. -/
def BudgetCall.fitsTogether (i : BudgetCall) (b : Budget) : Bool :=
  i.op.amounts.all fun call =>
    !b.passes call.2 i.now || call.2.deltas.all fun e => (b.hard.lookup e.1).all fun limit =>
      decide (limit = 0 ∨ (call.2.deltas.map Prod.fst).count e.1 = 1 ∨
        (b.usage.read e.1).value + sumFor e.1 call.2.deltas ≤ limit)

def Budget.exactLimits (b : Budget) : Prop := ∀ d limit, b.hard.lookup d = some limit → limit < 2 ^ 53

structure Budget.Bounded (b : Budget) : Prop where
  plain : b.Plain (2 ^ 63)
  limits : b.exactLimits
  within : b.withinLimits

variable {b : Budget} {i : BudgetCall} {limit : Nat}

private theorem le_of_not_exceeds {used delta : Nat} (hl : limit < 2 ^ 53) (hpos : 0 < limit)
    (h : exceeds (some limit) (double (double used + double delta)) = false) : used + delta ≤ limit := by
  simp only [exceeds,Option.any_some,decide_eq_false_iff_not,double_of_lt hl,not_and,Nat.not_lt] at h
  have hs : double (double used + double delta) = double used + double delta := double_eq_self (by omega)
  have hu : double used = used := double_eq_self (by omega)
  have hd : double delta = delta := double_eq_self (by omega)
  omega

variable {a : UsageArgs}

theorem budgetStep_amounts (server : Server) {executionId : String} (h : i.op.amounts = some (executionId,a)) :
    budgetStep server i b = checkAndIncrement server executionId a i.now b := by
  obtain ⟨now,op⟩ := i
  cases op <;> cases h <;> rfl

private theorem withinLimits_iff {now : Int} {b' : Budget} (hb : b.Bounded) (hp : b.passes a now)
    (hu : ∀ d, b'.usage.value d = b.usage.value d + sumFor d a.deltas) (hh : b'.hard = b.hard) :
    b'.withinLimits ↔ ∀ e ∈ a.deltas, ∀ limit, b.hard.lookup e.1 = some limit →
      limit = 0 ∨ (a.deltas.map Prod.fst).count e.1 = 1 ∨ b.usage.value e.1 + sumFor e.1 a.deltas ≤ limit := by
  constructor
  · intro h e he limit hl
    rcases Nat.eq_zero_or_pos limit with hz | hpos
    · exact .inl hz
    · have := h e.1 limit (hh ▸ hl) hpos
      rw [← hu]
      exact .inr (.inr this)
  · intro h d limit hl hpos
    rw [hh] at hl
    change b'.usage.value d ≤ limit
    rw [hu]
    by_cases hd : d ∈ a.deltas.map Prod.fst
    · obtain ⟨e,he,rfl⟩ := mem_map.mp hd
      rcases h e he limit hl with hz | once | hle
      · omega
      · rw [sumFor_of_count_eq_one he once]
        have hcheck := List.find?_eq_none.mp (passes_iff.mp hp).2 e he
        rw [hl] at hcheck
        have hcurrent : b.current e.1 = double (b.usage.value e.1) := rfl
        exact le_of_not_exceeds (hb.limits e.1 limit hl) hpos (eq_false_of_ne_true hcheck)
      · exact hle
    · rw [sumFor_eq_zero hd]
      exact hb.within d limit hl hpos

section
variable {executionId : String} {a : UsageArgs}

theorem forall_amounts {P : String → UsageArgs → Prop} (ha : i.op.amounts = some (executionId,a)) :
    (∀ x a', i.op.amounts = some (x,a') → P x a') ↔ P executionId a := by
  simp [ha]

private theorem fitsTogether_iff (ha : i.op.amounts = some (executionId,a)) (hp : b.passes a i.now) :
    i.fitsTogether b ↔ ∀ e ∈ a.deltas, ∀ limit, b.hard.lookup e.1 = some limit →
      limit = 0 ∨ (a.deltas.map Prod.fst).count e.1 = 1 ∨ b.usage.value e.1 + sumFor e.1 a.deltas ≤ limit := by
  simp only [fitsTogether,ha,Option.all_some,hp,Bool.not_true,Bool.false_or,all_eq_true]
  refine forall₂_congr fun e _ => ?_
  cases b.hard.lookup e.1 <;> simp [Hash.value]

theorem addsExactly_of_rejected (server : Server) (hb : b.Bounded)
    (ha : i.op.amounts = some (executionId,a)) (hp : b.passes a i.now = false) :
    i.addsExactly server b ∧ i.fitsTogether b ∧ (budgetNext server i b).Bounded := by
  obtain ⟨rejects,same⟩ := check_rejects server executionId hp
  have hstep := budgetStep_amounts (b := b) server ha
  have hn : budgetNext server i b = (checkAndIncrement server executionId a i.now b).2 := by rw [budgetNext,hstep]
  have within : (checkAndIncrement server executionId a i.now b).2.withinLimits := by
    intro d limit hl hpos
    rw [same.usage]
    exact hb.within d limit (same.hard ▸ hl) hpos
  rw [addsExactly,forall_amounts ha,hn,hstep]
  refine ⟨⟨fun _ => ⟨same.usage,same.byExec⟩,fun hr => ?_,within⟩,?_,same.plain hb.plain,?_,within⟩
  · rw [rejects] at hr
    cases hr
  · simp [fitsTogether,ha,hp]
  · intro d limit hl
    exact hb.limits d limit (same.hard ▸ hl)

end

theorem addsExactly_iff (server : Server) (hb : b.Bounded) (hc : i.countable b) (hi : i.op.amounts.isSome) :
    (i.addsExactly server b ↔ i.fitsTogether b) ∧ (i.addsExactly server b → (budgetNext server i b).Bounded) := by
  obtain ⟨⟨x,a⟩,ha⟩ := Option.isSome_iff_exists.mp hi
  by_cases hp : b.passes a i.now
  · have hf : Fits (2 ^ 63) (ownerOf x) a.deltas b.account := by
      simpa [BudgetCall.countable,ha,hp] using hc
    obtain ⟨accepts,plain,account,hard⟩ := check_passes server hp hb.plain (by decide) hf
    have hstep := budgetStep_amounts (b := b) server ha
    have hn : budgetNext server i b = (checkAndIncrement server x a i.now b).2 := by rw [budgetNext,hstep]
    rw [addsExactly,forall_amounts ha,hn,hstep,fitsTogether_iff ha hp,
      ← withinLimits_iff hb hp (fun d => congrFun (congrArg Account.usage account) d) hard]
    have exact := accepts_not_rejects accepts
    refine ⟨⟨fun h => h.2.2,fun h => ⟨fun hr => ?_,fun _ => account,h⟩⟩,fun h => ⟨plain,?_,h.2.2⟩⟩
    · rw [exact] at hr
      cases hr
    · intro d limit hl
      exact hb.limits d limit (hard ▸ hl)
  · obtain ⟨exactly,together,bounded⟩ := addsExactly_of_rejected server hb ha (eq_false_of_ne_true hp)
    exact ⟨iff_of_true exactly together,fun _ => bounded⟩

theorem lookup_limits {dimensions : List (String × Nat × Nat)} {h : Hash Nat} {d : String}
    (hl : (dimensions.foldl (fun h e => h.insert e.1 e.2.1) h).lookup d = some limit) :
    h.lookup d = some limit ∨ ∃ soft, (d,limit,soft) ∈ dimensions := by
  induction dimensions generalizing h with
  | nil => exact .inl hl
  | cons e dimensions ih =>
    rcases ih hl with hl | ⟨soft,hm⟩
    · by_cases hd : d = e.1
      · subst hd
        rw [AList.lookup_insert] at hl
        cases hl
        exact .inr ⟨e.2.2,mem_cons_self⟩
      · rw [AList.lookup_insert_ne hd] at hl
        exact .inl hl
    · exact .inr ⟨soft,mem_cons_of_mem e hm⟩

theorem bounded_new {c : CreateBudgetArgs} (hl : ∀ e ∈ c.dimensions, e.2.1 < 2 ^ 53) : (newBudget c).Bounded := by
  refine ⟨plain_new c (by decide),fun d limit h => ?_,fun d limit _ _ => Nat.zero_le limit⟩
  rcases lookup_limits h with h | ⟨soft,hm⟩
  · cases h
  · exact hl _ hm

/-- In every run of usage reports and spends on a new budget, with limits, amounts and totals that
the numbers hold, every call adds exactly its amounts or nothing and no limit is passed, exactly
if no call lists a limited dimension several times with amounts that pass it together. -/
theorem limits_are_kept (server : Server) (c : CreateBudgetArgs) (calls : List BudgetCall)
    (hi : ∀ i ∈ calls, i.op.amounts.isSome) (hl : ∀ e ∈ c.dimensions, e.2.1 < 2 ^ 53)
    (hc : Along (budgetNext server) (fun b i => i.countable b) (newBudget c) calls) :
    Along (budgetNext server) (fun b i => i.addsExactly server b) (newBudget c) calls ↔
      Along (budgetNext server) (fun b i => i.fitsTogether b) (newBudget c) calls := by
  refine Along.iff_of (J := Budget.Bounded) (fun b i hb h => ?_) (fun b i hb h => ?_) (bounded_new hl)
    ((Along.of_forall hi _).and hc)
  · exact (addsExactly_iff server hb h.2 h.1).1
  · exact (addsExactly_iff server hb h.2 h.1).2

namespace Client

/-- Three spends on a limit of ten. The second one is refused and the third one is not. -/
theorem spends_within_limit : let calls := [spend 1 "A" 6,spend 2 "B" 7,spend 3 "B" 4]
    Along (budgetNext .strict) (fun b i => i.addsExactly .strict b) (tokenBudget 10) calls ∧
      (runFrom (budgetNext .strict) (tokenBudget 10) calls).usage.read "tokens" = .digits 10 :=
  ⟨(limits_are_kept .strict _ _ (by decide) (by decide) (by decide +kernel)).mpr (by decide +kernel),
    by decide +kernel⟩

/-- A report that lists one dimension twice passes a limit of ten. -/
theorem repeated_dimension_passes_limit : let report : BudgetCall :=
      ⟨1,.reportUsageAndCheck { deltas := [("tokens",6),("tokens",6)], nowMs := 1 }⟩
    (tokenBudget 10).hard.lookup "tokens" = some 10 ∧ (budgetStep .strict report (tokenBudget 10)).1 = .ok ∧
      (budgetNext .strict report (tokenBudget 10)).usage.read "tokens" = .digits 12 := by
  decide +kernel

end Client
end FlowFabric
