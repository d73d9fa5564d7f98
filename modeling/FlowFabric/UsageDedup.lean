import Mathlib.Algebra.Group.Int.Defs
import FlowFabric.Budget
import FlowFabric.Foundation.Label
import FlowFabric.Foundation.Recorder

/-! Usage reports with a dedup key, on the Valkey and on the Postgres backend. Both keep the record of
a report under the partition of its budget and the caller's key. -/
namespace FlowFabric
open Foundation Option String Budget

/-- The amounts of a report in the order of their dimensions, and the key the caller gave it. -/
structure UsageDimensions where
  custom : List (String × Nat)
  dedupKey : Option String := none
  sorted : (custom.map Prod.fst).Pairwise (· < ·) := by decide

/-- A report, with the caller's clock and the clock of the Valkey server. -/
structure UsageReport where
  budgetId : String
  dimensions : UsageDimensions
  nowMs : Nat
  now : Int

/-- An empty key is no key. -/
def UsageReport.dedupId (r : UsageReport) : Option String := r.dimensions.dedupKey.filter (· ≠ "")

def dedupTtlMs : Int := 24 * 60 * 60 * 1000

def budgetHashTag (partition : Nat) : String := "\x7bb:" ++ toString partition ++ "\x7d"

def usageDedupKey (hashTag dedupId : String) : String := "ff:usagededup:" ++ hashTag ++ ":" ++ dedupId

/-! ### Valkey -/

/-- The budgets, and when the dedup keys of all partitions expire. -/
structure ValkeyBudgets where
  budgets : String → Budget
  dedup : String → Option Int

open ValkeyBudgets

namespace ValkeyBudgets
variable (server : Server) (partition : String → Nat)

variable (r : UsageReport)

def dedupKey : Option String := r.dedupId.map (usageDedupKey (budgetHashTag (partition r.budgetId)))

def usageArgs : UsageArgs := ⟨r.dimensions.custom,r.nowMs,(dedupKey partition r).getD ""⟩

/-- The keys of the budget, and with them the dedup keys, which belong to no budget. -/
def keysFor (w : ValkeyBudgets) (budgetId : String) : Budget := { w.budgets budgetId with dedup := w.dedup }

def reportUsage (w : ValkeyBudgets) : BudgetReply × ValkeyBudgets :=
  let out := reportUsageAndCheck server (usageArgs partition r) r.now (w.keysFor r.budgetId)
  (out.1,
    { budgets := Function.update w.budgets r.budgetId { out.2 with dedup := (w.budgets r.budgetId).dedup }
      dedup := out.2.dedup })

end ValkeyBudgets

/-! ### Postgres -/

inductive ReportUsageResult where
  | ok
  | alreadyApplied
  | softBreach (dimension : String) (currentUsage softLimit : Nat)
  | hardBreach (dimension : String) (currentUsage hardLimit : Nat)
  deriving DecidableEq

structure BudgetPolicyRow where
  (hardLimits softLimits : Hash Nat)
  (breachCount softBreachCount : Nat := 0)
  lastBreachAtMs : Option Nat := none
  lastBreachDim : Option String := none
  updatedAtMs : Nat

structure DedupRow where
  outcome : ReportUsageResult
  appliedAtMs : Nat
  expiresAtMs : Int

/-- The tables. A row of a budget lies in the partition of the budget. -/
structure PgBudgets where
  policy : String → Option BudgetPolicyRow
  usage : String → Hash Int
  dedup : Nat → String → Option DedupRow

/-- The answer, and which of the two returns of the function gave it. A transaction that fails is
rolled back. -/
inductive PgReply where
  | evaluated (outcome : ReportUsageResult)
  | replayed (outcome : ReportUsageResult)
  | failed
  deriving DecidableEq

def asU64 (value : Int) : Nat := (value % 2 ^ 64).toNat

def asI64 (n : Nat) : Int := if n < 2 ^ 63 then n else n - 2 ^ 64

def saturatingAdd (m n : Nat) : Nat := min (m + n) (2 ^ 64 - 1)

/-- A limit of zero is none. -/
def exceeded (limit : Option Nat) (value : Nat) : Option Nat := limit.filter fun l => decide (0 < l ∧ l < value)

/-- Every dimension gets its row before it is checked, up to the first that breaches. -/
def checkHardLimits (hard : Hash Nat) : List (String × Nat) → Hash Int → Option (String × Nat × Nat) × Hash Int
  | [],usage => (none,usage)
  | e :: es,usage =>
    let current := (usage.lookup e.1).getD 0
    match exceeded (hard.lookup e.1) (saturatingAdd (asU64 current) e.2) with
    | some limit => (some (e.1,asU64 current,limit),usage.insert e.1 current)
    | none => checkHardLimits hard es (usage.insert e.1 current)

/-- A sum beyond the column's range is an error. -/
def applyIncrements (soft : Hash Nat) :
    List (String × Nat) → Option ReportUsageResult → Hash Int → Option (Option ReportUsageResult × Hash Int)
  | [],breach,usage => some (breach,usage)
  | e :: es,breach,usage =>
    let current := (usage.lookup e.1).getD 0
    let value := saturatingAdd (asU64 current) e.2
    let sum := current + asI64 e.2
    if -2 ^ 63 ≤ sum ∧ sum < 2 ^ 63 then
      applyIncrements soft es
        (breach.or ((exceeded (soft.lookup e.1) value).map (.softBreach e.1 value)))
        (usage.insert e.1 sum)
    else none

namespace PgBudgets

def setUsage (w : PgBudgets) (budgetId : String) (usage : Hash Int) : PgBudgets :=
  { w with usage := fun x => if x = budgetId then usage else w.usage x }

def updatePolicy (w : PgBudgets) (budgetId : String) (f : BudgetPolicyRow → BudgetPolicyRow) : PgBudgets :=
  { w with policy := fun x => if x = budgetId then (w.policy x).map f else w.policy x }

/-- The report is checked and its amounts added. A budget without a policy has no limits. -/
def evaluate (r : UsageReport) (w : PgBudgets) : Option (ReportUsageResult × PgBudgets) :=
  let hard := ((w.policy r.budgetId).map BudgetPolicyRow.hardLimits).getD ∅
  let soft := ((w.policy r.budgetId).map BudgetPolicyRow.softLimits).getD ∅
  match checkHardLimits hard r.dimensions.custom (w.usage r.budgetId) with
  | (some (dimension,current,limit),usage) =>
    some (.hardBreach dimension current limit,(w.setUsage r.budgetId usage).updatePolicy r.budgetId fun row =>
        { row with
          breachCount := row.breachCount + 1, lastBreachAtMs := some r.nowMs
          lastBreachDim := some dimension, updatedAtMs := r.nowMs })
  | (none,usage) =>
    match applyIncrements soft r.dimensions.custom none usage with
    | none => none
    | some (none,usage) => some (.ok,w.setUsage r.budgetId usage)
    | some (some outcome,usage) =>
      some (outcome,(w.setUsage r.budgetId usage).updatePolicy r.budgetId fun row =>
        { row with softBreachCount := row.softBreachCount + 1, updatedAtMs := r.nowMs })

def insertDedup (w : PgBudgets) (partition : Nat) (k : String) (row : DedupRow) : PgBudgets :=
  { w with dedup := fun n x => if n = partition ∧ x = k then some row else w.dedup n x }

variable (partition : String → Nat)

/-- The row is inserted first; one that is there is replayed, whether or not it has expired. -/
def reportUsage (r : UsageReport) (w : PgBudgets) : PgReply × PgBudgets :=
  match r.dedupId with
  | none =>
    match w.evaluate r with
    | some (outcome,w') => (.evaluated outcome,w')
    | none => (.failed,w)
  | some k =>
    match w.dedup (partition r.budgetId) k with
    | some row => (.replayed row.outcome,w)
    | none =>
      match w.evaluate r with
      | some (outcome,w') =>
        (.evaluated outcome,w'.insertDedup (partition r.budgetId) k ⟨outcome,r.nowMs,r.nowMs + dedupTtlMs⟩)
      | none => (.failed,w)

end PgBudgets

/-! ### The labels -/

private theorem usageDedupKey_inj {m n : Nat} {k l : String}
    (h : usageDedupKey (budgetHashTag m) k = usageDedupKey (budgetHashTag n) l) : m = n ∧ k = l := by
  have closing : ∀ i : Nat, '\x7d' ∉ (toString i).toList := by
    intro i hi
    rw [show toString i = i.repr from rfl,Nat.toList_repr] at hi
    exact notMem_toDigits (by decide) i hi
  have hl := congrArg String.toList h
  simp only [usageDedupKey,budgetHashTag,toList_append,List.append_assoc,List.append_cancel_left_eq] at hl
  obtain ⟨hm,ht⟩ := append_delimiter_inj (closing m) (closing n) hl
  refine ⟨toString_injective (toList_injective hm),toList_injective ?_⟩
  simpa using ht

section
variable {server : Server} {executionId : String} {a : UsageArgs} {now : Int} {b b' : Budget}

theorem increment_dedup {e : String × Nat}
    (h : b.increment server executionId e = .ok b' ∨ b.increment server executionId e = .error b') :
    b'.dedup = b.dedup := by
  unfold increment at h
  cases hu : b.usage.hincrby server e.1 (double e.2) with
  | none =>
    rw [hu] at h
    rcases h with h | h <;> cases h
    rfl
  | some =>
    rw [hu] at h
    by_cases hx : executionId = ""
    · simp only [demand,bind,Except.bind,if_pos hx] at h
      rcases h with h | h <;> cases h
      rfl
    · simp only [demand,bind,Except.bind,if_neg hx] at h
      cases hl : (b.byExec executionId).hincrby server e.1 (double e.2) <;> rw [hl] at h <;>
        rcases h with h | h <;> cases h <;> rfl

theorem incrementAll_dedup {es : List (String × Nat)} {soft : Option String}
    (h : (∃ soft', b.incrementAll server executionId es soft = .ok (soft',b')) ∨
      b.incrementAll server executionId es soft = .error b') : b'.dedup = b.dedup := by
  induction es generalizing b soft with
  | nil =>
    rcases h with ⟨_,h⟩ | h <;> cases h
    rfl
  | cons e es ih =>
    rw [incrementAll] at h
    cases hi : b.increment server executionId e with
    | error =>
      rw [hi] at h
      rcases h with ⟨_,h⟩ | h <;> cases h
      exact increment_dedup (.inr hi)
    | ok =>
      rw [hi] at h
      exact (ih h).trans (increment_dedup (.inl hi))

private theorem checkAndIncrement_dedup (server : Server) (executionId : String) (a : UsageArgs) (now : Int)
    (b : Budget) :
    (checkAndIncrement server executionId a now b).2.dedup =
      if (checkAndIncrement server executionId a now b).1.accepts then (b.stamp a.dedupKey now).dedup
      else b.dedup := by
  unfold checkAndIncrement
  by_cases ha : b.applied a.dedupKey now
  · rw [if_pos ha]
    rfl
  rw [if_neg ha]
  cases hb : b.hardBreach a.deltas with
  | some => rfl
  | none =>
    cases hi : b.incrementAll server executionId a.deltas none with
    | error => exact incrementAll_dedup (.inr hi)
    | ok out =>
      obtain ⟨soft,b₁⟩ := out
      have kept : b₁.dedup = b.dedup := incrementAll_dedup (.inl ⟨soft,hi⟩)
      have stamped : ((b₁.noteUpdate executionId a.nowMs).stamp a.dedupKey now).dedup =
          (b.stamp a.dedupKey now).dedup := by
        unfold stamp
        split
        · exact kept
        · simp only [noteUpdate,kept]
      cases soft <;> exact stamped

private theorem checkAndIncrement_evaluates (h : b.applied a.dedupKey now = false) :
    (checkAndIncrement server executionId a now b).1 ≠ .alreadyApplied := by
  unfold checkAndIncrement
  rw [if_neg (by simp [h])]
  cases b.hardBreach a.deltas with
  | some => simp
  | none =>
    cases b.incrementAll server executionId a.deltas none with
    | error => simp
    | ok out =>
      obtain ⟨soft,b₁⟩ := out
      cases soft <;> simp

end

section
variable {b : Budget} {now : Int} {label : Option String}

private theorem applied_getD (h : ∀ key, label = some key → key ≠ "") :
    b.applied (label.getD "") now ↔ ∃ key, label = some key ∧ ∃ e, b.dedup key = some e ∧ now ≤ e := by
  cases label with
  | none => simp [applied]
  | some key => simp [applied,h key rfl,any_eq_true]

variable (b now) in
private theorem stamp_getD (h : ∀ key, label = some key → key ≠ "") (key : String) :
    (b.stamp (label.getD "") now).dedup key =
      if label = some key then some (now + dedupTtlMs) else b.dedup key := by
  cases label with
  | none => rfl
  | some k =>
    rw [getD_some,stamp,if_neg (h k rfl)]
    by_cases hk : key = k
    · rw [if_pos (congrArg some hk.symm)]
      exact if_pos hk
    · rw [if_neg fun he => hk (Option.some.inj he).symm]
      exact if_neg hk

end

namespace ValkeyBudgets
variable {server : Server} {partition : String → Nat} {r : UsageReport} {w : ValkeyBudgets} {key : String}

theorem dedupKey_ne_empty (h : dedupKey partition r = some key) : key ≠ "" := by
  obtain ⟨k,-,rfl⟩ := map_eq_some_iff.mp h
  intro h
  have hl := congrArg String.toList h
  simp [usageDedupKey] at hl

def Live (w : ValkeyBudgets) (key : String) (r : UsageReport) : Prop := ∃ e, w.dedup key = some e ∧ r.now ≤ e

private theorem applied_iff : (w.keysFor r.budgetId).applied (usageArgs partition r).dedupKey r.now ↔
    ∃ key, dedupKey partition r = some key ∧ w.Live key r :=
  applied_getD fun _ h => dedupKey_ne_empty h

theorem reportUsage_replays : reportUsage server partition r w = (.alreadyApplied,w) ↔
    ∃ key, dedupKey partition r = some key ∧ w.Live key r := by
  rw [← applied_iff]
  constructor
  · intro h
    by_contra evaluated
    rw [Bool.not_eq_true] at evaluated
    exact checkAndIncrement_evaluates evaluated (congrArg Prod.fst h)
  · intro h
    simp only [reportUsage,reportUsageAndCheck,checkAndIncrement,if_pos h]
    have same : { w.keysFor r.budgetId with dedup := (w.budgets r.budgetId).dedup } = w.budgets r.budgetId := rfl
    rw [same,Function.update_eq_self]
    rfl

theorem reportUsage_dedup : (reportUsage server partition r w).2.dedup key =
    if (reportUsage server partition r w).1.accepts ∧ dedupKey partition r = some key then
      some (r.now + dedupTtlMs)
    else w.dedup key := by
  have named : ∀ key, dedupKey partition r = some key → key ≠ "" := fun _ => dedupKey_ne_empty
  have written : (reportUsage server partition r w).2.dedup = if (reportUsage server partition r w).1.accepts
      then ((w.keysFor r.budgetId).stamp (usageArgs partition r).dedupKey r.now).dedup else w.dedup :=
    checkAndIncrement_dedup server "" (usageArgs partition r) r.now (w.keysFor r.budgetId)
  rw [written]
  by_cases accepts : (reportUsage server partition r w).1.accepts
  · rw [if_pos accepts]
    simp only [accepts,true_and]
    exact stamp_getD (w.keysFor r.budgetId) r.now named key
  · rw [if_neg accepts,if_neg fun h => accepts h.1]

def recorder (server : Server) (partition : String → Nat) : Recorder ValkeyBudgets UsageReport String where
  next r w := (reportUsage server partition r w).2
  label := dedupKey partition
  live := Live
  replays r w := reportUsage server partition r w = (.alreadyApplied,w)
  records r w := (reportUsage server partition r w).1.accepts
  covers q r := r.now ≤ q.now + dedupTtlMs
  replays_iff _ _ := reportUsage_replays
  live_after q w key r recorded labelled := by simp [Live,reportUsage_dedup,recorded,labelled]
  live_next q w key r other := by simp only [Live,reportUsage_dedup,if_neg other]

end ValkeyBudgets

namespace PgBudgets
variable {partition : String → Nat} {r : UsageReport} {w : PgBudgets}

def label (partition : String → Nat) (r : UsageReport) : Option (Nat × String) := r.dedupId.map (partition r.budgetId,·)

theorem evaluate_dedup {outcome : ReportUsageResult} {w' : PgBudgets} (h : w.evaluate r = some (outcome,w')) :
    w'.dedup = w.dedup := by
  simp only [evaluate] at h
  split at h
  · cases h
    rfl
  · split at h <;> cases h <;> rfl

def Replayed (partition : String → Nat) (r : UsageReport) (w : PgBudgets) : Prop :=
  ∃ outcome, reportUsage partition r w = (.replayed outcome,w)

def Recorded (partition : String → Nat) (r : UsageReport) (w : PgBudgets) : Prop :=
  ∃ outcome, (reportUsage partition r w).1 = .evaluated outcome

theorem replayed_iff : Replayed partition r w ↔ ∃ l, label partition r = some l ∧ (w.dedup l.1 l.2).isSome := by
  unfold Replayed label reportUsage
  cases r.dedupId with
  | none =>
    cases w.evaluate r <;> simp
  | some k =>
    simp only [map_some,Option.some.injEq,exists_eq_left']
    cases w.dedup (partition r.budgetId) k with
    | some => simp
    | none => cases w.evaluate r <;> simp

theorem reportUsage_dedup (n : Nat) (x : String) : (((reportUsage partition r w).2.dedup n x).isSome ↔
    Recorded partition r w ∧ label partition r = some (n,x) ∨ (w.dedup n x).isSome) := by
  unfold Recorded label reportUsage
  cases r.dedupId with
  | none =>
    cases he : w.evaluate r with
    | none => simp
    | some => simp [evaluate_dedup he]
  | some k =>
    simp only [map_some,Option.some.injEq,Prod.mk.injEq]
    cases hd : w.dedup (partition r.budgetId) k with
    | some => simp
    | none =>
      cases he : w.evaluate r with
      | none => simp
      | some =>
        have kept := evaluate_dedup he
        by_cases hl : n = partition r.budgetId ∧ x = k
        · simp [insertDedup,hl]
        · have other : ¬ (partition r.budgetId = n ∧ k = x) := fun h => hl ⟨h.1.symm,h.2.symm⟩
          simp [insertDedup,hl,other,kept]

/-- A row lasts for ever. -/
def recorder (partition : String → Nat) : Recorder PgBudgets UsageReport (Nat × String) where
  next r w := (reportUsage partition r w).2
  label := label partition
  live w l _ := (w.dedup l.1 l.2).isSome
  replays := Replayed partition
  records := Recorded partition
  covers _ _ := True
  replays_iff _ _ := replayed_iff
  live_after _ _ l _ recorded labelled :=
    iff_of_true ((reportUsage_dedup l.1 l.2).mpr (.inl ⟨recorded,labelled⟩)) trivial
  live_next _ _ l _ other := (reportUsage_dedup l.1 l.2).trans (or_iff_right other)

end PgBudgets

section
variable {k : String} (partition : String → Nat) (r : UsageReport)

theorem dedupId_eq_some (hk : k ≠ "") : r.dedupId = some k ↔ r.dimensions.dedupKey = some k := by
  simp [UsageReport.dedupId,filter_eq_some_iff,hk]

theorem ValkeyBudgets.dedupKey_eq_iff (hk : k ≠ "") (n : Nat) :
    dedupKey partition r = some (usageDedupKey (budgetHashTag n) k) ↔
      r.dimensions.dedupKey = some k ∧ partition r.budgetId = n := by
  rw [← dedupId_eq_some r hk,dedupKey,map_eq_some_iff]
  constructor
  · rintro ⟨l,hl,he⟩
    obtain ⟨rfl,rfl⟩ := usageDedupKey_inj he
    exact ⟨hl,rfl⟩
  · rintro ⟨hl,rfl⟩
    exact ⟨k,hl,rfl⟩

theorem PgBudgets.label_eq_iff (hk : k ≠ "") (n : Nat) :
    PgBudgets.label partition r = some (n,k) ↔ r.dimensions.dedupKey = some k ∧ partition r.budgetId = n := by
  simp [← dedupId_eq_some r hk,PgBudgets.label,and_comm]

end

section
variable (partition : String → Nat) {first second : UsageReport} {between : List UsageReport} {k : String}
  (hk : k ≠ "") (hfirst : first.dimensions.dedupKey = some k)
  (hsecond : second.dimensions.dedupKey = some k) (others : ∀ r ∈ between, r.dimensions.dedupKey ≠ some k)
include hk hfirst hsecond others

theorem ValkeyBudgets.replays_second (server : Server) {v : ValkeyBudgets}
    (inside : second.now ≤ first.now + dedupTtlMs)
    (unmet : ∀ n e, v.dedup (usageDedupKey (budgetHashTag n) k) = some e → e < second.now) :
    (recorder server partition).replays second
        (runFrom (recorder server partition).next v (first :: between)) ↔
      (reportUsage server partition first v).1.accepts ∧ partition first.budgetId = partition second.budgetId := by
  refine (recorder server partition).replays_later
    (fun r => dedupKey_eq_iff partition r hk _) hfirst hsecond others ?_ inside
  rintro ⟨e,he,hn⟩
  have := unmet _ e he
  omega

theorem PgBudgets.replayed_second {p : PgBudgets} (unused : ∀ n, p.dedup n k = none) :
    PgBudgets.Replayed partition second (runFrom (PgBudgets.recorder partition).next p (first :: between)) ↔
      PgBudgets.Recorded partition first p ∧ partition first.budgetId = partition second.budgetId := by
  refine (PgBudgets.recorder partition).replays_later (fun r => PgBudgets.label_eq_iff partition r hk _)
    hfirst hsecond others ?_ trivial
  intro h
  have row : (p.dedup (partition second.budgetId) k).isSome := h
  rw [unused] at row
  cases row

end

theorem same_budget_iff {partition : String → Nat} {b₁ b₂ : String} {records : Prop} :
    (records ∧ partition b₁ = partition b₂ ↔ b₁ = b₂) ↔
      (b₁ = b₂ → records) ∧ (b₁ ≠ b₂ → records → partition b₁ ≠ partition b₂) := by
  by_cases h : b₁ = b₂
  · simp [h]
  · simp [h]

/-- On either backend a second report with the same key is a replay of the first one exactly when both
are on the same budget, provided that on the same budget the first one was recorded, and that on
another budget the partition is another one or the first report was not recorded. -/
theorem replay_iff_same_budget_iff (server : Server) (partition : String → Nat) (v : ValkeyBudgets) (p : PgBudgets)
    (first second : UsageReport) (between : List UsageReport) (k : String) (hk : k ≠ "")
    (hfirst : first.dimensions.dedupKey = some k) (hsecond : second.dimensions.dedupKey = some k)
    (others : ∀ r ∈ between, r.dimensions.dedupKey ≠ some k) (inside : second.now ≤ first.now + dedupTtlMs)
    (unmet : ∀ n e, v.dedup (usageDedupKey (budgetHashTag n) k) = some e → e < second.now)
    (unused : ∀ n, p.dedup n k = none) :
    let v' := runFrom (fun r v => (reportUsage server partition r v).2) v (first :: between)
    let p' := runFrom (fun r p => (PgBudgets.reportUsage partition r p).2) p (first :: between)
    ((reportUsage server partition second v' = (.alreadyApplied,v') ↔ first.budgetId = second.budgetId) ↔
      (first.budgetId = second.budgetId → (reportUsage server partition first v).1.accepts) ∧
      (first.budgetId ≠ second.budgetId → (reportUsage server partition first v).1.accepts →
        partition first.budgetId ≠ partition second.budgetId)) ∧
    ((PgBudgets.Replayed partition second p' ↔ first.budgetId = second.budgetId) ↔
      (first.budgetId = second.budgetId → PgBudgets.Recorded partition first p) ∧
      (first.budgetId ≠ second.budgetId → PgBudgets.Recorded partition first p →
        partition first.budgetId ≠ partition second.budgetId)) := by
  intro v' p'
  have valkey := replays_second partition hk hfirst hsecond others server inside unmet
  have postgres := PgBudgets.replayed_second partition hk hfirst hsecond others unused
  exact ⟨(iff_congr valkey .rfl).trans same_budget_iff,(iff_congr postgres .rfl).trans same_budget_iff⟩

namespace Client

def plainBudget : Budget := newBudget { nowMs := 0, dimensions := [] }

def emptyValkey : ValkeyBudgets := ⟨fun _ => plainBudget,fun _ => none⟩

def emptyPg : PgBudgets := ⟨fun _ => none,fun _ => ∅,fun _ _ => none⟩

def oneToken (budgetId : String) (nowMs : Nat) : UsageReport where
  budgetId
  dimensions := { custom := [("tokens",1)], dedupKey := some "k" }
  nowMs
  now := nowMs

def onePartition (_ : String) : Nat := 0

/-- Reports with other keys. -/
def otherReports : List UsageReport :=
  [{ oneToken "a" 1 with dimensions := { custom := [("tokens",1)], dedupKey := some "l" } },
    { oneToken "b" 1 with dimensions := { custom := [("tokens",1)] } }]

def valkeyAfter (rs : List UsageReport) : ValkeyBudgets :=
  runFrom (fun r v => (reportUsage .strict onePartition r v).2) emptyValkey rs

def pgAfter (rs : List UsageReport) : PgBudgets :=
  runFrom (fun r p => (PgBudgets.reportUsage onePartition r p).2) emptyPg rs

/-- The second report of the budget is a replay of the first. -/
theorem second_report_is_replayed : let reports := oneToken "a" 0 :: otherReports
    reportUsage .strict onePartition (oneToken "a" 2) (valkeyAfter reports) = (.alreadyApplied,valkeyAfter reports) ∧
      PgBudgets.Replayed onePartition (oneToken "a" 2) (pgAfter reports) := by
  have law := replay_iff_same_budget_iff .strict onePartition emptyValkey emptyPg (oneToken "a" 0)
    (oneToken "a" 2) otherReports "k" (by decide) rfl rfl (by decide) (by decide) (by simp [emptyValkey]) (fun _ => rfl)
  refine ⟨(law.1.mpr ⟨fun _ => ?_,fun h => absurd rfl h⟩).mpr rfl,
    (law.2.mpr ⟨fun _ => ?_,fun h => absurd rfl h⟩).mpr rfl⟩
  · decide +kernel
  · exact ⟨.ok,by decide +kernel⟩

/-- A report of another budget of the partition is answered with the first one, on either backend. -/
theorem other_budget_is_not_charged :
    let onValkey := reportUsage .strict onePartition (oneToken "b" 1) (valkeyAfter [oneToken "a" 0])
    let onPostgres := PgBudgets.reportUsage onePartition (oneToken "b" 1) (pgAfter [oneToken "a" 0])
    onValkey.1 = .alreadyApplied ∧ (onValkey.2.budgets "b").current "tokens" = 0 ∧
      onPostgres.1 = .replayed .ok ∧ (onPostgres.2.usage "b").lookup "tokens" = none := by
  refine ⟨?_,?_,?_,?_⟩ <;> decide +kernel

end Client

end FlowFabric
