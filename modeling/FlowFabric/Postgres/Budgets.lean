import FlowFabric.Foundation.SortedMap
import FlowFabric.Postgres.Rows
import FlowFabric.UsageDedup

/-! Budgets with the documents of their policies, and the methods that create them and count usage. The tables
of limits and of usage are those of the usage reports. -/
namespace FlowFabric.Postgres
open Foundation

/-! ### Policies -/

def asNat : Json → Option Nat
  | .num n => if 0 ≤ n ∧ n < 2 ^ 64 then some n.toNat else none
  | _ => none

def limitsFromPolicy (policy : Json) (key : String) : Hash Nat :=
  match policy.field key with
  | some (.obj fields) => fields.foldl (fun limits f => Hash.put f.1 (asNat f.2) limits) ∅
  | _ => ∅

structure CreateBudgetArgs where
  budgetId : String
  (onHardLimit onSoftLimit : String := "")
  resetIntervalMs : Nat := 0
  dimensions : List String
  (hardLimits softLimits : List Nat)
  nowMs : Nat

def limitFields (dimensions : List String) (limits : List Nat) : List (String × Json) :=
  (dimensions.zip limits).map fun e => (e.1,.num e.2)

def buildPolicyJson (a : CreateBudgetArgs) : Json :=
  .obj [("hard_limits",.obj (limitFields a.dimensions a.hardLimits)),
    ("soft_limits",.obj (limitFields a.dimensions a.softLimits)),("reset_interval_ms",.num a.resetIntervalMs),
    ("on_hard_limit",.str a.onHardLimit),("on_soft_limit",.str a.onSoftLimit)]

/-- The tables of the budgets: the policy_json column and the other columns of the policies, the usage and the
dedup rows, and the usage by execution. -/
structure BudgetStore where
  policyJson : String → Option Json := fun _ => none
  budgets : PgBudgets := ⟨fun _ => none,fun _ => ∅,fun _ _ => none⟩
  byExec : String → Uuid → Hash Int := fun _ _ => ∅

inductive CreateBudgetResult where
  | created | alreadySatisfied

namespace BudgetStore

/-- The row of a new policy. The limits are those that its document has. -/
def install (s : BudgetStore) (budgetId : String) (policy : Json) (nowMs : Nat) : BudgetStore :=
  { s with
    policyJson := Function.update s.policyJson budgetId (some policy)
    budgets := { s.budgets with
      policy := Function.update s.budgets.policy budgetId (some {
        hardLimits := limitsFromPolicy policy "hard_limits", softLimits := limitsFromPolicy policy "soft_limits"
        updatedAtMs := nowMs }) } }

/-- A budget that exists is left alone. A reset time beyond the range of its column is an error. -/
def createBudget (a : CreateBudgetArgs) (s : BudgetStore) : Except EngineError (CreateBudgetResult × BudgetStore) := do
  ensure (a.dimensions.length = a.hardLimits.length ∧ a.dimensions.length = a.softLimits.length)
    (.invalidInput "create_budget: dimensions / hard_limits / soft_limits length mismatch")
  ensure (0 < asI64 a.resetIntervalMs → a.nowMs + asI64 a.resetIntervalMs ≤ i64Max) .transport
  if (s.policyJson a.budgetId).isSome = true then return (.alreadySatisfied,s)
  else return (.created,s.install a.budgetId (buildPolicyJson a) a.nowMs)

variable (partition : String → Nat)

def reportUsage (r : UsageReport) (s : BudgetStore) : PgReply × BudgetStore :=
  let out := s.budgets.reportUsage partition r
  (out.1,{ s with budgets := out.2 })

end BudgetStore

/-! ### Reports of an operator -/

structure ReportUsageAdminArgs where
  budgetId : String
  dimensions : List String
  deltas : List Nat
  dedupKey : Option String := none
  nowMs : Nat

/-- The amounts by dimension. Of a dimension that is listed twice the last amount is kept. -/
def ReportUsageAdminArgs.report (a : ReportUsageAdminArgs) : UsageReport where
  budgetId := a.budgetId
  dimensions := ⟨SortedMap.ofList (a.dimensions.zip a.deltas),a.dedupKey,SortedMap.sorted_ofList _⟩
  nowMs := a.nowMs
  now := a.nowMs

namespace BudgetStore
variable (partition : String → Nat)

def reportUsageAdmin (a : ReportUsageAdminArgs) (s : BudgetStore) : Except EngineError PgReply × BudgetStore :=
  if a.dimensions.length ≠ a.deltas.length then
    (.error (.invalidInput "report_usage_admin: dimensions and deltas length mismatch"),s)
  else
    let out := s.reportUsage partition a.report
    (.ok out.1,out.2)

end BudgetStore

/-! ### Spend of an execution -/

structure RecordSpendArgs where
  executionId : Uuid
  /-- The budget, the amounts, and as its dedup key the idempotency key. -/
  report : UsageReport

/-- A total beyond the range of its column is an error. -/
def addToLedger : List (String × Nat) → Hash Int → Option (Hash Int)
  | [],ledger => some ledger
  | e :: es,ledger =>
    let sum := (ledger.lookup e.1).getD 0 + asI64 e.2
    if -2 ^ 63 ≤ sum ∧ sum < 2 ^ 63 then addToLedger es (ledger.insert e.1 sum) else none

def isHardBreach : ReportUsageResult → Bool
  | .hardBreach .. => true
  | _ => false

namespace BudgetStore
variable (partition : String → Nat)

/-- The checks and increments of a report, and the same increments in the ledger of the execution. -/
def spend (a : RecordSpendArgs) (s : BudgetStore) : Option (ReportUsageResult × BudgetStore) :=
  match s.budgets.evaluate a.report with
  | none => none
  | some (outcome,budgets) =>
    if isHardBreach outcome = true then some (outcome,{ s with budgets })
    else
      (addToLedger a.report.dimensions.custom (s.byExec a.report.budgetId a.executionId)).map fun ledger =>
        (outcome,{ s with
          budgets
          byExec := Function.update s.byExec a.report.budgetId
            (Function.update (s.byExec a.report.budgetId) a.executionId ledger) })

/-- A key that was used before is answered without its outcome. -/
def recordSpend (a : RecordSpendArgs) (s : BudgetStore) : PgReply × BudgetStore :=
  match a.report.dedupId with
  | none =>
    match s.spend a with
    | some (outcome,s') => (.evaluated outcome,s')
    | none => (.failed,s)
  | some k =>
    match s.budgets.dedup (partition a.report.budgetId) k with
    | some _ => (.replayed .alreadyApplied,s)
    | none =>
      match s.spend a with
      | some (outcome,s') =>
        let row : DedupRow := ⟨outcome,a.report.nowMs,a.report.nowMs + dedupTtlMs⟩
        (.evaluated outcome,{ s' with budgets := s'.budgets.insertDedup (partition a.report.budgetId) k row })
      | none => (.failed,s)

end BudgetStore
end FlowFabric.Postgres
