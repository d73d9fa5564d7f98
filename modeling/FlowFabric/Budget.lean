import FlowFabric.Foundation.Hash
import FlowFabric.Foundation.Script

/-! Budgets: ff_create_budget, ff_report_usage_and_check, ff_record_spend, ff_release_budget
and ff_reset_budget. Numbers are read from texts as doubles and printed with fourteen
digits. -/
namespace FlowFabric
open Foundation

/-- The definition of a budget, without the texts that no script reads. -/
structure BudgetDef where
  resetIntervalMs : Nat
  (breachCount softBreachCount resetCount : Nat := 0)
  lastBreachAt : Option Nat := none
  lastBreachDim : String := ""
  lastUpdatedAt : Nat
  lastResetAt : Option Nat := none
  nextResetAt : Option Numeral := none

structure Budget where
  budgetDef : BudgetDef
  (hard soft : Hash Nat)
  usage : Hash Numeral := ∅
  byExec : String → Hash Numeral := fun _ => ∅
  byExecIndex : String → Bool := fun _ => false
  /-- The score in the index of resets. -/
  resetsAt : Option Nat := none
  /-- When the dedup keys expire. -/
  dedup : String → Option Int := fun _ => none

/-- The replies of the scripts. A raised error is one of its own. -/
inductive BudgetReply
  | ok
  | alreadyApplied
  | softBreach (dim : String) (current limit : Numeral)
  | hardBreach (dim : String) (current : Numeral) (limit : Nat)
  | noop
  | released
  | reset (nextResetAt : Numeral)
  | raised
  deriving DecidableEq

def BudgetReply.rejects : BudgetReply → Bool
  | alreadyApplied | hardBreach .. => true
  | _ => false

def BudgetReply.accepts : BudgetReply → Bool
  | ok | softBreach .. => true
  | _ => false

structure CreateBudgetArgs where
  resetIntervalMs : Nat := 0
  nowMs : Nat
  /-- Each dimension with its hard and its soft limit. -/
  dimensions : List (String × Nat × Nat)

/-- The next reset, as printed, if resets recur. -/
def nextReset (intervalMs nowMs : Nat) : Option Numeral :=
  if 0 < double intervalMs then some (.print (double (double nowMs + double intervalMs))) else none

/-- What ff_create_budget writes. -/
def newBudget (a : CreateBudgetArgs) : Budget where
  budgetDef :=
    { resetIntervalMs := a.resetIntervalMs, lastUpdatedAt := a.nowMs
      nextResetAt := nextReset a.resetIntervalMs a.nowMs }
  hard := a.dimensions.foldl (fun h e => h.insert e.1 e.2.1) ∅
  soft := a.dimensions.foldl (fun h e => h.insert e.1 e.2.2) ∅
  resetsAt := (nextReset a.resetIntervalMs a.nowMs).map Numeral.toNumber

/-- A limit of zero is none. -/
def exceeds (limit : Option Nat) (total : Nat) : Bool := limit.any fun l => decide (0 < double l ∧ double l < total)

namespace Budget

variable (b : Budget)

def current (dim : String) : Nat := (b.usage.read dim).toNumber

/-- The first of the amounts that does not fit into its hard limit by itself. -/
def hardBreach (deltas : List (String × Nat)) : Option (String × Nat) :=
  deltas.find? fun e => exceeds (b.hard.lookup e.1) (double (b.current e.1 + double e.2))

def noteBreach (dim : String) (nowMs : Nat) : Budget :=
  { b with budgetDef :=
      { b.budgetDef with
        breachCount := b.budgetDef.breachCount + 1, lastBreachAt := some nowMs, lastBreachDim := dim
        lastUpdatedAt := nowMs } }

/-- One increment of the usage, mirrored onto the ledger of the execution if there is one. A
command that fails leaves what has been written before it. -/
def increment (server : Server) (executionId : String) (e : String × Nat) (b : Budget) : Except Budget Budget := do
  let usage ← demand (b.usage.hincrby server e.1 (double e.2)) b
  let b := { b with usage }
  if executionId = "" then return b
  else
    let ledger ← demand ((b.byExec executionId).hincrby server e.1 (double e.2)) b
    return { b with byExec := fun x => if x = executionId then ledger else b.byExec x }

/-- The increments, with the first dimension that passes its soft limit. -/
def incrementAll (server : Server) (executionId : String) :
    List (String × Nat) → Option String → Budget → Except Budget (Option String × Budget)
  | [], breachedSoft, b => .ok (breachedSoft,b)
  | e :: es, breachedSoft, b => do
    let b ← b.increment server executionId e
    let breached := if exceeds (b.soft.lookup e.1) (b.current e.1) then some e.1 else none
    incrementAll server executionId es (breachedSoft.or breached) b

def stamp (dedupKey : String) (now : Int) : Budget :=
  if dedupKey = "" then b
  else { b with dedup := fun k => if k = dedupKey then some (now + 86400000) else b.dedup k }

def applied (dedupKey : String) (now : Int) : Bool :=
  decide (dedupKey ≠ "") && (b.dedup dedupKey).any fun expiresAt => decide (now ≤ expiresAt)

def noteUpdate (executionId : String) (nowMs : Nat) : Budget :=
  { b with
    byExecIndex := fun x => (decide (executionId ≠ "") && decide (x = executionId)) || b.byExecIndex x
    budgetDef := { b.budgetDef with lastUpdatedAt := nowMs } }

def noteSoftBreach : Budget :=
  { b with budgetDef := { b.budgetDef with softBreachCount := b.budgetDef.softBreachCount + 1 } }

end Budget

structure UsageArgs where
  deltas : List (String × Nat)
  nowMs : Nat
  dedupKey : String := ""

variable (server : Server)

variable (executionId : String)

/-- Check every amount against the usage before the call, then add them all. -/
def checkAndIncrement (a : UsageArgs) (now : Int) (b : Budget) : BudgetReply × Budget :=
  if b.applied a.dedupKey now then (.alreadyApplied,b)
  else match b.hardBreach a.deltas with
  | some e => (.hardBreach e.1 (.print (b.current e.1)) ((b.hard.lookup e.1).getD 0),b.noteBreach e.1 a.nowMs)
  | none =>
    match b.incrementAll server executionId a.deltas none with
    | .error b => (.raised,b)
    | .ok (breachedSoft,b) =>
      let b := (b.noteUpdate executionId a.nowMs).stamp a.dedupKey now
      match breachedSoft with
      | some dim =>
        (.softBreach dim (.print (b.current dim)) (.print (double ((b.soft.lookup dim).getD 0))),b.noteSoftBreach)
      | none => (.ok,b)

/-- The usage report has no execution to attribute it to. -/
def reportUsageAndCheck (a : UsageArgs) (now : Int) (b : Budget) : BudgetReply × Budget :=
  checkAndIncrement server "" a now b

def recordSpend (a : UsageArgs) (now : Int) (b : Budget) : BudgetReply × Budget :=
  checkAndIncrement server executionId a now b

/-- What a ledger field makes of the usage: it is taken off, down to zero. -/
def releaseField (ledger : Numeral) (usage : Option Numeral) : Option Numeral :=
  if 0 < ledger.toNumber then
    some (.print (double ((usage.getD (.digits 0)).toNumber - ledger.toNumber)))
  else none

def releaseBudget (b : Budget) : BudgetReply × Budget :=
  let ledger := b.byExec executionId
  if ledger.entries.isEmpty then (.noop,b)
  else
    (.released,
      { b with
        usage := Hash.merge releaseField ledger b.usage, byExec := fun x => if x = executionId then ∅ else b.byExec x
        byExecIndex := fun x => !decide (x = executionId) && b.byExecIndex x })

/-- The names and the zeros are unpacked into one command. The ledgers are not touched. -/
def resetBudget (nowMs : Nat) (b : Budget) : BudgetReply × Budget :=
  if server.unpackLimit < 2 * b.usage.entries.length then (.raised,b)
  else
    let next := nextReset b.budgetDef.resetIntervalMs nowMs
    (.reset (next.getD (.digits 0)),
      { b with
        usage := Hash.merge (fun _ _ => some (.digits 0)) b.usage b.usage, resetsAt := next.map Numeral.toNumber
        budgetDef :=
          { b.budgetDef with
            resetCount := b.budgetDef.resetCount + 1, lastResetAt := some nowMs, lastUpdatedAt := nowMs
            lastBreachAt := none, lastBreachDim := "", nextResetAt := next.or b.budgetDef.nextResetAt } })

/-- The call is new and every amount fits by itself. -/
def Budget.passes (b : Budget) (a : UsageArgs) (now : Int) : Bool :=
  !b.applied a.dedupKey now && (b.hardBreach a.deltas).isNone

inductive BudgetOp
  | reportUsageAndCheck (a : UsageArgs)
  | recordSpend (executionId : String) (a : UsageArgs)
  | releaseBudget (executionId : String)
  | resetBudget (nowMs : Nat)

structure BudgetCall where
  now : Int
  op : BudgetOp

def budgetStep (i : BudgetCall) (b : Budget) : BudgetReply × Budget :=
  match i.op with
  | .reportUsageAndCheck a => reportUsageAndCheck server a i.now b
  | .recordSpend executionId a => recordSpend server executionId a i.now b
  | .releaseBudget executionId => releaseBudget executionId b
  | .resetBudget nowMs => resetBudget server nowMs b

def budgetNext (i : BudgetCall) (b : Budget) : Budget := (budgetStep server i b).2

end FlowFabric
