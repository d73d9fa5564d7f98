import FlowFabric.Postgres.Budgets
import FlowFabric.Postgres.Keystore
import FlowFabric.Postgres.TypedOps

/-! The scheduler of the Postgres backend. It picks an eligible execution, asks its budgets, and issues a grant
whose text is signed with the active key. -/
namespace FlowFabric.Postgres
open Foundation String

/-! ### Budgets -/

/-- How the ids of budgets are read and placed: by the configuration of the backend, and by the default
one. -/
structure BudgetPlacement where
  parse : String → Option String
  configured : String → Nat
  byDefault : String → Nat

/-- The rows of a budget lie in the partition that the backend has placed it in. -/
def BudgetStore.policyAt (s : BudgetStore) (p : BudgetPlacement) (partitionKey : Nat) (budgetId : String) : Option Json :=
  if partitionKey = p.configured budgetId then s.policyJson budgetId else none

def firstValue : Json → Option Json
  | .obj fields => (SortedMap.ofList fields).head?.map Prod.snd
  | _ => none

def asText : Json → Option String
  | .str s => some s
  | _ => none

def admissionLimit (policy : Json) : Option Nat :=
  ((policy.field "hard_limit").bind asNat).or (((policy.field "hard").bind firstValue).bind asNat)

/-- An id that cannot be read is looked for in partition zero. A budget without a policy or a limit admits. -/
def BudgetStore.admitBudget (s : BudgetStore) (p : BudgetPlacement) (budgetId : String) : Bool :=
  let partitionKey := ((p.parse budgetId).map p.byDefault).getD 0
  match s.policyAt p partitionKey budgetId with
  | none => true
  | some policy =>
    match admissionLimit policy with
    | none => true
    | some limit =>
      let dimension := ((policy.field "dimension").bind asText).getD "default"
      (((s.budgets.usage budgetId).lookup dimension).getD 0).toNat < limit

def CoreRow.budgets (c : CoreRow) : List String :=
  ((((c.rawFields.budgetIds.getD "").toList.splitOn ',').map trimmed).filter fun t => !t.isEmpty).map ofList

/-! ### Grants -/

/-- The executions of all partitions, the keys and the budgets. -/
structure Cluster where
  keystore : Keystore := ∅
  budgets : BudgetStore := {}
  execs : Nat → Table Uuid Rows := fun _ => ∅

structure ScheduleArgs where
  lane : String
  worker : Worker
  capabilities : List String
  grantTtlMs : Nat

structure ClaimGrant where
  partition : Nat
  executionId : Uuid
  grantKey : String
  expiresAtMs : Int

def grantMessage (hashTag uuid : String) (w : Worker) (expiresAtMs : Int) : String :=
  hashTag ++ "|" ++ uuid ++ "|" ++ w.workerId ++ "|" ++ w.workerInstanceId ++ "|" ++ toString expiresAtMs

def grantKey (hashTag uuid : String) (expiresAtMs : Int) (signature : String) : String :=
  "pg:" ++ hashTag ++ ":" ++ uuid ++ ":" ++ toString expiresAtMs ++ ":" ++ signature

def eligibleOverfetch : Nat := 10

def precedes (m m' : Uuid × Rows) : Bool :=
  m'.2.core.priority < m.2.core.priority ||
    m'.2.core.priority = m.2.core.priority && m.2.core.createdAtMs ≤ m'.2.core.createdAtMs

namespace Cluster

def setRows (c : Cluster) (part : Nat) (e : Uuid) (rows : Rows) : Cluster :=
  { c with execs := Function.update c.execs part ((c.execs part).insert e rows) }

def eligible (c : Cluster) (lane : String) (locked : Nat → Uuid → Bool) (part : Nat) : List (Uuid × Rows) :=
  (((c.execs part).rows.filter fun m => m.2.core.claimable lane ∧ locked part m.1 = false).insertionSort
    fun m m' => precedes m m' = true).take eligibleOverfetch

/-- The first candidate that the worker's capabilities fit, if its budgets admit it. -/
def tryClaimInPartition (D : Digest) (p : BudgetPlacement) (a : ScheduleArgs) (key : String × String) (now : Int)
    (locked : Nat → Uuid → Bool) (part : Nat) (c : Cluster) : Option (ClaimGrant × Cluster) :=
  match (c.eligible a.lane locked part).find? fun m => capsMatch m.2.core.requiredCapabilities a.capabilities with
  | none => none
  | some (e,rows) =>
    if rows.core.budgets.all (c.budgets.admitBudget p) = true then
      let expiresAtMs := saturatingAdd now a.grantTtlMs
      let signature := D.hmacSign key.2 key.1 (grantMessage (hashTag part) (uuidText e) a.worker expiresAtMs)
      let row : GrantRow := ⟨.claim,a.worker.workerId,a.worker.workerInstanceId,now,expiresAtMs,key.1⟩
      some (⟨part,e,grantKey (hashTag part) (uuidText e) expiresAtMs signature,expiresAtMs⟩,
        c.setRows part e (rows.claimGranted row))
    else none

def totalPartitions : Nat := 256

def claimForWorker (D : Digest) (p : BudgetPlacement) (a : ScheduleArgs) (now : Int) (locked : Nat → Uuid → Bool)
    (c : Cluster) : Except EngineError (Option (ClaimGrant × Cluster)) := do
  let key ← demand c.keystore.currentActiveKid (.unavailable "claim_for_worker: ff_waitpoint_hmac keystore empty")
  return (List.range totalPartitions).findSome? fun part => c.tryClaimInPartition D p a key now locked part

def readGrantIdentity (c : Cluster) (g : ClaimGrant) : Option Worker :=
  ((c.execs g.partition).lookup g.executionId).bind fun rows =>
    (latestGrant (rows.grants.filter (·.kind = .claim))).map fun row => ⟨row.workerId,row.workerInstanceId⟩

end Cluster

inductive GrantVerifyError where
  | malformed | expired | unknownKid | unknownGrant | signatureMismatch

def parseI64 (text : List Char) : Option Int := (Json.numeral (ofList text)).filter fun i => -2 ^ 63 ≤ i ∧ i ≤ i64Max

/-- The hex, the kid and the time are cut off from the right, and the rest is split when they have been
looked at. -/
def splitGrantKey (text : String) : Option (List Char × List Char × String × String) :=
  match text.toList with
  | 'p' :: 'g' :: ':' :: rest => do
    let hex ← rsplitOnce ':' rest
    let kid ← rsplitOnce ':' hex.1
    let expires ← rsplitOnce ':' kid.1
    return (expires.1,expires.2,ofList kid.2,ofList hex.2)
  | _ => none

def verifyGrant (D : Digest) (c : Cluster) (g : ClaimGrant) (now : Int) : Except GrantVerifyError Unit := do
  let parts ← demand (splitGrantKey g.grantKey) .malformed
  let expiresAtMs ← demand (parseI64 parts.2.1) .malformed
  ensure (now < expiresAtMs) .expired
  let left ← demand (splitPair '\x7d' ':' parts.1) .malformed
  let secret ← demand (c.keystore.fetchKid parts.2.2.1) .unknownKid
  let worker ← demand (c.readGrantIdentity g) .unknownGrant
  let message := grantMessage (ofList left.1) (ofList left.2) worker expiresAtMs
  (D.hmacVerify secret parts.2.2.1 message (parts.2.2.1 ++ ":" ++ parts.2.2.2)).mapError fun _ => .signatureMismatch

end FlowFabric.Postgres
