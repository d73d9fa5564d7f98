import FlowFabric.Postgres.Machine
import FlowFabric.Postgres.Scheduler

/-! What becomes of a grant of the scheduler: its text is accepted, and the claim it is for is refused. -/
namespace FlowFabric.Postgres
open Foundation List

/-! ### Texts -/

private theorem hashTag_toList (part : Nat) :
    ∃ tag : List Char, '\x7d' ∉ tag ∧ (hashTag part).toList = tag ++ ['\x7d'] := by
  refine ⟨"\x7bfp:".toList ++ (toString part).toList,?_,?_⟩
  · rw [mem_append,not_or]
    refine ⟨by decide,?_⟩
    rw [show toString part = part.repr from rfl,Nat.toList_repr]
    exact notMem_toDigits (by decide) part
  · simp [hashTag]

theorem splitGrantKey_grantKey {tag uuid kid hex : String} {expiresAtMs : Int} (hk : ':' ∉ kid.toList)
    (hh : ':' ∉ hex.toList) : splitGrantKey (grantKey tag uuid expiresAtMs (kid ++ ":" ++ hex)) =
      some (tag.toList ++ ':' :: uuid.toList,(toString expiresAtMs).toList,kid,hex) := by
  have time : ':' ∉ (toString expiresAtMs).toList := notMem_toString (by decide) (by decide) expiresAtMs
  have text : (grantKey tag uuid expiresAtMs (kid ++ ":" ++ hex)).toList = 'p' :: 'g' :: ':' ::
      ((((tag.toList ++ ':' :: uuid.toList) ++ ':' :: (toString expiresAtMs).toList) ++ ':' :: kid.toList) ++
        ':' :: hex.toList) := by
    simp [grantKey]
  rw [splitGrantKey,text]
  simp only [rsplitOnce_append hh,rsplitOnce_append hk,rsplitOnce_append time,Option.bind_eq_bind,Option.bind_some,
    Option.pure_def,String.ofList_toList]

/-! ### Grants -/

namespace Cluster
variable {D : Digest} {p : BudgetPlacement} {a : ScheduleArgs} {now : Int} {locked : Nat → Uuid → Bool} {c c' : Cluster}
  {g : ClaimGrant}

def rowsOf (c : Cluster) (part : Nat) (e : Uuid) : Option Rows := (c.execs part).lookup e

def grantRow (a : ScheduleArgs) (kid : String) (now : Int) : GrantRow :=
  ⟨.claim,a.worker.workerId,a.worker.workerInstanceId,now,saturatingAdd now a.grantTtlMs,kid⟩

structure Issued (D : Digest) (p : BudgetPlacement) (a : ScheduleArgs) (now : Int) (c c' : Cluster) (g : ClaimGrant)
    (key : String × String) (rows : Rows) : Prop where
  active : c.keystore.currentActiveKid = some key
  found : c.rowsOf g.partition g.executionId = some rows
  claimable : rows.core.claimable a.lane
  capable : capsMatch rows.core.requiredCapabilities a.capabilities = true
  admitted : rows.core.budgets.all (c.budgets.admitBudget p) = true
  expires : g.expiresAtMs = saturatingAdd now a.grantTtlMs
  text : g.grantKey = Postgres.grantKey (hashTag g.partition) (uuidText g.executionId) g.expiresAtMs
    (D.hmacSign key.2 key.1 (grantMessage (hashTag g.partition) (uuidText g.executionId) a.worker g.expiresAtMs))
  left : c' = c.setRows g.partition g.executionId (rows.claimGranted (grantRow a key.1 now))

theorem mem_eligible {lane : String} {part : Nat} {m : Uuid × Rows} (h : m ∈ c.eligible lane locked part) :
    c.rowsOf part m.1 = some m.2 ∧ m.2.core.claimable lane := by
  have listed := (perm_insertionSort _ _).mem_iff.mp (mem_of_mem_take h)
  obtain ⟨hm,hc⟩ := mem_filter.mp listed
  exact ⟨Table.mem_rows.mp hm,(of_decide_eq_true hc).1⟩

theorem issued_of_granted (h : c.claimForWorker D p a now locked = .ok (some (g,c'))) :
    ∃ key rows, Issued D p a now c c' g key rows := by
  simp only [claimForWorker,bind_ok,demand_ok,pure_ok] at h
  obtain ⟨key,hk,h⟩ := h
  obtain ⟨part,-,h⟩ := exists_of_findSome?_eq_some h
  unfold tryClaimInPartition at h
  split at h
  · cases h
  · rename_i e rows hf
    split at h
    · rename_i hb
      cases h
      obtain ⟨hr,hc⟩ := mem_eligible (mem_of_find?_eq_some hf)
      have capable : capsMatch rows.core.requiredCapabilities a.capabilities = true := by simpa using List.find?_some hf
      exact ⟨key,rows,hk,hr,hc,capable,hb,rfl,rfl,rfl⟩
    · cases h

section
variable {key : String × String} {rows : Rows}

theorem Issued.verifyGrant (h : Issued D p a now c c' g key rows) (hn : -2 ^ 63 ≤ now) (hk : ':' ∉ key.1.toList)
    (hw : c'.readGrantIdentity g = some a.worker) {t : Int} (ht : t < g.expiresAtMs) :
    Postgres.verifyGrant D c' g t = .ok () := by
  have secret : c'.keystore.fetchKid key.1 = some key.2 := by
    rw [h.left]
    exact Keystore.fetchKid_of_current h.active
  have range : parseI64 (toString g.expiresAtMs).toList = some g.expiresAtMs := by
    rw [parseI64,String.ofList_toList,numeral_toString,Option.filter_eq_some_iff]
    refine ⟨rfl,decide_eq_true ?_⟩
    rw [h.expires,saturatingAdd,i64Max]
    omega
  obtain ⟨tag,htag,hash⟩ := hashTag_toList g.partition
  have left : splitPair '\x7d' ':' ((hashTag g.partition).toList ++ ':' :: (uuidText g.executionId).toList) =
      some ((hashTag g.partition).toList,(uuidText g.executionId).toList) := by
    rw [hash,append_assoc,singleton_append]
    exact splitPair_append htag _
  have text := h.text
  rw [Digest.hmacSign] at text
  rw [Postgres.verifyGrant,text,splitGrantKey_grantKey hk (colon_notMem_hex (D.hex key.2 _))]
  simp only [demand,bind,Except.bind,range,ensure,if_pos ht,left,secret,hw,String.ofList_toList]
  rw [← Digest.hmacSign,D.hmacVerify_hmacSign.mpr hk]
  rfl

end

/-- The grant is accepted, and the claim succeeds and removes it. -/
def Consumes (D : Digest) (c : Cluster) (g : ClaimGrant) (x : ClaimExecutionArgs) (t : Int) : Prop :=
  verifyGrant D c g t = .ok () ∧ ∃ rows done, c.rowsOf g.partition g.executionId = some rows ∧
    claimExecution x t rows = .ok done ∧ done.rows.grants.filter (·.kind = .claim) = []

/-- No grant of the scheduler can be used: the execution it is for is not eligible any more, and only eligible
ones can be claimed. -/
theorem grant_never_consumed (h : c.claimForWorker D p a now locked = .ok (some (g,c'))) (x : ClaimExecutionArgs)
    (t : Int) : ¬ c'.Consumes D g x t := by
  obtain ⟨key,rows,issued⟩ := issued_of_granted h
  rintro ⟨-,rows',done,hr,hd,-⟩
  rw [issued.left,rowsOf,setRows] at hr
  dsimp only at hr
  rw [Function.update_self,AList.lookup_insert] at hr
  cases hr
  obtain ⟨-,eligible,-⟩ := claimExecution_ok hd
  cases eligible

end Cluster

namespace Client

def onePlace : BudgetPlacement := ⟨fun _ => none,fun _ => 0,fun _ => 0⟩

/-- One eligible execution in the first partition, and one key. -/
def cluster : Cluster :=
  { keystore := (∅ : Keystore).insert "k1" ⟨"51",0,true⟩
    execs := Function.update (fun _ => ∅) 0 ((∅ : Table Uuid Rows).insert 1 fresh) }

def schedules : ScheduleArgs := { lane := "default", worker := alice, capabilities := [], grantTtlMs := 1000 }

def grant : ClaimGrant :=
  ⟨0,1,grantKey (hashTag 0) (uuidText 1) 1010
    (Digest.sha256.hmacSign "51" "k1" (grantMessage (hashTag 0) (uuidText 1) alice 1010)),1010⟩

def granted : Cluster := cluster.setRows 0 1 (fresh.claimGranted (Cluster.grantRow schedules "k1" 10))

theorem cluster_grants :
    cluster.claimForWorker .sha256 onePlace schedules 10 (fun _ _ => false) = .ok (some (grant,granted)) := rfl

def claimsIt : ClaimExecutionArgs :=
  { worker := alice, attemptId := "a1", expectedAttemptIndex := 0, leaseTtlMs := 100 }

/-- The claim of the worker that has the grant. -/
theorem grant_refused :
    cluster.claimForWorker .sha256 onePlace schedules 10 (fun _ _ => false) = .ok (some (grant,granted)) ∧
      verifyGrant .sha256 granted grant 20 = .ok () ∧
      (granted.rowsOf 0 1).map (claimExecution claimsIt 20) = some (.error (.contention .executionNotLeaseable)) := by
  obtain ⟨key,rows,issued⟩ := Cluster.issued_of_granted cluster_grants
  have active : key = ("k1","51") := Option.some.inj issued.active.symm
  subst active
  exact ⟨cluster_grants,issued.verifyGrant (by decide) (by decide) rfl (by decide),rfl⟩

theorem alice_cannot_claim : ¬ granted.Consumes .sha256 grant claimsIt 20 :=
  Cluster.grant_never_consumed cluster_grants claimsIt 20

end Client
end FlowFabric.Postgres
