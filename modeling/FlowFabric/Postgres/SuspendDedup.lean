import FlowFabric.Postgres.Waitpoints

/-! The idempotency of suspend, with the outcomes that the dedup rows of a partition hold. -/
namespace FlowFabric.Postgres
open Foundation Function

/-- The waitpoints come with their keys and tokens, and the handle names its execution. -/
structure SuspendOutcome where
  suspensionId : Uuid
  waitpoints : List (String × String × String)
  executionId : Uuid
  handle : Handle

structure Partition where
  db : Db := {}
  dedup : String → Option SuspendOutcome := fun _ => none

structure SuspendCall where
  partitionKey : Nat := 0
  executionId : Uuid
  handle : Handle
  args : SuspendArgs
  now : Int

def signed (e : Uuid) (key : String × String) (expiresAt : Option Int) :
    Table String WaitpointRow → List WaitpointBinding → List (String × String × String)
  | _, [] => []
  | waitpoints, b :: bs =>
    (bindingId b,bindingKey waitpoints b,hmacSign key.2 key.1 e (bindingId b)) ::
      signed e key expiresAt (bindWaitpoint e key expiresAt waitpoints b) bs

namespace SuspendCall

variable (c : SuspendCall)

def outcome (db : Db) : SuspendOutcome :=
  { suspensionId := c.args.suspensionId
    waitpoints := (db.keystore.currentActiveKid.map fun key =>
      signed c.executionId key c.args.timeoutAt db.waitpoints c.args.waitpoints).getD []
    executionId := c.executionId, handle := c.handle }

def recorded (p : Partition) : Option SuspendOutcome := c.args.idempotencyKey.bind p.dedup

/-- What follows once the dedup row is not there. -/
def suspends (p : Partition) : Method :=
  suspendOn c.executionId c.handle { c.args with idempotencyKey := none } c.now p.db

def suspendCore (p : Partition) : Except EngineError SuspendOutcome × Partition :=
  match c.recorded p with
  | some cached => (.ok cached,p)
  | none =>
    match c.suspends p with
    | .error err => (.error err,p)
    | .ok (_,db) =>
      (.ok (c.outcome p.db),
        { db, dedup := fun key => if c.args.idempotencyKey = some key then some (c.outcome p.db) else p.dedup key })

def run (w : Nat → Partition) : Except EngineError SuspendOutcome × (Nat → Partition) :=
  ((c.suspendCore (w c.partitionKey)).1,Function.update w c.partitionKey (c.suspendCore (w c.partitionKey)).2)

/-- The call suspends its execution. It is not answered from the record. -/
def Creates (p : Partition) : Prop := c.recorded p = none ∧ ∃ done, c.suspends p = .ok done

/-- The second call gets and leaves for its execution what it would without the first. -/
def Unaffected (first second : SuspendCall) (w : Nat → Partition) : Prop :=
  (second.run (first.run w).2).1 = (second.run w).1 ∧
    ((second.run (first.run w).2).2 second.partitionKey).db.rowsOf second.executionId =
      ((second.run w).2 second.partitionKey).db.rowsOf second.executionId

variable {first second : SuspendCall} {p : Partition} {key : String}

section
variable (hk : first.args.idempotencyKey = some key)
include hk

theorem suspendCore_creates (h : first.Creates p) : (first.suspendCore p).1 = .ok (first.outcome p.db) ∧
    (first.suspendCore p).2.dedup key = some (first.outcome p.db) := by
  obtain ⟨fresh,done,hd⟩ := h
  rw [suspendCore,fresh,hd]
  exact ⟨rfl,by simp [hk]⟩

theorem suspendCore_idle (h : ¬ first.Creates p) :
    (first.suspendCore p).2 = p ∧ ∀ o, (first.suspendCore p).1 = .ok o → p.dedup key = some o := by
  unfold suspendCore
  split
  · rename_i cached hr
    rw [recorded,hk] at hr
    refine ⟨rfl,fun o ho => ?_⟩
    cases ho
    exact hr
  · split
    · refine ⟨rfl,fun o ho => ?_⟩
      cases ho
    · rename_i fresh _ _ _ hd
      exact (h ⟨fresh,_,hd⟩).elim

end

private theorem unaffected_of_same {w : Nat → Partition}
    (h : (first.run w).2 second.partitionKey = w second.partitionKey) : Unaffected first second w := by
  unfold Unaffected
  generalize (first.run w).2 = w' at h ⊢
  simp only [run,h,update_self,and_self]

end SuspendCall

open SuspendCall in
/-- A key that comes again in its partition gives whoever asks the outcome of the first call. Another
execution is left alone exactly when it lies in another partition or the first call has created nothing. -/
theorem suspend_dedup_by_partition (first second : SuspendCall) (w : Nat → Partition) (key : String)
    (hf : first.args.idempotencyKey = some key) (hs : second.args.idempotencyKey = some key) :
    (second.partitionKey = first.partitionKey → ∀ o, (first.run w).1 = .ok o →
      second.run (first.run w).2 = (.ok o,(first.run w).2)) ∧
    (second.executionId ≠ first.executionId → (Unaffected first second w ↔
      second.partitionKey ≠ first.partitionKey ∨ ¬ first.Creates (w first.partitionKey))) := by
  have replays (same : second.partitionKey = first.partitionKey) (o : SuspendOutcome)
      (ho : (first.run w).1 = .ok o) : second.run (first.run w).2 = (.ok o,(first.run w).2) := by
    have onRecord : second.recorded ((first.run w).2 second.partitionKey) = some o := by
      rw [recorded,hs,same]
      change (Function.update w _ _ _).dedup key = some o
      rw [update_self]
      by_cases created : first.Creates (w first.partitionKey)
      · obtain ⟨answer,stored⟩ := suspendCore_creates hf created
        cases answer.symm.trans ho
        exact stored
      · obtain ⟨unchanged,answer⟩ := suspendCore_idle hf created
        rw [unchanged]
        exact answer o ho
    rw [run,suspendCore,onRecord,update_eq_self]
  refine ⟨replays,fun other => ⟨fun alone => ?_,?_⟩⟩
  · by_contra! both
    obtain ⟨same,created⟩ := both
    have answer := (suspendCore_creates hf created).1
    have alone := alone.1
    rw [replays same _ answer] at alone
    -- The answer names the first execution, where the second call alone would name its own.
    by_cases own : second.Creates (w second.partitionKey)
    · have named := alone.trans (suspendCore_creates hs own).1
      exact other (congrArg SuspendOutcome.executionId (Except.ok.inj named)).symm
    · have stored := (suspendCore_idle hs own).2 _ alone.symm
      rw [same] at stored
      have fresh := created.1
      rw [recorded,hf] at fresh
      cases fresh.symm.trans stored
  · rintro (apart | nothing)
    · exact unaffected_of_same (update_of_ne apart _ _)
    · refine unaffected_of_same ?_
      rw [run,(suspendCore_idle hf nothing).1,update_eq_self]

namespace Client

/-- Two executions in one partition, each under a lease. -/
def leased : Nat → Partition := fun _ =>
  { db :=
      { execs := ((∅ : Table Uuid Rows).insert 1 (next (claims alice 1) fresh)).insert 2 (next (claims bob 1) fresh)
        keystore := (∅ : Keystore).insert "k1" ⟨"51",0,true⟩ } }

def suspending (executionId : Uuid) (waitpointId : String) : SuspendCall :=
  { executionId, handle := ⟨0,1,10⟩, now := 2
    args :=
      { suspensionId := executionId, waitpoints := [.fresh waitpointId "k"], condition := .operatorOnly
        idempotencyKey := some "nightly" } }

/-- The same call again. -/
theorem suspend_dedup_replays : (suspending 1 "w1").run ((suspending 1 "w1").run leased).2 =
      (.ok ⟨1,[("w1","k",hmacSign "51" "k1" 1 "w1")],1,⟨0,1,10⟩⟩,((suspending 1 "w1").run leased).2) :=
  (suspend_dedup_by_partition (suspending 1 "w1") (suspending 1 "w1") leased "nightly" rfl rfl).1 rfl _ rfl

/-- The worker of the second execution gets the token of the first, and its execution runs on. -/
theorem suspend_dedup_leaks : ((suspending 2 "w2").run ((suspending 1 "w1").run leased).2).1 =
        .ok ⟨1,[("w1","k",hmacSign "51" "k1" 1 "w1")],1,⟨0,1,10⟩⟩ ∧
      ((((suspending 2 "w2").run ((suspending 1 "w1").run leased).2).2 0).db.rowsOf 2).map
        (·.core.lifecyclePhase) = some .active ∧
      ((((suspending 2 "w2").run leased).2 0).db.rowsOf 2).map (·.core.lifecyclePhase) = some .suspended := by
  refine ⟨rfl,rfl,rfl⟩

end Client

end FlowFabric.Postgres
