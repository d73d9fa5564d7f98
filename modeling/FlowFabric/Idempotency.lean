import FlowFabric.Create
import FlowFabric.Foundation.Run

/-! Creating an execution once: the typed wrapper of ff_create_execution, which joins the namespace and
the idempotency key of a call into one key, and the executions and idempotency keys of a partition. -/
namespace FlowFabric
open Foundation Option Function

/-- What the wrapper is called with. A policy is serialized, so that it is never malformed. -/
structure CreateExecutionArgs where
  (executionId ns : String)
  idempotencyKey : Option String := none
  priority : Int := 0
  policy : Option Json := none
  (delayUntil executionDeadlineAt : Option Int := none)

def idempotencyKey (tag ns idemKey : String) : String := "ff:idem:" ++ tag ++ ":" ++ ns ++ ":" ++ idemKey

def noopKey (tag : String) : String := "ff:noop:" ++ tag

namespace CreateExecutionArgs
variable (a : CreateExecutionArgs)

/-- An empty key is no key. -/
def idemKey (tag : String) : String :=
  match a.idempotencyKey.filter (· ≠ "") with
  | some key => FlowFabric.idempotencyKey tag a.ns key
  | none => noopKey tag

/-- The lifetime is sent along with any key, also with an empty one. -/
def dedupTtlMs : Nat := if a.idempotencyKey.isSome then 86400000 else 0

def policyJson : JsonText :=
  match a.policy with
  | some policy => .doc policy
  | none => .empty

/-- The arguments of the script, once it has read its idempotency key. -/
def script (hit : Option String) : CreateArgs where
  executionId := a.executionId
  priority := .number a.priority
  policyJson := a.policyJson
  delayUntil := a.delayUntil
  executionDeadlineAt := a.executionDeadlineAt
  schedulingZset := if a.delayUntil.isSome then .delayed else .eligible
  idempotencyHit := hit

end CreateExecutionArgs

/-- The script tells a real key from the placeholder by looking for the placeholder's beginning
anywhere in it. -/
def isIdemKey (key : String) : Bool := key ≠ "" ∧ ¬ "ff:noop:".toList <:+: key.toList

/-- The executions of a partition and its idempotency keys, which hold an execution id up to the
moment they expire and in it. -/
structure CreatePartition where
  executions : String → Store := fun _ => {}
  idem : String → Option (String × Int) := fun _ => none

open CreatePartition

def CreatePartition.get (now : Int) (p : CreatePartition) (key : String) : Option String :=
  ((p.idem key).filter fun r => decide (now ≤ r.2)).map (·.1)

def CreatePartition.created (tag : String) (a : CreateExecutionArgs) (now : Int) (s : Store) (p : CreatePartition) :
    CreatePartition where
  executions := update p.executions a.executionId s
  idem :=
    if 0 < a.dedupTtlMs ∧ isIdemKey (a.idemKey tag) then
      update p.idem (a.idemKey tag) (some (a.executionId,now + a.dedupTtlMs))
    else p.idem

def ffCreateExecution (tag : String) (a : CreateExecutionArgs) (now : Int) (p : CreatePartition) :
    Except Reply (Reply × CreatePartition) := do
  let hit := if isIdemKey (a.idemKey tag) then p.get now (a.idemKey tag) else none
  let out ← createExecution (a.script hit) now (p.executions a.executionId)
  match out.1 with
  | .ok _ => return (out.1,p.created tag a now out.2)
  | _ => return (out.1,p)

theorem CreatePartition.get_of_idem {p : CreatePartition} {key executionId : String} {now expiresAt : Int}
    (h : p.idem key = some (executionId,expiresAt)) (alive : now ≤ expiresAt) : p.get now key = some executionId := by
  rw [get,h,filter_some,if_pos (decide_eq_true alive)]
  rfl

section
variable {tag : String} {a : CreateExecutionArgs} {now : Int} {p q : CreatePartition}

theorem ffCreateExecution_of_hit {existing : String} (real : isIdemKey (a.idemKey tag) = true)
    (hit : p.get now (a.idemKey tag) = some existing) :
    ffCreateExecution tag a now p = .ok (.duplicate [existing],p) := by
  simp only [ffCreateExecution,if_pos real,hit]
  rfl

theorem ffCreateExecution_of_miss {csv : String}
    (miss : isIdemKey (a.idemKey tag) = true → p.get now (a.idemKey tag) = none)
    (absent : (p.executions a.executionId).core = none) (caps : requiredCapabilitiesCsv a.policyJson = .ok csv) :
    ∃ state s, ffCreateExecution tag a now p = .ok (.ok [a.executionId,state],p.created tag a now s) ∧
      s.core.isSome := by
  have none_found : (if isIdemKey (a.idemKey tag) then p.get now (a.idemKey tag) else none) = none := by
    split
    · exact miss ‹_›
    · rfl
  have caps' : requiredCapabilitiesCsv (a.script none).policyJson = .ok csv := caps
  have made : createExecution (a.script none) now (p.executions a.executionId) =
      let c := newCore (a.script none) (clampPriority a.priority) now csv
      .ok (.ok [a.executionId,c.publicState.text],createdStore (a.script none) c (p.executions a.executionId)) := by
    simp only [createExecution,absent,caps']
    rfl
  simp only [ffCreateExecution,none_found,made]
  exact ⟨_,_,rfl,by simp [createdStore]⟩

private theorem ffCreateExecution_idem {reply : Reply} (h : ffCreateExecution tag a now p = .ok (reply,q)) :
    ((∀ fields, reply ≠ .ok fields) ∧ q = p) ∨ (isIdemKey (a.idemKey tag) = true → p.get now (a.idemKey tag) = none) ∧
        q.idem = if 0 < a.dedupTtlMs ∧ isIdemKey (a.idemKey tag) then
          update p.idem (a.idemKey tag) (some (a.executionId,now + a.dedupTtlMs)) else p.idem := by
  by_cases found : isIdemKey (a.idemKey tag) = true ∧ ∃ existing, p.get now (a.idemKey tag) = some existing
  · obtain ⟨real,existing,hit⟩ := found
    rw [ffCreateExecution_of_hit real hit] at h
    cases h
    exact .inl ⟨fun _ => by simp,rfl⟩
  · have miss : isIdemKey (a.idemKey tag) = true → p.get now (a.idemKey tag) = none := by
      intro real
      by_contra hit
      exact found ⟨real,ne_none_iff_exists'.mp hit⟩
    simp only [ffCreateExecution,bind_ok] at h
    obtain ⟨⟨out,s⟩,-,h⟩ := h
    cases out with
    | ok =>
      cases h
      exact .inr ⟨miss,rfl⟩
    | alreadySatisfied | duplicate | err | raised =>
      cases h
      exact .inl ⟨fun _ => by simp,rfl⟩

end

/-- What else happens in the partition: other calls create, and the keys of an execution change. No
other script touches the idempotency keys. -/
inductive PartitionStep where
  | create (a : CreateExecutionArgs) (now : Int)
  | write (executionId : String) (s : Store)

def partitionNext (tag : String) : PartitionStep → CreatePartition → CreatePartition
  | .create a now, p =>
    match ffCreateExecution tag a now p with
    | .ok out => out.2
    | .error _ => p
  | .write executionId s, p => { p with executions := update p.executions executionId s }

def PartitionStep.Before (t : Int) : PartitionStep → Prop
  | .create _ now => now ≤ t
  | .write _ _ => True

private theorem idem_next {tag key executionId : String} {expiresAt t : Int} (real : isIdemKey key = true)
    (alive : t ≤ expiresAt)
    (p : CreatePartition) (i : PartitionStep) (h : p.idem key = some (executionId,expiresAt)) (before : i.Before t) :
    (partitionNext tag i p).idem key = some (executionId,expiresAt) := by
  cases i with
  | write => exact h
  | create a =>
    simp only [partitionNext]
    split
    · rename_i out created
      rcases ffCreateExecution_idem created with ⟨-,same⟩ | ⟨miss,idem⟩
      · rw [same]
        exact h
      · have other : key ≠ a.idemKey tag := by
          rintro rfl
          have hit := get_of_idem h (le_trans before alive)
          rw [miss real] at hit
          cases hit
        rw [idem]
        split
        · rwa [update_of_ne other]
        · exact h
    · exact h

/-- A namespace with a key that is not empty. -/
structure IdempotencyPair where
  (ns key : String)
  nonempty : key ≠ ""

open IdempotencyPair

def IdempotencyPair.joined (tag : String) (pair : IdempotencyPair) : String := idempotencyKey tag pair.ns pair.key

structure CreateExecutionArgs.For (a : CreateExecutionArgs) (pair : IdempotencyPair) : Prop where
  ns : a.ns = pair.ns
  key : a.idempotencyKey = some pair.key

variable {pair : IdempotencyPair} {a : CreateExecutionArgs}

theorem CreateExecutionArgs.For.idemKey (h : a.For pair) (tag : String) : a.idemKey tag = pair.joined tag := by
  rw [CreateExecutionArgs.idemKey,h.key,filter_some,if_pos (decide_eq_true pair.nonempty),h.ns]
  rfl

theorem CreateExecutionArgs.For.dedupTtlMs (h : a.For pair) : a.dedupTtlMs = 86400000 := by
  simp [CreateExecutionArgs.dedupTtlMs,h.key]

/-- What two calls promise, one of which creates and the other follows within a day, whatever
happens in between. A call for the same pair is answered with the first execution and writes nothing.
A call for another pair creates, if its arguments are in order, its execution is not there and no
third call has used its key. -/
def IdempotentFor (tag : String) (pair pair' : IdempotencyPair) : Prop :=
  ∀ (p p₁ : CreatePartition) (a a' : CreateExecutionArgs) (t t' : Int) (fields : List String)
    (between : List PartitionStep), a.For pair → a'.For pair' →
    ffCreateExecution tag a t p = .ok (.ok fields,p₁) → (∀ i ∈ between, i.Before t') → t' ≤ t + 86400000 →
    let q := runFrom (partitionNext tag) p₁ between
    (pair = pair' → ffCreateExecution tag a' t' q = .ok (.duplicate [a.executionId],q)) ∧
    (pair ≠ pair' → (q.executions a'.executionId).core = none →
      (∃ csv, requiredCapabilitiesCsv a'.policyJson = .ok csv) →
      (pair'.joined tag ≠ pair.joined tag → q.get t' (pair'.joined tag) = none) →
      ∃ state q', ffCreateExecution tag a' t' q = .ok (.ok [a'.executionId,state],q') ∧
        ((q'.executions a'.executionId).core).isSome)

section
variable {tag : String} {pair : IdempotencyPair}

theorem get_of_created {p p₁ : CreatePartition} {a : CreateExecutionArgs} {t t' : Int} {fields : List String}
    {between : List PartitionStep} (ha : a.For pair) (first : ffCreateExecution tag a t p = .ok (.ok fields,p₁))
    (before : ∀ i ∈ between, i.Before t') (within : t' ≤ t + 86400000) (real : isIdemKey (pair.joined tag) = true) :
    (runFrom (partitionNext tag) p₁ between).get t' (pair.joined tag) = some a.executionId := by
  have left : p₁.idem (pair.joined tag) = some (a.executionId,t + 86400000) := by
    rcases ffCreateExecution_idem first with ⟨other,-⟩ | ⟨-,idem⟩
    · exact absurd rfl (other fields)
    · rw [idem,ha.idemKey,ha.dedupTtlMs,if_pos ⟨by decide,real⟩,update_self]
      rfl
  have kept : (runFrom (partitionNext tag) p₁ between).idem (pair.joined tag) = some (a.executionId,t + 86400000) :=
    Along.invariant (idem_next real within) left (Along.of_forall before p₁)
  exact get_of_idem kept within

def IdempotencyPair.call (pair : IdempotencyPair) (executionId : String) : CreateExecutionArgs where
  executionId
  ns := pair.ns
  idempotencyKey := some pair.key

theorem IdempotencyPair.call_for (pair : IdempotencyPair) (executionId : String) : (pair.call executionId).For pair :=
  ⟨rfl,rfl⟩

end

/-- Calls for two pairs are told apart exactly when equal pairs are joined to a key that counts as one,
and different pairs to different keys or to one that does not. -/
theorem idempotentFor_iff (tag : String) (pair pair' : IdempotencyPair) : IdempotentFor tag pair pair' ↔
      (pair = pair' → isIdemKey (pair.joined tag) = true) ∧
      (pair ≠ pair' → pair.joined tag ≠ pair'.joined tag ∨ isIdemKey (pair.joined tag) = false) := by
  constructor
  · intro law
    obtain ⟨fields,p₁,first,absent⟩ : ∃ fields p₁, ffCreateExecution tag (pair.call "first") 0 {} =
        .ok (.ok fields,p₁) ∧ (p₁.executions "second").core = none := by
      have fresh : (({} : CreatePartition).executions (pair.call "first").executionId).core = none := rfl
      obtain ⟨state,s,made,-⟩ := ffCreateExecution_of_miss (fun _ => rfl) fresh rfl
      exact ⟨_,_,made,by simp [created,call]⟩
    have promise := law _ _ _ _ 0 1 _ [] (pair.call_for "first") (pair'.call_for "second") first (by simp) (by decide)
    have key := (pair'.call_for "second").idemKey tag
    constructor
    · rintro rfl
      by_contra real
      -- A key that does not count is neither read nor written: the second call creates.
      have miss : isIdemKey ((pair.call "second").idemKey tag) = true →
          p₁.get 1 ((pair.call "second").idemKey tag) = none := fun h => absurd (key ▸ h) real
      obtain ⟨_,_,made,-⟩ := ffCreateExecution_of_miss miss absent rfl
      have answered := promise.1 rfl
      rw [runFrom,made] at answered
      cases answered
    · intro ne
      by_contra h
      obtain ⟨same,real⟩ := not_or.mp h
      rw [not_not] at same
      rw [Bool.not_eq_false] at real
      -- The joined key is found, and the second call is taken for the first one.
      have hit : (runFrom (partitionNext tag) p₁ []).get 1 (pair.joined tag) = some "first" :=
        get_of_created (pair.call_for "first") first (by simp) (by decide) real
      rw [same,← key] at hit
      rw [same,← key] at real
      obtain ⟨_,_,made,-⟩ := promise.2 ne absent ⟨_,rfl⟩ (fun other => absurd same.symm other)
      rw [ffCreateExecution_of_hit real hit] at made
      cases made
  · rintro ⟨same,apart⟩ p p₁ a a' t t' fields between ha ha' first before within q
    constructor
    · rintro rfl
      have real := same rfl
      have hit := get_of_created ha first before within real
      rw [← ha'.idemKey tag] at real hit
      exact ffCreateExecution_of_hit real hit
    · rintro ne absent ⟨csv,caps⟩ unused
      have miss : isIdemKey (a'.idemKey tag) = true → q.get t' (a'.idemKey tag) = none := by
        rw [ha'.idemKey]
        intro real
        apply unused
        intro joined
        rcases apart ne with other | placeholder
        · exact other joined.symm
        · rw [← joined,real] at placeholder
          cases placeholder
      obtain ⟨state,s,made,some_core⟩ := ffCreateExecution_of_miss miss absent caps
      exact ⟨state,_,made,by simpa [created] using some_core⟩

/-- The call of tenant a:b is answered with the execution of tenant a. And a key that looks like the
placeholder creates twice. -/
theorem tenants_share_a_key : (∃ p₁, ffCreateExecution "\x7bfp:0\x7d" (call ⟨"a","b:c",by decide⟩ "first") 0 {} =
        .ok (.ok ["first","waiting"],p₁) ∧ ffCreateExecution "\x7bfp:0\x7d" (call ⟨"a:b","c",by decide⟩ "second") 1 p₁ =
        .ok (.duplicate ["first"],p₁)) ∧
    ∃ p₁ p₂, ffCreateExecution "\x7bfp:0\x7d" (call ⟨"a","ff:noop:",by decide⟩ "first") 0 {} =
        .ok (.ok ["first","waiting"],p₁) ∧
      ffCreateExecution "\x7bfp:0\x7d" (call ⟨"a","ff:noop:",by decide⟩ "second") 1 p₁ =
        .ok (.ok ["second","waiting"],p₂) :=
  ⟨⟨_,rfl,rfl⟩,_,_,rfl,rfl⟩

end FlowFabric
