import FlowFabric.ExecSnapshot
import FlowFabric.FlowKeys
import FlowFabric.LeaseFields

/-! The exec_core hash as the scripts leave it, and which executions describe_execution accepts.
A time that a script prints has at most fourteen digits, or it is not printed as an integer. -/
namespace FlowFabric
open Foundation FieldValue Option Nat Call

/-- The fields of exec_core that the decoder reads. -/
inductive ExecField where
  | publicState | laneId | namespaceName | flowId | blockingReason | createdAt | lastMutationAt
  | totalAttemptCount | currentAttemptId | currentAttemptIndex | currentWorkerInstanceId | leaseExpiresAt
  | currentLeaseEpoch | currentLeaseId | leaseLastRenewedAt | currentWaitpointId
  deriving DecidableEq

def ExecField.name : ExecField → String
  | .publicState => "public_state"
  | .laneId => "lane_id"
  | .namespaceName => "namespace"
  | .flowId => "flow_id"
  | .blockingReason => "blocking_reason"
  | .createdAt => "created_at"
  | .lastMutationAt => "last_mutation_at"
  | .totalAttemptCount => "total_attempt_count"
  | .currentAttemptId => "current_attempt_id"
  | .currentAttemptIndex => "current_attempt_index"
  | .currentWorkerInstanceId => "current_worker_instance_id"
  | .leaseExpiresAt => "lease_expires_at"
  | .currentLeaseEpoch => "current_lease_epoch"
  | .currentLeaseId => "current_lease_id"
  | .leaseLastRenewedAt => "lease_last_renewed_at"
  | .currentWaitpointId => "current_waitpoint_id"

/-- An execution with the fields that only describe_execution reads. -/
structure Described where
  store : Store := run []
  (laneId namespaceName : String := "")
  (lastMutationAt leaseLastRenewedAt : FieldValue := .text "")

def indexValue : Option Nat → FieldValue
  | some n => .print n
  | none => .text ""

def timeValue : Option Int → FieldValue
  | some t => .printInt t
  | none => .text ""

namespace Described

def fields (s : Described) (c : ExecCore) : List (ExecField × FieldValue) :=
  [(.publicState,.text c.publicState.text),(.laneId,.text s.laneId),(.namespaceName,.text s.namespaceName),
    (.flowId,.text c.flowId),(.blockingReason,.text c.blockingReason.text),(.createdAt,.number c.createdAt),
    (.lastMutationAt,s.lastMutationAt),(.totalAttemptCount,.print c.totalAttemptCount),
    (.currentAttemptId,.text c.currentAttemptId),(.currentAttemptIndex,indexValue c.currentAttemptIndex),
    (.currentWorkerInstanceId,.text c.currentWorkerInstanceId),(.leaseExpiresAt,timeValue c.leaseExpiresAt),
    (.currentLeaseEpoch,.print c.currentLeaseEpoch),(.currentLeaseId,.text c.currentLeaseId),
    (.leaseLastRenewedAt,s.leaseLastRenewedAt),(.currentWaitpointId,.text c.currentWaitpointId)]

def execCore (s : Described) (c : ExecCore) : Fields := Hash.hset ((s.fields c).map fun e => (e.1.name,e.2)) ∅

end Described

/-- Arguments that no other part of an execution depends on: the lane and the namespace of a new
execution, and the time that a caller gives. -/
structure CallDetails where
  laneId : String := "default"
  namespaceName : String := ""
  nowMs : Int := 0

inductive ExecInput where
  | call (i : Call) (d : CallDetails)
  | setExecutionTags (args : List String) (now : Int)

open ExecInput

/-- What a call writes to last_mutation_at. A time is printed by the script or handed to the
command as it is. -/
def Call.lastMutationAt (i : Call) (nowMs : Int) (s : Store) (reply : Reply) (t : Store) : Option FieldValue :=
  let printed := some (FieldValue.printInt i.now)
  let raw := some (FieldValue.number i.now)
  match i.op with
  | .create _ | .markLeaseExpiredIfDue => if t.core ≠ s.core then raw else none
  | .claim _ | .claimResumed _ | .issueGrantAndClaim _ | .reclaim _ | .revokeLease _ | .cancel _ | .expire _
  | .resume _ | .deliverSignal _ | .replay _ => if t.core ≠ s.core then printed else none
  -- a lease that turns out to be over is marked by the shared helper, which does not print
  | .complete _ | .fail _ | .delay _ | .moveToWaitingChildren _ | .suspend _ =>
    if t.core ≠ s.core then (if reply.isError then raw else printed) else none
  | .renewLease _ =>
    if reply.isError = false then printed else if t.core ≠ s.core then raw else none
  | .updateProgress _ | .changePriority _ => if reply.isError = false then printed else none
  | .promoteDelayed a => if t.core ≠ s.core then a.nowMs.toNumber.map .printInt else none
  | .block a => if reply.isError = false then some (.number a.nowMs) else none
  | .unblock _ | .promoteBlocked => if reply.isError = false then some (.number nowMs) else none
  | .expireSuspension _ =>
    if t.core ≠ s.core ∨ reply = .ok ["escalate","suspended"] then printed else none
  | .applyDependency a =>
    match s.core with
    | some c =>
      if reply.isError = false ∧ s.deps.dependency a.edgeId = none ∧ c.lifecyclePhase = .runnable ∧
        c.terminalOutcome = .none then some (.number nowMs) else none
    | none => none
  | .resolveDependency a => if t.core ≠ s.core then some (.number a.nowMs) else none
  | .issueClaimGrant _ | .issueReclaimGrant _ | .appendFrame _ | .createPendingWaitpoint _
  | .closeWaitpoint _ | .rotateSecret _ | .bufferSignal _ | .addToFlow _ | .setEdgeGroupPolicy _ => none

def Call.leaseLastRenewedAt (i : Call) (s : Store) (reply : Reply) (t : Store) : Option FieldValue :=
  match i.op with
  | .claim _ | .claimResumed _ | .issueGrantAndClaim _ | .reclaim _ =>
    if t.core ≠ s.core ∧ reply.isError = false then some (.printInt i.now) else none
  | .renewLease _ => if reply.isError = false then some (.printInt i.now) else none
  | .complete _ | .fail _ | .delay _ | .moveToWaitingChildren _ | .cancel _ | .suspend _ =>
    if t.core ≠ s.core ∧ reply.isError = false then some (.text "") else none
  | _ => none

variable (server : Server)

/-- Tags are kept under a key of their own; in exec_core they only count as a mutation. -/
def Described.setExecutionTags (args : List String) (now : Int) (s : Described) : Described :=
  if s.store.core.isSome && FlowKeys.validTags args && decide (args.length ≤ server.unpackLimit) then
    { s with lastMutationAt := .printInt now }
  else s

def describedNext (input : ExecInput) (s : Described) : Described :=
  match input with
  | .call i d =>
    let r := step i s.store
    let fresh := s.store.core.isNone && r.2.core.isSome
    { store := r.2
      laneId := if fresh then d.laneId else s.laneId
      namespaceName := if fresh then d.namespaceName else s.namespaceName
      lastMutationAt := (i.lastMutationAt d.nowMs s.store r.1 r.2).getD s.lastMutationAt
      leaseLastRenewedAt := (i.leaseLastRenewedAt s.store r.1 r.2).getD s.leaseLastRenewedAt }
  | .setExecutionTags args now => s.setExecutionTags server args now

def describedRun (inputs : List ExecInput) : Described := runFrom (describedNext server) {} inputs

/-! Reading the hash back. -/
namespace Described
variable {lib : Libraries} {s : Described} {c : ExecCore}

private theorem fieldName_injective : Function.Injective ExecField.name := by
  intro f g h
  cases f <;> cases g <;> first | rfl | exact absurd h (by decide)

theorem lookup_execCore (s : Described) (c : ExecCore) (f : ExecField) :
    (s.execCore c).lookup f.name = Hash.assign (s.fields c) (fun _ => none) f :=
  (Hash.holds_empty.hset fieldName_injective (s.fields c)).named f

structure Sound (lib : Libraries) (s : Described) (c : ExecCore) : Prop where
  laneId : ∃ lane, LaneId.tryNew s.laneId = .ok lane
  createdAt : 0 ≤ c.createdAt ∧ c.createdAt < 2 ^ 53
  flowId : c.flowId ≠ "" → ∃ id, lib.uuid c.flowId = .ok id
  waitpointId : c.currentWaitpointId ≠ "" → ∃ id, lib.uuid c.currentWaitpointId = .ok id
  attempt : c.currentAttemptId ≠ "" → (∃ id, lib.uuid c.currentAttemptId = .ok id) ∧ c.currentAttemptIndex.isSome = true
  lease : c.currentWorkerInstanceId ≠ "" →
    (∃ id, lib.uuid c.currentLeaseId = .ok id) ∧ c.currentAttemptIndex.isSome = true
  index : ∀ n, c.currentAttemptIndex = some n → n < c.totalAttemptCount
  begun : c.begun → c.currentAttemptIndex.isSome = true

/-- The stored numbers are short enough: the attempts are counted in 32 bits, and the times and
the epoch that are decoded are written as integers. -/
structure Legible (s : Described) (c : ExecCore) : Prop where
  attempts : c.totalAttemptCount < 2 ^ 32
  mutated : s.lastMutationAt.inRange (-2 ^ 63) (2 ^ 63)
  lease : c.currentWorkerInstanceId ≠ "" → ∀ t, c.leaseExpiresAt = some t →
    (-10 ^ 14 < t ∧ t < 10 ^ 14) ∧ c.currentLeaseEpoch < 10 ^ 14 ∧
      (s.leaseLastRenewedAt.isEmpty = true ∨ s.leaseLastRenewedAt.inRange (-2 ^ 63) (2 ^ 63))

theorem isEmpty_text {x : String} : (FieldValue.text x).isEmpty = false ↔ x ≠ "" := by simp [isEmpty]

variable (h : s.Sound lib c)
include h

theorem Sound.indexValue (set : c.currentAttemptIndex.isSome = true)
    (few : c.totalAttemptCount < 2 ^ 32) : (indexValue c.currentAttemptIndex).inRange 0 (2 ^ 32) := by
  obtain ⟨n,hn⟩ := isSome_iff_exists.mp set
  have hlt := h.index n hn
  rw [hn]
  exact inRange_print.mpr (by omega)

theorem Sound.plainFieldsDecode : PlainFieldsDecode lib (s.execCore c) ↔
      c.totalAttemptCount < 2 ^ 32 ∧ s.lastMutationAt.inRange (-2 ^ 63) (2 ^ 63) := by
  have hm : (s.execCore c).lookup "last_mutation_at" = some s.lastMutationAt := lookup_execCore s c .lastMutationAt
  have ht : (s.execCore c).lookup "total_attempt_count" = some (.print c.totalAttemptCount) :=
    lookup_execCore s c .totalAttemptCount
  constructor
  · intro decodes
    have few := (present_forall ht).mp decodes.totalAttemptCount (isEmpty_print _)
    have := inRange_print.mp few
    exact ⟨by omega,(present_number hm).mp decodes.lastMutationAt⟩
  · rintro ⟨few,mutated⟩
    have hp : (s.execCore c).lookup "public_state" = some (.text c.publicState.text) := lookup_execCore s c .publicState
    have hl : (s.execCore c).lookup "lane_id" = some (.text s.laneId) := lookup_execCore s c .laneId
    have hc : (s.execCore c).lookup "created_at" = some (.number c.createdAt) := lookup_execCore s c .createdAt
    constructor
    · refine ⟨c.publicState,?_⟩
      rw [optStr,hp]
      cases c.publicState <;> rfl
    · rw [optStr,hl]
      exact h.laneId
    · refine (present_forall (lookup_execCore s c .flowId)).mpr fun set => ?_
      exact h.flowId (isEmpty_text.mp set)
    · refine (present_number hc).mpr (inRange_number.mpr ?_)
      have := h.createdAt
      omega
    · exact (present_number hm).mpr mutated
    · exact (present_forall ht).mpr fun _ => inRange_print.mpr (by omega)
    · refine (present_forall (lookup_execCore s c .currentAttemptId)).mpr fun set => ?_
      obtain ⟨id,index⟩ := h.attempt (isEmpty_text.mp set)
      exact ⟨id,(present_number (lookup_execCore s c .currentAttemptIndex)).mpr (h.indexValue index few)⟩
    · refine (present_forall (lookup_execCore s c .currentWaitpointId)).mpr fun set => ?_
      exact h.waitpointId (isEmpty_text.mp set)

theorem Sound.leaseFieldsDecode (held : c.currentWorkerInstanceId ≠ "") (few : c.totalAttemptCount < 2 ^ 32) :
    LeaseFieldsDecode lib (s.execCore c) ↔ c.currentLeaseEpoch < 10 ^ 14 ∧
      (s.leaseLastRenewedAt.isEmpty = true ∨ s.leaseLastRenewedAt.inRange (-2 ^ 63) (2 ^ 63)) := by
  have he : (s.execCore c).lookup "current_lease_epoch" = some (.print c.currentLeaseEpoch) :=
    lookup_execCore s c .currentLeaseEpoch
  have hr : (s.execCore c).lookup "lease_last_renewed_at" = some s.leaseLastRenewedAt :=
    lookup_execCore s c .leaseLastRenewedAt
  obtain ⟨⟨id,hid⟩,index⟩ := h.lease held
  constructor
  · intro decodes
    refine ⟨(inRange_print.mp ((present_number he).mp decodes.epoch)).1,?_⟩
    have renewed := (present_forall hr).mp decodes.renewed
    cases empty : s.leaseLastRenewedAt.isEmpty with
    | true => exact .inl rfl
    | false => exact .inr (renewed empty)
  · rintro ⟨short,renewed⟩
    constructor
    · exact (present_number he).mpr (inRange_print.mpr (by omega))
    · refine (present_exists (lookup_execCore s c .currentLeaseId)).mpr ⟨isEmpty_text.mpr ?_,id,hid⟩
      intro none
      rw [none] at hid
      exact lib.uuid_empty id hid
    · exact (present_number (lookup_execCore s c .currentAttemptIndex)).mpr (h.indexValue index few)
    · refine (present_forall hr).mpr fun set => ?_
      rcases renewed with empty | range
      · rw [set] at empty
        cases empty
      · exact range

theorem Sound.accepted :
    (∃ snap, buildExecutionSnapshot lib c.executionId (s.execCore c) = .ok snap) ↔ s.Legible c := by
  have hw : (s.execCore c).lookup "current_worker_instance_id" = some (.text c.currentWorkerInstanceId) :=
    lookup_execCore s c .currentWorkerInstanceId
  have hx : (s.execCore c).lookup "lease_expires_at" = some (timeValue c.leaseExpiresAt) :=
    lookup_execCore s c .leaseExpiresAt
  rw [buildExecutionSnapshot_isOk,h.plainFieldsDecode,present_isSome hw,present_forall hx,isEmpty_text]
  constructor
  · rintro ⟨⟨few,mutated⟩,lease⟩
    refine ⟨few,mutated,fun held t ht => ?_⟩
    rw [ht] at lease
    obtain ⟨range,decodes⟩ := lease held (isEmpty_printInt t)
    exact ⟨(inRange_printInt.mp range).1,(h.leaseFieldsDecode held few).mp decodes⟩
  · intro legible
    refine ⟨⟨legible.attempts,legible.mutated⟩,fun held set => ?_⟩
    cases ht : c.leaseExpiresAt with
    | none =>
      rw [ht] at set
      cases set
    | some t =>
      obtain ⟨range,rest⟩ := legible.lease held t ht
      exact ⟨inRange_printInt.mpr (by omega),(h.leaseFieldsDecode held legible.attempts).mpr rest⟩

end Described

def Op.ids : Op → List String
  | .claim a | .issueGrantAndClaim a => [a.leaseId,a.attemptId]
  | .claimResumed a => [a.leaseId]
  | .reclaim a => [a.leaseId,a.attemptId]
  | .suspend a => [a.waitpointId]
  | .addToFlow a => [a.flowId]
  | _ => []

def Op.times : Op → List Int
  | .promoteDelayed a => a.nowMs.toNumber.toList
  | .block a => [a.nowMs]
  | .resolveDependency a => [a.nowMs]
  | _ => []

/-- How long the lease is to last that a script hands out or renews. -/
def Op.ttl : Op → Option Argument
  | .renewLease a => some a.leaseTtlMs
  | op => op.newLease.map Prod.snd

def ExecInput.now : ExecInput → Int
  | .call i _ => i.now
  | .setExecutionTags _ now => now

/-- The ids are well formed, the lane is valid and the clocks fit a double. -/
def ExecInput.Shaped (lib : Libraries) (input : ExecInput) : Prop :=
  (0 ≤ input.now ∧ input.now < 2 ^ 53) ∧ match input with
    | .call i d => (∀ id ∈ i.op.ids, (lib.uuid id).isOk = true) ∧ (LaneId.tryNew d.laneId).isOk = true ∧
      ∀ n ∈ d.nowMs :: i.op.times, -2 ^ 53 ≤ n ∧ n ≤ 2 ^ 53
    | .setExecutionTags _ _ => True

/-- The clocks and the expiry of the lease have at most fourteen digits. -/
def ExecInput.Short (input : ExecInput) : Prop :=
  input.now < 10 ^ 14 ∧ match input with
    | .call i d => (∀ n ∈ d.nowMs :: i.op.times, -10 ^ 14 < n ∧ n < 10 ^ 14) ∧
      ∀ ttl, i.op.ttl = some (.number ttl) → -10 ^ 14 < i.now + ttl ∧ i.now + ttl < 10 ^ 14
    | .setExecutionTags _ _ => True

section
variable {lib : Libraries} {server : Server} {s t : Described} {c c' : ExecCore} {i : Call} {d : CallDetails}
  {id : String} {op : Op}

theorem isOk_iff {ε α : Type} {x : Except ε α} : x.isOk = true ↔ ∃ a, x = .ok a := by
  cases x <;> simp [Except.isOk,Except.toBool]

private theorem newLease_mem_ids {ttl : Argument} (h : op.newLease = some (id,ttl)) : id ∈ op.ids := by
  cases op <;> cases h <;> simp [Op.ids]

private theorem newAttemptId_mem_ids (h : op.newAttemptId = some id) : id ∈ op.ids := by
  cases op <;> cases h <;> simp [Op.ids]

private theorem sound_new (hs : (call i d).Shaped lib) (lane : s.laneId = d.laneId) (a : CreateArgs)
    (priority : Int) (caps : String) : s.Sound lib (newCore a priority i.now caps) where
  laneId := by
    rw [lane]
    exact isOk_iff.mp hs.2.2.1
  createdAt := hs.1
  flowId := by simp [newCore]
  waitpointId := by simp [newCore]
  attempt := by simp [newCore]
  lease := by simp [newCore]
  index := by simp [newCore]
  begun := by simp [newCore,ExecCore.begun]

theorem Described.Sound.retold (h : s.Sound lib c) (hs : (call i d).Shaped lib)
    (lane : t.laneId = s.laneId) (r : Retold i c c') : t.Sound lib c' where
  laneId := by
    rw [lane]
    exact h.laneId
  createdAt := by
    rw [r.createdAt]
    exact h.createdAt
  flowId := by
    rcases r.flowId with same | ⟨a,op,hf⟩
    · rw [same]
      exact h.flowId
    · intro _
      rw [hf]
      exact isOk_iff.mp (hs.2.1 _ (by simp [op,Op.ids]))
  waitpointId := by
    rcases r.waitpointId with same | cleared | ⟨a,op,hw⟩
    · rw [same]
      exact h.waitpointId
    · intro set
      exact absurd cleared set
    · intro _
      rw [hw]
      exact isOk_iff.mp (hs.2.1 _ (by simp [op,Op.ids]))
  attempt := by
    rw [r.currentAttemptIndex]
    rcases r.attemptId with same | cleared
    · rw [same]
      exact h.attempt
    · intro set
      exact absurd cleared set
  lease := by
    rw [r.currentAttemptIndex]
    rcases r.lease with cleared | ⟨worker,lease⟩
    · intro set
      exact absurd cleared set
    · rw [worker,lease]
      exact h.lease
  index := by
    rw [r.currentAttemptIndex,r.totalAttemptCount]
    exact h.index
  begun := by
    rw [r.currentAttemptIndex]
    exact fun begun => h.begun (r.begun begun)

theorem Described.Sound.leased (h : s.Sound lib c) (hs : (call i d).Shaped lib)
    (lane : t.laneId = s.laneId) (r : Leased i c c') : t.Sound lib c' := by
  obtain ⟨ttl,hl,-⟩ := r.lease
  have leaseId := isOk_iff.mp (hs.2.1 _ (newLease_mem_ids hl))
  have index : c'.currentAttemptIndex.isSome = true := by
    rcases r.attempt with ⟨hi,-⟩ | ⟨hi,-,-,begun⟩
    · rw [hi]
      rfl
    · rw [hi]
      exact h.begun begun
  constructor
  · rw [lane]
    exact h.laneId
  · rw [r.createdAt]
    exact h.createdAt
  · rw [r.flowId]
    exact h.flowId
  · rw [r.waitpointId]
    exact h.waitpointId
  · intro set
    rcases r.attempt with ⟨-,-,ha⟩ | ⟨-,-,ha,-⟩
    · exact ⟨isOk_iff.mp (hs.2.1 _ (newAttemptId_mem_ids ha)),index⟩
    · rw [ha] at set ⊢
      exact ⟨(h.attempt set).1,index⟩
  · exact fun _ => ⟨leaseId,index⟩
  · intro n hn
    rcases r.attempt with ⟨hi,ht,-⟩ | ⟨hi,ht,-⟩
    · rw [hi] at hn
      cases hn
      omega
    · rw [ht]
      exact h.index n (hi.symm.trans hn)
  · exact fun _ => index

theorem setExecutionTags_eq (server : Server) (args : List String) (now : Int) (s : Described) :
    s.setExecutionTags server args now = s ∨
      s.setExecutionTags server args now = { s with lastMutationAt := .printInt now } := by
  unfold Described.setExecutionTags
  split
  · exact .inr rfl
  · exact .inl rfl

/-- An execution, once it exists, is sound. -/
def Described.AllSound (lib : Libraries) (s : Described) : Prop := ∀ c, s.store.core = some c → s.Sound lib c

variable {input : ExecInput} {k : Nat}

private theorem allSound_next (h : s.AllSound lib) (hs : input.Shaped lib) :
    (describedNext server input s).AllSound lib := by
  cases input with
  | call i d =>
    intro c' hc'
    have ht : (next i s.store).core = some c' := hc'
    obtain ⟨hc,a,priority,caps,-,rfl⟩ | ⟨c,hc,told⟩ := next_core ht
    · refine sound_new hs ?_ a priority caps
      exact if_pos (by rw [hc]; exact congrArg Option.isSome ht)
    · have lane : (describedNext server (.call i d) s).laneId = s.laneId := if_neg (by rw [hc]; simp)
      exact told.elim ((h c hc).retold hs lane) ((h c hc).leased hs lane)
  | setExecutionTags args now =>
    rcases setExecutionTags_eq server args now s with same | tagged
    · rw [describedNext,same]
      exact h
    · rw [describedNext,tagged]
      exact fun c hc => { h c hc with }

variable {inputs : List ExecInput} {v : FieldValue}

private theorem describedRun_sound (hs : ∀ input ∈ inputs, input.Shaped lib) :
    (describedRun server inputs).AllSound lib := by
  refine Along.invariant (P := fun _ input => input.Shaped lib) (fun s input h hs => allSound_next h hs) ?_
    (Along.of_forall hs _)
  intro c hc
  cases hc

private theorem lastMutationAt_mem {nowMs : Int} {s t : Store} {reply : Reply}
    (h : i.lastMutationAt nowMs s reply t = some v) :
    ∃ n ∈ i.now :: nowMs :: i.op.times, v = .number n ∨ v = .printInt n := by
  obtain ⟨now,op⟩ := i
  cases op with
  | promoteDelayed a =>
    cases ha : a.nowMs with
    | number n =>
      simp only [lastMutationAt,ha,Argument.toNumber,ite_none_right_eq_some,map_some,Option.some.injEq] at h
      exact ⟨n,by simp [Op.times,ha,Argument.toNumber],.inr h.2.symm⟩
    | text => simp [lastMutationAt,ha,Argument.toNumber] at h
  | applyDependency =>
    simp only [lastMutationAt] at h
    split at h
    · simp only [ite_none_right_eq_some,Option.some.injEq] at h
      exact ⟨nowMs,by simp,.inl h.2.symm⟩
    · cases h
  | _ =>
    simp only [lastMutationAt] at h
    grind [Op.times]

private theorem lastMutationAt_call (server : Server) (i : Call) (d : CallDetails) (s : Described) :
    (describedNext server (.call i d) s).lastMutationAt = s.lastMutationAt ∨
      ∃ n ∈ i.now :: d.nowMs :: i.op.times, (describedNext server (.call i d) s).lastMutationAt = .number n ∨
        (describedNext server (.call i d) s).lastMutationAt = .printInt n := by
  simp only [describedNext]
  cases h : i.lastMutationAt d.nowMs s.store (step i s.store).1 (step i s.store).2 with
  | none => exact .inl rfl
  | some => exact .inr (lastMutationAt_mem h)

private theorem lastMutationAt_created {a : CreateArgs} (op : i.op = .create a) (absent : s.store.core = none)
    (created : (next i s.store).core = some c) :
    (describedNext server (.call i d) s).lastMutationAt = .number i.now := by
  have hc : (step i s.store).2.core = some c := created
  simp [describedNext,lastMutationAt,op,absent,hc]

private theorem leaseLastRenewedAt_call (server : Server) (i : Call) (d : CallDetails) (s : Described) :
    (describedNext server (.call i d) s).leaseLastRenewedAt = s.leaseLastRenewedAt ∨
      (describedNext server (.call i d) s).leaseLastRenewedAt = .text "" ∨
      (describedNext server (.call i d) s).leaseLastRenewedAt = .printInt i.now := by
  obtain ⟨now,op⟩ := i
  cases op with
  | _ =>
    simp only [describedNext,leaseLastRenewedAt]
    grind

/-- After so many inputs with short times, the numbers that are decoded are short. -/
structure Described.ShortAfter (k : Nat) (s : Described) : Prop where
  renewed : s.leaseLastRenewedAt.isEmpty = true ∨ s.leaseLastRenewedAt.inRange (-2 ^ 63) (2 ^ 63)
  mutated : s.store.core.isSome = true → s.lastMutationAt.inRange (-2 ^ 63) (2 ^ 63)
  expires : ∀ c, s.store.core = some c → ∀ t, c.leaseExpiresAt = some t → -10 ^ 14 < t ∧ t < 10 ^ 14
  counts : ∀ c, s.store.core = some c → c.totalAttemptCount ≤ k ∧ c.currentLeaseEpoch ≤ k

theorem inRange_short {n : Int} (h : -10 ^ 14 < n ∧ n < 10 ^ 14)
    (hv : v = .number n ∨ v = .printInt n) : v.inRange (-2 ^ 63) (2 ^ 63) := by
  rcases hv with rfl | rfl
  · exact inRange_number.mpr (by omega)
  · exact inRange_printInt.mpr (by omega)

theorem short_now (hs : input.Shaped lib) (short : input.Short) : -10 ^ 14 < input.now ∧ input.now < 10 ^ 14 := by
  have := hs.1.1
  have := short.1
  omega

section
variable (h : s.ShortAfter k)
include h

theorem mutated_call (hs : (call i d).Shaped lib)
    (short : (call i d).Short) (set : (next i s.store).core.isSome = true) :
    (describedNext server (.call i d) s).lastMutationAt.inRange (-2 ^ 63) (2 ^ 63) := by
  have now := short_now hs short
  obtain ⟨c',hc'⟩ := isSome_iff_exists.mp set
  obtain ⟨hc,a,priority,caps,op,-⟩ | ⟨c,hc,-⟩ := next_core hc'
  · rw [lastMutationAt_created op hc hc']
    exact inRange_short now (.inl rfl)
  · rcases lastMutationAt_call server i d s with same | ⟨n,hn,hv⟩
    · rw [same]
      exact h.mutated (by rw [hc]; rfl)
    · refine inRange_short ?_ hv
      rcases List.mem_cons.mp hn with rfl | hn
      · exact now
      · exact short.2.1 n hn

theorem expires_call (short : (call i d).Short)
    (hc' : (next i s.store).core = some c') {t : Int} (ht : c'.leaseExpiresAt = some t) :
    -10 ^ 14 < t ∧ t < 10 ^ 14 := by
  obtain ⟨-,a,priority,caps,-,rfl⟩ | ⟨c,hc,r | r⟩ := next_core hc'
  · cases ht
  · rcases r.expires with cleared | same | ⟨a,ttl,op,httl,he⟩
    · rw [cleared] at ht
      cases ht
    · exact h.expires c hc t (same.symm.trans ht)
    · rw [he] at ht
      cases ht
      exact short.2.2 ttl (by rw [op,Op.ttl,httl])
  · obtain ⟨ttl,hl,he⟩ := r.lease
    rw [he] at ht
    cases ht
    refine short.2.2 ttl ?_
    cases op : i.op <;> rw [op] at hl <;> first | cases hl | simp [Op.ttl,hl]

theorem counts_call (hc' : (next i s.store).core = some c') :
    c'.totalAttemptCount ≤ k + 1 ∧ c'.currentLeaseEpoch ≤ k + 1 := by
  obtain ⟨-,a,priority,caps,-,rfl⟩ | ⟨c,hc,r | r⟩ := next_core hc'
  · exact ⟨zero_le _,zero_le _⟩
  · have counts := h.counts c hc
    rw [r.totalAttemptCount,r.currentLeaseEpoch]
    omega
  · have counts := h.counts c hc
    have epoch := r.currentLeaseEpoch
    rcases r.attempt with ⟨-,total,-⟩ | ⟨-,total,-⟩ <;> omega

theorem shortAfter_next (hs : input.Shaped lib)
    (short : input.Short) : (describedNext server input s).ShortAfter (k + 1) := by
  have now := short_now hs short
  cases input with
  | call i d =>
    constructor
    · rcases leaseLastRenewedAt_call server i d s with same | cleared | printed
      · rw [same]
        exact h.renewed
      · rw [cleared]
        exact .inl rfl
      · exact .inr (inRange_short now (.inr printed))
    · exact mutated_call h hs short
    · exact fun c hc t ht => expires_call h short hc ht
    · exact fun c hc => counts_call h hc
  | setExecutionTags args now' =>
    have counts : ∀ c, s.store.core = some c → c.totalAttemptCount ≤ k + 1 ∧ c.currentLeaseEpoch ≤ k + 1 :=
      fun c hc => ⟨(h.counts c hc).1.trans (le_succ k),(h.counts c hc).2.trans (le_succ k)⟩
    rcases setExecutionTags_eq server args now' s with same | tagged
    · rw [describedNext,same]
      exact { h with counts }
    · rw [describedNext,tagged]
      exact { renewed := h.renewed, mutated := fun _ => inRange_short now (.inr rfl), expires := h.expires, counts }

theorem shortAfter_run (hs : ∀ input ∈ inputs, input.Shaped lib) (short : ∀ input ∈ inputs, input.Short) :
    (runFrom (describedNext server) s inputs).ShortAfter (k + inputs.length) := by
  induction inputs generalizing s k with
  | nil => exact h
  | cons input inputs ih =>
    have first : (describedNext server input s).ShortAfter (k + 1) :=
      shortAfter_next h (hs input (by simp)) (short input (by simp))
    have rest := ih first (fun j hj => hs j (by simp [hj])) (fun j hj => short j (by simp [hj]))
    rw [List.length_cons,← add_assoc,add_right_comm]
    exact rest

end

theorem legible_of_short (hs : ∀ input ∈ inputs, input.Shaped lib)
    (short : ∀ input ∈ inputs, input.Short) (few : inputs.length < 2 ^ 32)
    (hc : (describedRun server inputs).store.core = some c) : (describedRun server inputs).Legible c := by
  have start : ({} : Described).ShortAfter 0 :=
    ⟨.inl rfl,fun set => (by cases set),fun c hc => (by cases hc),fun c hc => (by cases hc)⟩
  have after : (describedRun server inputs).ShortAfter inputs.length := by
    rw [← zero_add inputs.length]
    exact shortAfter_run start hs short
  have counts := after.counts c hc
  refine ⟨by omega,after.mutated (by rw [hc]; rfl),fun _ t ht => ⟨after.expires c hc t ht,?_,after.renewed⟩⟩
  omega

end

/-- The decoder accepts an execution, whatever calls led to it, exactly if its numbers are
legible, and then it reports the lease that is held. They are legible as long as the clocks and
the expiries have at most fourteen digits. -/
theorem legible_execution_is_described (lib : Libraries) (server : Server) (inputs : List ExecInput)
    (shaped : ∀ input ∈ inputs, input.Shaped lib) (c : ExecCore)
    (hc : (describedRun server inputs).store.core = some c) :
    ((∃ snap, buildExecutionSnapshot lib c.executionId ((describedRun server inputs).execCore c) = .ok snap ∧
        ReportsLease lib ((describedRun server inputs).execCore c) snap.currentLease) ↔
      (describedRun server inputs).Legible c) ∧
      ((∀ input ∈ inputs, input.Short) → inputs.length < 2 ^ 32 → (describedRun server inputs).Legible c) := by
  refine ⟨?_,fun short few => legible_of_short shaped short few hc⟩
  rw [← (describedRun_sound shaped c hc).accepted]
  constructor
  · rintro ⟨snap,hsnap,-⟩
    exact ⟨snap,hsnap⟩
  · rintro ⟨snap,hsnap⟩
    exact ⟨snap,hsnap,buildExecutionSnapshot_reports hsnap⟩

namespace Client

def isHyphenated (id : String) : Bool :=
  decide (id.toList.length = 36) && (id.toList.zipIdx.all fun e =>
    if e.2 ∈ [8,13,18,23] then e.1 == '-' else e.1.isDigit || ('a' ≤ e.1 && e.1 ≤ 'f'))

def libraries : Libraries where
  uuid id := if isHyphenated id then .ok id else .error "invalid length"
  serdeError _ := "unknown variant"
  uuid_empty id h := by cases h

def leaseUuid : String := "11111111-1111-4111-8111-111111111111"

def attemptUuid : String := "22222222-2222-4222-8222-222222222222"

def longClaim (now leaseTtlMs : Int) : Call :=
  ⟨now,.claim
    { executionId := "e", workerId := "w", workerInstanceId := "wi", leaseId := leaseUuid
      attemptId := attemptUuid, leaseTtlMs := .number leaseTtlMs, keys := { workerInstanceId := "wi" } }⟩

def leasedFor (leaseTtlMs : Int) : List ExecInput :=
  [.call (create 10) {},.call (grant 11) {},.call (longClaim 12 leaseTtlMs) {}]

theorem shaped_leasedFor (leaseTtlMs : Int) : ∀ input ∈ leasedFor leaseTtlMs, input.Shaped libraries := by
  intro input h
  simp only [leasedFor,List.mem_cons,List.not_mem_nil,or_false] at h
  have lane : (LaneId.tryNew "default").isOk = true := by decide +kernel
  have ids : ∀ id ∈ [leaseUuid,attemptUuid], (libraries.uuid id).isOk = true := by decide +kernel
  have clock : (0 : Int) ≤ 12 ∧ (12 : Int) < 2 ^ 53 := by decide
  have times : ∀ n ∈ [(0 : Int)], -2 ^ 53 ≤ n ∧ n ≤ 2 ^ 53 := by decide
  rcases h with rfl | rfl | rfl
  · exact ⟨by decide,by decide,lane,times⟩
  · exact ⟨by decide,by decide,lane,times⟩
  · exact ⟨clock,ids,lane,times⟩

theorem short_leasedFor : ∀ input ∈ leasedFor 1000, input.Short := by
  intro input h
  simp only [leasedFor,List.mem_cons,List.not_mem_nil,or_false] at h
  rcases h with rfl | rfl | rfl
  · exact ⟨by decide,by decide,fun ttl ht => by cases ht⟩
  · exact ⟨by decide,by decide,fun ttl ht => by cases ht⟩
  · exact ⟨by decide,by decide,fun ttl ht => by cases ht; decide⟩

theorem leased_execution_is_described : ∃ c, (describedRun .strict (leasedFor 1000)).store.core = some c ∧
      ∃ snap, buildExecutionSnapshot libraries c.executionId ((describedRun .strict (leasedFor 1000)).execCore c) =
          .ok snap ∧ ReportsLease libraries ((describedRun .strict (leasedFor 1000)).execCore c) snap.currentLease := by
  have exists' : (describedRun .strict (leasedFor 1000)).store.core.isSome = true := by decide +kernel
  obtain ⟨c,hc⟩ := isSome_iff_exists.mp exists'
  obtain ⟨described,legible⟩ :=
    legible_execution_is_described libraries .strict (leasedFor 1000) (shaped_leasedFor 1000) c hc
  exact ⟨c,hc,described.mpr (legible short_leasedFor (by decide))⟩

/-- A claim for 10^14 milliseconds succeeds, and the execution can no longer be described. -/
theorem long_lease_is_not_described : let s := describedRun .strict (leasedFor (10 ^ 14))
    (∀ input ∈ leasedFor (10 ^ 14), input.Shaped libraries) ∧
      (s.store.core.map fun c => (c.currentWorkerInstanceId,c.leaseExpiresAt)) = some ("wi",some (10 ^ 14 + 12)) ∧
      (s.store.core.map fun c => buildExecutionSnapshot libraries c.executionId (s.execCore c)) =
        some (.error ⟨"describe_execution: exec_core",some "lease_expires_at",
          "is not a valid ms timestamp ('1.0000000000001e+14'): invalid digit found in string"⟩) :=
  ⟨shaped_leasedFor _,by decide +kernel,by decide +kernel⟩

end Client

end FlowFabric
