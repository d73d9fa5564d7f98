import FlowFabric.Executions
import FlowFabric.FlowCancel
import FlowFabric.FlowRefinement

/-! The flow projector. project_flow_summary samples the members of a flow, sums up what it reads of
them and takes a flow whose members have all ended off the index of its partition. Each of its
commands is a step of its own between the calls on the flow and on its members. -/
namespace FlowFabric
open Foundation List Function

/-- An execution that is labelled as ended only when it has. -/
structure ShownExecution extends Execution where
  honest : store.lives Life.Honest

namespace ShownExecution

def of (calls : List Call) : ShownExecution := ⟨.of calls,run_honest calls⟩

def next (i : Call) (x : ShownExecution) : ShownExecution := ⟨x.toExecution.next i,honest_next x.store i x.honest⟩

def purge (x : ShownExecution) : ShownExecution := ⟨x.toExecution.purge,fun c hc => by cases hc⟩

end ShownExecution

structure Flow where
  keys : FlowKeys
  carries : ∃ f : FlowStore, f.Sound ∧ Carries keys f

namespace Flow

def absent : Flow := ⟨noFlow,flowRun [],flowRun_sound [],rfl,rfl,rfl,rfl,.inl ⟨rfl,rfl⟩⟩

def next (server : Server) (i : FlowInput) (k : Flow) : Flow where
  keys := keysNext server i k.keys
  carries := by
    obtain ⟨f,sound,h⟩ := k.carries
    obtain ⟨g,move,h'⟩ := h.effect (keysNext_effect i k.keys)
    exact ⟨g,sound.move move,h'⟩

def unlist (k : Flow) : Flow where
  keys := { k.keys with flowIndex := false }
  carries := by
    obtain ⟨f,sound,h⟩ := k.carries
    exact ⟨f,sound,h.members,h.edge,h.outgoing,h.incoming,h.core⟩

end Flow

def batchSize : Nat := 50

/-- A member as it was when it was read. The projector looks at its public state only. -/
structure MemberRead where
  eid : ExecutionId
  found : ShownExecution

open MemberRead

def MemberRead.publicState (r : MemberRead) : Option PublicState := r.found.store.core.map (·.publicState)

inductive SummaryState where
  | completed | failed | running | blocked | opened
  deriving DecidableEq

/-- The summary hash. There is one counter for each public state. -/
structure FlowSummary where
  (totalMembers sampledMembers : Nat)
  members : PublicState → Nat
  publicFlowState : SummaryState
  lastSummaryUpdateAt : Int

/-- A projection under way: the members that were counted, of which it knows the number only, and
the reads so far. -/
structure Projection where
  nowMs : Int
  counted : Finset ExecutionId
  reads : List MemberRead := []

namespace Projection
variable (q : Projection)

def trueTotal : Nat := q.counted.card

def sampled : Nat := q.reads.length

def count (state : PublicState) : Nat := q.reads.countP fun r => decide (r.publicState = some state)

def terminalCount : Nat :=
  q.count .completed + q.count .skipped + q.count .failed + q.count .cancelled + q.count .expired

def allTerminal : Bool := decide (q.terminalCount = q.sampled ∧ 0 < q.sampled)

def flowState : SummaryState :=
  if q.allTerminal then
    if 0 < q.count .failed ∨ 0 < q.count .cancelled ∨ 0 < q.count .expired then .failed else .completed
  else if 0 < q.count .active then .running
  else if 0 < q.count .suspended ∨ 0 < q.count .delayed ∨ 0 < q.count .rateLimited ∨
    0 < q.count .waitingChildren then .blocked
  else .opened

def summary : FlowSummary := ⟨q.trueTotal,q.sampled,q.count,q.flowState,q.nowMs⟩

def prunes : Bool := q.allTerminal && decide (q.sampled = q.trueTotal)

def read (eid : ExecutionId) (x : ShownExecution) : Projection := { q with reads := q.reads ++ [⟨eid,x⟩] }

def seen : List ExecutionId := q.reads.map (·.eid)

end Projection

inductive ProjectorStage where
  | idle
  | existence (nowMs : Int)
  | missing
  | counting (nowMs : Int)
  | sampling (nowMs : Int) (counted : Finset ExecutionId)
  | reading (q : Projection) (eid : ExecutionId) (left : List ExecutionId)
  | writing (q : Projection)
  | pruning (q : Projection)

namespace ProjectorStage

/-- The next member, or the summary after the last one. -/
def proceed (q : Projection) : List ExecutionId → ProjectorStage
  | eid :: left => .reading q eid left
  | [] => .writing q

/-- The projection has counted the members and is not finished. -/
def hasCounted : ProjectorStage → Bool
  | .idle | .existence _ | .missing | .counting _ => false
  | .sampling _ _ | .reading _ _ _ | .writing _ | .pruning _ => true

def seen : ProjectorStage → List ExecutionId
  | .idle | .existence _ | .missing | .counting _ | .sampling _ _ => []
  | .reading q _ _ | .writing q | .pruning q => q.seen

end ProjectorStage

structure ProjectorWorld where
  exec : ExecutionId → ShownExecution
  flow : Flow := .absent
  summary : Option FlowSummary := none
  projector : Nat → ProjectorStage := fun _ => .idle
  written : List Projection := []

open ProjectorWorld

namespace ProjectorWorld
variable (w : ProjectorWorld)

@[simps] def setExec (eid : ExecutionId) (x : ShownExecution) : ProjectorWorld :=
  { w with exec := Function.update w.exec eid x }

@[simps] def setProjector (p : Nat) (stage : ProjectorStage) : ProjectorWorld :=
  { w with projector := Function.update w.projector p stage }

/-- What ff_add_execution_to_flow reads of the execution. -/
def memberArgs (a : FlowStore.MemberArgs) : FlowStore.MemberArgs :=
  { a with
    executionExists := (w.exec a.executionId).store.core.isSome
    existingFlowId := ((w.exec a.executionId).store.core.map (·.flowId)).getD "" }

def joinArgs (a : FlowStore.MemberArgs) : JoinArgs where
  flowId := a.flowId
  executionId := a.executionId.text
  flowExists := w.flow.keys.hasCore
  flowTerminal := w.flow.keys.isTerminal
  isMember := decide (a.executionId ∈ w.flow.keys.members)

/-- A call on the flow. The one that adds a member stamps the execution as well. -/
def flowCall (server : Server) (i : FlowInput) : ProjectorWorld :=
  match i.call with
  | .addExecutionToFlow a =>
    { w.setExec a.executionId ((w.exec a.executionId).next ⟨i.now.ms,.addToFlow (w.joinArgs a)⟩) with
      flow := w.flow.next server ⟨i.now,.addExecutionToFlow (w.memberArgs a)⟩ }
  | _ => { w with flow := w.flow.next server i }

def sample (p : Nat) (memberEids : List ExecutionId) : ProjectorWorld :=
  match w.projector p with
  | .sampling nowMs counted =>
    if memberEids.Nodup ∧ (∀ eid ∈ memberEids, eid ∈ w.flow.keys.members) ∧ memberEids.length ≤ batchSize then
      w.setProjector p (if memberEids = [] then .idle else .proceed { nowMs, counted } memberEids)
    else w
  | _ => w

/-- The flow is taken off the index, and the projection is finished. -/
def prune (p : Nat) : ProjectorWorld := { w.setProjector p .idle with flow := w.flow.unlist }

def command (p : Nat) : ProjectorWorld :=
  match w.projector p with
  | .idle | .sampling _ _ => w
  | .existence nowMs => w.setProjector p (if w.flow.keys.hasCore then .counting nowMs else .missing)
  | .missing | .pruning _ => w.prune p
  | .counting nowMs =>
    w.setProjector p (if w.flow.keys.members.card = 0 then .idle else .sampling nowMs w.flow.keys.members)
  | .reading q eid left => w.setProjector p (.proceed (q.read eid (w.exec eid)) left)
  | .writing q =>
    { w.setProjector p (if q.prunes then .pruning q else .idle) with
      summary := some q.summary, written := w.written ++ [q] }

/-- A flow that is not cancelled and has a member that has not ended is in the index. -/
def listed : Prop :=
  ¬ w.flow.keys.isCancelled → (∃ eid ∈ w.flow.keys.members, (w.exec eid).ended = false) → w.flow.keys.flowIndex = true

end ProjectorWorld

inductive ProjectorStep where
  | call (eid : ExecutionId) (i : Call)
  | purge (eid : ExecutionId)
  | flow (i : FlowInput)
  | project (p : Nat) (nowMs : Int)
  | command (p : Nat)
  | sample (p : Nat) (memberEids : List ExecutionId)
  | fail (p : Nat)

def projectorNext (server : Server) (s : ProjectorStep) (w : ProjectorWorld) : ProjectorWorld :=
  match s with
  | .call eid i => w.setExec eid ((w.exec eid).next i)
  | .purge eid => w.setExec eid (w.exec eid).purge
  | .flow i => w.flowCall server i
  | .project p nowMs => w.setProjector p (.existence nowMs)
  | .command p => w.command p
  | .sample p memberEids => w.sample p memberEids
  | .fail p => w.setProjector p .idle

namespace ProjectorStep

def Covers (w : ProjectorWorld) : ProjectorStep → Prop
  | .sample _ memberEids => ∀ eid ∈ w.flow.keys.members, eid ∈ memberEids
  | _ => True

instance (w : ProjectorWorld) (s : ProjectorStep) : Decidable (s.Covers w) :=
  match s with
  | .sample _ memberEids => inferInstanceAs (Decidable (∀ eid ∈ w.flow.keys.members, eid ∈ memberEids))
  | .call _ _ | .purge _ | .flow _ | .project _ _ | .command _ | .fail _ => inferInstanceAs (Decidable True)

/-- A member is brought back to life only while its flow is in the index, or cancelled, and not
between its read and the end of the projection. The flow gets no new member while a projection
that has counted the members is under way, and is not created while one that has missed it is. -/
def Timely (w : ProjectorWorld) : ProjectorStep → Prop
  | .call eid i =>
    (w.exec eid).ended = true → ((w.exec eid).next i).ended = false → eid ∈ w.flow.keys.members →
      ¬ w.flow.keys.isCancelled → w.flow.keys.flowIndex = true ∧ ∀ p, eid ∉ (w.projector p).seen
  | .flow i =>
    match i.call with
    | .addExecutionToFlow a => a.executionId ∉ w.flow.keys.members → ∀ p, (w.projector p).hasCounted = false
    | .createFlow _ => ∀ p, w.projector p ≠ .missing
    | _ => True
  | _ => True

end ProjectorStep

section
variable {server : Server} {now : ServerTime} {call : FlowCall} {k t : FlowKeys}

theorem Flow.members_of_absent (k : Flow) (h : k.keys.hasCore = false) : k.keys.members = ∅ := by
  obtain ⟨f,sound,carries⟩ := k.carries
  obtain ⟨-,absent⟩ | ⟨r,c,describes,-⟩ := carries.core
  · obtain ⟨edges,counted⟩ := sound.counted
    rw [← carries.members]
    exact (counted.absent absent).1
  · rw [FlowKeys.hasCore_of_lookup (describes.named .flowId)] at h
    cases h

private theorem migrateTags_flowIndex (moved : k.migrateTags server = some t) : t.flowIndex = k.flowIndex := by
  unfold FlowKeys.migrateTags at moved
  split at moved
  · cases moved
    rfl
  · split at moved <;> cases moved
    rfl

theorem KeysEffect.membership (effect : KeysEffect server now k call t) :
    (t.members = k.members ∧ (k.flowIndex = true → t.flowIndex = true)) ∨
      ∃ a, call = .addExecutionToFlow a ∧ a.executionId ∉ k.members ∧
        t.members = insert a.executionId k.members ∧ t.flowIndex = true := by
  cases effect with
  | added a live going new => exact .inr ⟨a,rfl,new,rfl,rfl⟩
  | migrated args t live valid moved | tagged args t live valid moved =>
    exact .inl ⟨(FlowKeys.migrateTags_backlog moved).1,fun h => (migrateTags_flowIndex moved).trans h⟩
  | listed | turnedAway | created => exact .inl ⟨rfl,fun _ => rfl⟩
  | _ => exact .inl ⟨rfl,id⟩

theorem KeysEffect.hasCore_eq_false (effect : KeysEffect server now k call t) (h : k.hasCore = false)
    (other : ∀ a, call ≠ .createFlow a) : t.hasCore = false := by
  have dead : ∀ {p : Prop}, k.hasCore = true → p := by
    intro p live
    rw [h] at live
    cases live
  cases effect with
  | refused | overflowed | acknowledged => exact h
  | created a => exact absurd rfl (other a)
  | listed a live | turnedAway a live | added a live | staged a nowMs live | cancelled a grace live
  | migrated args t live | tagged args t live => exact dead live

end

def MemberRead.isTerminal (r : MemberRead) : Bool := r.publicState.any PublicState.isTerminal

theorem MemberRead.terminal {r : MemberRead} (h : r.isTerminal = true) :
    ∃ c, r.found.store.core = some c ∧ c.lifecyclePhase = .terminal := by
  unfold isTerminal publicState at h
  cases hc : r.found.store.core with
  | none =>
    rw [hc] at h
    cases h
  | some c =>
    rw [hc] at h
    exact ⟨c,rfl,r.found.honest c hc h⟩

namespace Projection
variable {q : Projection}

private theorem terminalCount_eq (q : Projection) : q.terminalCount = q.reads.countP isTerminal := by
  unfold terminalCount count
  induction q.reads with
  | nil => rfl
  | cons r reads ih =>
    cases hs : r.publicState with
    | none => simpa [countP_cons,hs,isTerminal] using ih
    | some state => cases state <;> simp [hs,isTerminal,PublicState.isTerminal] <;> omega

theorem allTerminal_iff : q.allTerminal = true ↔ q.reads ≠ [] ∧ ∀ r ∈ q.reads, r.isTerminal = true := by
  unfold allTerminal sampled
  rw [decide_eq_true_eq,terminalCount_eq,countP_eq_length,and_comm]
  simp [length_pos_iff]

private theorem allTerminal_of_closes (h : q.flowState = .completed ∨ q.flowState = .failed) :
    q.allTerminal = true := by
  by_contra hn
  unfold flowState at h
  rw [if_neg hn] at h
  split at h
  · simp at h
  · split at h <;> simp at h

end Projection

section
variable {server : Server} {w : ProjectorWorld} {k k' : FlowKeys} {q : Projection} {eid : ExecutionId}
  {x : ShownExecution} {stage : ProjectorStage} {exec exec' : ExecutionId → ShownExecution}

theorem seen_read (q : Projection) (eid : ExecutionId) (x : ShownExecution) :
    (q.read eid x).seen = q.seen ++ [eid] := by
  simp [Projection.seen,Projection.read]

private theorem flowCall_members_subset (server : Server) (w : ProjectorWorld) (i : FlowInput) :
    w.flow.keys.members ⊆ (w.flowCall server i).flow.keys.members := by
  obtain ⟨call,effect⟩ : ∃ call, KeysEffect server i.now w.flow.keys call (w.flowCall server i).flow.keys := by
    obtain ⟨now,call⟩ := i
    cases call with
    | addExecutionToFlow a => exact ⟨_,keysNext_effect ⟨now,.addExecutionToFlow (w.memberArgs a)⟩ w.flow.keys⟩
    | _ => exact ⟨_,keysNext_effect _ w.flow.keys⟩
  obtain ⟨same,-⟩ | ⟨a,-,-,added,-⟩ := effect.membership
  · exact same.ge
  · rw [added]
    exact Finset.subset_insert _ _

private theorem flowCall_projector (server : Server) (w : ProjectorWorld) (i : FlowInput) :
    (w.flowCall server i).projector = w.projector ∧ (w.flowCall server i).written = w.written := by
  unfold flowCall
  split <;> exact ⟨rfl,rfl⟩

/-! The members that were counted are read. -/

def ProjectorStage.Covering (k : FlowKeys) : ProjectorStage → Prop
  | .sampling _ counted => counted ⊆ k.members
  | .reading q eid left => ∀ m ∈ q.counted, m ∈ q.seen ++ eid :: left
  | .writing q => ∀ m ∈ q.counted, m ∈ q.seen
  | .idle | .existence _ | .missing | .counting _ | .pruning _ => True

structure ProjectorWorld.Covering (w : ProjectorWorld) : Prop where
  projector : ∀ p, (w.projector p).Covering w.flow.keys
  written : ∀ q ∈ w.written, ∀ m ∈ q.counted, m ∈ q.seen

theorem proceed_covering (left : List ExecutionId) (h : ∀ m ∈ q.counted, m ∈ q.seen ++ left) :
    (ProjectorStage.proceed q left).Covering k := by
  cases left with
  | cons => exact h
  | nil =>
    rw [append_nil] at h
    exact h

namespace ProjectorWorld.Covering

variable (h : w.Covering) (p : Nat)
include h

theorem setProjector (hs : stage.Covering w.flow.keys) : (w.setProjector p stage).Covering := by
  refine ⟨(forall_update_iff _ fun _ => ProjectorStage.Covering w.flow.keys).mpr ⟨hs,?_⟩,h.written⟩
  exact fun p' _ => h.projector p'

theorem flowCall (i : FlowInput) : (w.flowCall server i).Covering := by
  have grows := flowCall_members_subset server w i
  obtain ⟨projector,written⟩ := flowCall_projector server w i
  refine ⟨fun p => ?_,written ▸ h.written⟩
  have before := h.projector p
  rw [projector]
  generalize w.projector p = stage at before ⊢
  cases stage with
  | sampling => exact before.trans grows
  | _ => exact before

theorem sample {memberEids : List ExecutionId}
    (covers : ∀ eid ∈ w.flow.keys.members, eid ∈ memberEids) : (w.sample p memberEids).Covering := by
  have before := h.projector p
  unfold ProjectorWorld.sample
  generalize w.projector p = stage at before ⊢
  cases stage with
  | sampling =>
    dsimp only
    split
    · refine h.setProjector p ?_
      split
      · trivial
      · exact proceed_covering memberEids fun m hm => covers m (before hm)
    · exact h
  | _ => exact h

theorem prune : (w.prune p).Covering := by
  have idle : (w.setProjector p .idle).Covering := h.setProjector p trivial
  exact ⟨fun p' => idle.projector p',h.written⟩

theorem command : (w.command p).Covering := by
  have before := h.projector p
  unfold ProjectorWorld.command
  generalize w.projector p = stage at before ⊢
  cases stage with
  | idle | sampling => exact h
  | existence =>
    refine h.setProjector p ?_
    split <;> trivial
  | missing | pruning => exact h.prune p
  | counting =>
    refine h.setProjector p ?_
    split
    · trivial
    · exact Finset.Subset.refl _
  | reading q eid left =>
    refine h.setProjector p (proceed_covering left fun m hm => ?_)
    rw [seen_read,append_assoc]
    exact before m hm
  | writing q =>
    have moved : (w.setProjector p (if q.prunes then .pruning q else .idle)).Covering := by
      refine h.setProjector p ?_
      split <;> trivial
    refine ⟨moved.projector,fun q' hq' => ?_⟩
    obtain old | new := mem_append.mp hq'
    · exact h.written q' old
    · rw [mem_singleton.mp new]
      exact before

end ProjectorWorld.Covering

private theorem covering_next (w : ProjectorWorld) (s : ProjectorStep) (h : w.Covering) (covers : s.Covers w) :
    (projectorNext server s w).Covering := by
  cases s with
  | call | purge => exact ⟨h.projector,h.written⟩
  | flow i => exact h.flowCall i
  | project p | fail p => exact h.setProjector p trivial
  | command p => exact h.command p
  | sample p => exact h.sample p covers

/-! The members that were read as ended stay so until the projection is finished. -/

/-- The members were counted and are those of the flow, the sample has no repetitions, and what was
read as ended has ended. -/
structure Projection.Watched (exec : ExecutionId → ShownExecution) (k : FlowKeys) (sample : List ExecutionId)
    (q : Projection) : Prop where
  counted : q.counted = k.members
  nodup : sample.Nodup
  members : ∀ eid ∈ sample, eid ∈ k.members
  ended : ¬ k.isCancelled → ∀ r ∈ q.reads, r.isTerminal = true → (exec r.eid).ended = true

def ProjectorStage.Watched (exec : ExecutionId → ShownExecution) (k : FlowKeys) : ProjectorStage → Prop
  | .missing => k.hasCore = false
  | .sampling _ counted => counted = k.members
  | .reading q eid left => q.Watched exec k (q.seen ++ eid :: left)
  | .writing q => q.Watched exec k q.seen
  | .pruning q => q.Watched exec k q.seen ∧ q.prunes = true
  | .idle | .existence _ | .counting _ => True

structure ProjectorWorld.Watched (w : ProjectorWorld) : Prop where
  listed : w.listed
  projector : ∀ p, (w.projector p).Watched w.exec w.flow.keys

namespace Projection.Watched
variable {sample : List ExecutionId}

theorem mono (h : q.Watched exec k sample) (members : k'.members = k.members)
    (cancelled : k.isCancelled → k'.isCancelled)
    (kept : ¬ k.isCancelled → ∀ eid ∈ q.seen, (exec eid).ended = true → (exec' eid).ended = true) :
    q.Watched exec' k' sample where
  counted := h.counted.trans members.symm
  nodup := h.nodup
  members := by
    rw [members]
    exact h.members
  ended := by
    intro going r hr terminal
    have before := mt cancelled going
    exact kept before r.eid (mem_map_of_mem hr) (h.ended before r hr terminal)

theorem ended_of_prunes (h : q.Watched exec k q.seen) (prunes : q.prunes = true) (going : ¬ k.isCancelled) :
    ∀ m ∈ k.members, (exec m).ended = true := by
  simp only [Projection.prunes,Bool.and_eq_true,decide_eq_true_eq] at prunes
  obtain ⟨all,whole⟩ := prunes
  have terminal := (Projection.allTerminal_iff.mp all).2
  have sampled : q.seen.toFinset.card = q.counted.card := by
    rw [toFinset_card_of_nodup h.nodup,Projection.seen,length_map]
    exact whole
  have covered : q.seen.toFinset = q.counted := by
    refine Finset.eq_of_subset_of_card_le (fun m hm => ?_) sampled.ge
    rw [h.counted]
    exact h.members m (mem_toFinset.mp hm)
  intro m hm
  rw [← h.counted,← covered,mem_toFinset] at hm
  obtain ⟨r,hr,rfl⟩ := mem_map.mp hm
  exact h.ended going r hr (terminal r hr)

end Projection.Watched

theorem proceed_watched {left : List ExecutionId} (h : q.Watched exec k (q.seen ++ left)) :
    (ProjectorStage.proceed q left).Watched exec k := by
  cases left with
  | cons => exact h
  | nil =>
    rw [append_nil] at h
    exact h

namespace ProjectorStage.Watched

theorem seen_members (h : stage.Watched exec k) : ∀ eid ∈ stage.seen, eid ∈ k.members := by
  cases stage with
  | reading => exact fun m hm => h.members m (mem_append_left _ hm)
  | writing => exact h.members
  | pruning => exact h.1.members
  | _ =>
    intro m hm
    cases hm

theorem mono (h : stage.Watched exec k) (members : k'.members = k.members) (cancelled : k.isCancelled → k'.isCancelled)
    (absent : stage = .missing → k.hasCore = false → k'.hasCore = false)
    (kept : ¬ k.isCancelled → ∀ eid ∈ stage.seen, (exec eid).ended = true → (exec' eid).ended = true) :
    stage.Watched exec' k' := by
  cases stage with
  | missing => exact absent rfl h
  | sampling => exact Eq.trans h members.symm
  | reading | writing => exact Projection.Watched.mono h members cancelled kept
  | pruning => exact ⟨h.1.mono members cancelled kept,h.2⟩
  | _ => trivial

end ProjectorStage.Watched

namespace ProjectorWorld.Watched

variable (h : w.Watched) (p : Nat)
include h

theorem setProjector (hs : stage.Watched w.exec w.flow.keys) : (w.setProjector p stage).Watched := by
  refine ⟨h.listed,(forall_update_iff _ fun _ => ProjectorStage.Watched w.exec w.flow.keys).mpr ⟨hs,?_⟩⟩
  exact fun p' _ => h.projector p'

theorem setExec (kept : (w.exec eid).ended = true → eid ∈ w.flow.keys.members → ¬ w.flow.keys.isCancelled →
      x.ended = true ∨ (w.flow.keys.flowIndex = true ∧ ∀ p, eid ∉ (w.projector p).seen)) :
    (w.setExec eid x).Watched := by
  constructor
  · rintro going ⟨m,hm,live⟩
    rw [setExec_exec] at live
    by_cases he : m = eid
    · subst he
      rw [update_self] at live
      cases before : (w.exec m).ended with
      | false => exact h.listed going ⟨m,hm,before⟩
      | true =>
        obtain still | ⟨index,-⟩ := kept before hm going
        · rw [still] at live
          cases live
        · exact index
    · rw [update_of_ne he] at live
      exact h.listed going ⟨m,hm,live⟩
  · intro p
    refine (h.projector p).mono rfl id (fun _ missing => missing) fun going m hm ended => ?_
    rw [setExec_exec]
    by_cases he : m = eid
    · subst he
      rw [update_self]
      obtain still | ⟨-,unread⟩ := kept ended ((h.projector p).seen_members m hm) going
      · exact still
      · exact absurd hm (unread p)
    · rw [update_of_ne he]
      exact ended

theorem setFlow {now : ServerTime} {call : FlowCall} {k : Flow} (effect : KeysEffect server now w.flow.keys call k.keys)
    (adding : ∀ a, call = .addExecutionToFlow a → a.executionId ∉ w.flow.keys.members →
      ∀ p, (w.projector p).hasCounted = false)
    (creating : ∀ a, call = .createFlow a → ∀ p, w.projector p ≠ .missing) :
    ({ w with flow := k } : ProjectorWorld).Watched := by
  have cancelled : w.flow.keys.isCancelled → k.keys.isCancelled := fun hc => (hc.effect effect).1
  have absent : ∀ p, w.projector p = .missing → w.flow.keys.hasCore = false → k.keys.hasCore = false :=
    fun p missing hasNone => effect.hasCore_eq_false hasNone fun a hc => creating a hc p missing
  obtain ⟨same,index⟩ | ⟨a,hc,new,added,index⟩ := effect.membership
  · constructor
    · rintro going ⟨m,hm,live⟩
      rw [same] at hm
      exact index (h.listed (mt cancelled going) ⟨m,hm,live⟩)
    · exact fun p => (h.projector p).mono same cancelled (absent p) fun _ _ _ ended => ended
  · refine ⟨fun _ _ => index,fun p => ?_⟩
    have uncounted := adding a hc new p
    have before := h.projector p
    cases hs : w.projector p with
    | missing =>
      rw [hs] at before
      exact absent p hs before
    | idle | existence | counting => trivial
    | _ =>
      rw [hs] at uncounted
      cases uncounted

theorem flowCall (i : FlowInput) (timely : (ProjectorStep.flow i).Timely w) : (w.flowCall server i).Watched := by
  obtain ⟨now,call⟩ := i
  cases call with
  | addExecutionToFlow a =>
    have stamped : (w.setExec a.executionId
        ((w.exec a.executionId).next ⟨now.ms,.addToFlow (w.joinArgs a)⟩)).Watched :=
      h.setExec fun ended _ _ => .inl (Execution.ended_next ended rfl)
    refine stamped.setFlow (keysNext_effect ⟨now,.addExecutionToFlow (w.memberArgs a)⟩ w.flow.keys) ?_
      fun _ hb => by cases hb
    rintro b hb new
    cases hb
    exact timely new
  | createFlow a =>
    exact h.setFlow (keysNext_effect ⟨now,.createFlow a⟩ w.flow.keys) (fun _ hb => by cases hb) fun _ _ => timely
  | _ => exact h.setFlow (keysNext_effect _ w.flow.keys) (fun _ hb => by cases hb) fun _ hb => by cases hb

theorem prune
    (gone : ¬ w.flow.keys.isCancelled → ∀ m ∈ w.flow.keys.members, (w.exec m).ended = true) : (w.prune p).Watched := by
  have idle : (w.setProjector p .idle).Watched := h.setProjector p trivial
  constructor
  · rintro going ⟨m,hm,live⟩
    rw [show ((w.prune p).exec m).ended = true from gone going m hm] at live
    cases live
  · exact fun p' => (idle.projector p').mono rfl id (fun _ missing => missing) fun _ _ _ ended => ended

theorem sample (memberEids : List ExecutionId) : (w.sample p memberEids).Watched := by
  have before := h.projector p
  unfold ProjectorWorld.sample
  generalize w.projector p = stage at before ⊢
  cases stage with
  | sampling =>
    dsimp only
    split
    · rename_i valid
      refine h.setProjector p ?_
      split
      · trivial
      · refine proceed_watched ⟨before,valid.1,valid.2.1,fun _ r hr => ?_⟩
        cases hr
    · exact h
  | _ => exact h

theorem command : (w.command p).Watched := by
  have before := h.projector p
  unfold ProjectorWorld.command
  generalize w.projector p = stage at before ⊢
  cases stage with
  | idle | sampling => exact h
  | existence =>
    refine h.setProjector p ?_
    split
    · trivial
    · rename_i missing
      exact Bool.eq_false_of_not_eq_true missing
  | missing =>
    refine h.prune p fun _ m hm => ?_
    rw [w.flow.members_of_absent before] at hm
    cases hm
  | counting =>
    refine h.setProjector p ?_
    split
    · trivial
    · rfl
  | reading q eid left =>
    have whole : (q.read eid (w.exec eid)).seen ++ left = q.seen ++ eid :: left := by
      rw [seen_read,append_assoc]
      rfl
    refine h.setProjector p (proceed_watched ?_)
    rw [whole]
    refine ⟨before.counted,before.nodup,before.members,fun going r hr terminal => ?_⟩
    obtain old | new := mem_append.mp hr
    · exact before.ended going r old terminal
    · rw [mem_singleton.mp new] at terminal ⊢
      obtain ⟨c,hc,ended⟩ := MemberRead.terminal terminal
      exact Execution.ended_of_terminal hc ended
  | writing q =>
    have moved : (w.setProjector p (if q.prunes then .pruning q else .idle)).Watched := by
      refine h.setProjector p ?_
      split
      · rename_i prunes
        exact ⟨before,prunes⟩
      · trivial
    exact ⟨moved.listed,moved.projector⟩
  | pruning => exact h.prune p fun going => before.1.ended_of_prunes before.2 going

end ProjectorWorld.Watched

theorem watched_next (w : ProjectorWorld) (s : ProjectorStep) (h : w.Watched) (timely : s.Timely w) :
    (projectorNext server s w).Watched := by
  cases s with
  | call eid i =>
    refine h.setExec fun ended member going => ?_
    cases revived : ((w.exec eid).next i).ended with
    | true => exact .inl rfl
    | false => exact .inr (timely ended revived member going)
  | purge => exact h.setExec fun _ _ _ => .inl (Execution.ended_purge _)
  | flow i => exact h.flowCall i timely
  | project p | fail p => exact h.setProjector p trivial
  | command p => exact h.command p
  | sample p memberEids => exact h.sample p memberEids

end

namespace Client

def memberNo (n : Nat) : ExecutionId :=
  ⟨String.ofList ('m' :: List.replicate n 'm'),fun h => by
    have lists := congrArg String.toList h
    rw [String.toList_ofList] at lists
    cases lists⟩

def allButOne (eid : ExecutionId) : ShownExecution :=
  if eid = memberNo 0 then .of [create 10]
  else .of [create 10,grant 11,claim 12 "L1" "a1",complete 13 ⟨"L1","1","a1"⟩]

def joined (members : List ExecutionId) : List ProjectorStep :=
  .flow (tick 1 (.createFlow ⟨"f","dag","ns"⟩)) ::
    members.map fun executionId => .flow (tick 2 (.addExecutionToFlow { flowId := "f", executionId }))

def sampled (members : List ExecutionId) : List ProjectorStep :=
  [.project 0 30,.command 0,.command 0,.sample 0 members] ++ members.map fun _ => .command 0

def projected (steps : List ProjectorStep) : ProjectorWorld :=
  runFrom (projectorNext .strict) { exec := allButOne } steps

/-- A flow is open, has the member, which has not ended, and is not in the index. -/
def lost (w : ProjectorWorld) (eid : ExecutionId) : Bool :=
  decide (w.flow.keys.publicFlowState = .text "open" ∧ eid ∈ w.flow.keys.members ∧ (w.exec eid).ended = false ∧
    w.flow.keys.flowIndex = false)

end Client

end FlowFabric
