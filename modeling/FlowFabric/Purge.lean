import FlowFabric.Retention

/-! The purge of one execution command by command, with replays of the execution in between. -/
namespace FlowFabric
open Foundation

/-- The keys of an execution that are deleted before its hash and its policy. -/
inductive SubordinateKey where
  | payload | result | tags | leaseCurrent | leaseHistory | claimGrant | attempts
  | attempt (i : Nat) | attemptUsage (i : Nat) | attemptPolicy (i : Nat) | stream (i : Nat) | streamMeta (i : Nat)
  | suspensionCurrent | depsMeta | depsUnresolved | depsAllEdges | dep (edgeId : String)
  | waitpoints | waitpoint (id : String) | waitpointSignals (id : String) | waitpointCondition (id : String)
  | signals | signal (id : String) | signalPayload (id : String)

/-- Keys that no script reads are not stored. -/
def Store.del (s : Store) : SubordinateKey → Store
  | .leaseCurrent => s.delLease
  | .claimGrant => s.delGrant
  | .attempt i => { s with attempt := fun j => if j = i then none else s.attempt j }
  | .streamMeta i => { s with stream := fun j => if j = i then none else s.stream j }
  | .suspensionCurrent => { s with wait := s.wait.delSuspension }
  | .depsMeta => { s with deps := { s.deps with unsatisfiedRequiredCount := 0, impossibleRequiredCount := 0 } }
  | .depsUnresolved => { s with deps := { s.deps with unresolved := ∅ } }
  | .dep e => { s with deps := { s.deps with dependency := fun j => if j = e then none else s.deps.dependency j } }
  | .waitpoint id => { s with wait := { s.wait with waitpoint := fun j => if j = id then none else s.wait.waitpoint j } }
  | .waitpointSignals id =>
    { s with wait := { s.wait with signals := fun j => if j = id then [] else s.wait.signals j } }
  | .waitpointCondition id =>
    { s with wait := { s.wait with condition := fun j => if j = id then none else s.wait.condition j } }
  | .signals => { s with wait := { s.wait with execSignals := ∅ } }
  | _ => s

/-- What the trimmer looks at: the hash, the policy and the indexes. -/
def Store.record (s : Store) : Option ExecCore × JsonText × (Index → Option Int) := (s.core,s.policy,s.zset)

variable (s : Store)

private theorem record_delAll (ks : List SubordinateKey) : (ks.foldl Store.del s).record = s.record := by
  induction ks generalizing s with
  | nil => rfl
  | cons k ks ih => exact (ih (s.del k)).trans (by cases k <;> rfl)

def attemptKeys (totalAttempts : Nat) : List SubordinateKey :=
  [.payload,.result,.tags,.leaseCurrent,.leaseHistory,.claimGrant,.attempts] ++
    (List.range totalAttempts).flatMap (fun i =>
      [.attempt i,.attemptUsage i,.attemptPolicy i,.stream i,.streamMeta i]) ++
    [.suspensionCurrent]

def edgeKeys (edgeIds : List String) : List SubordinateKey :=
  [.depsMeta,.depsUnresolved,.depsAllEdges] ++ edgeIds.map .dep

def waitpointKeys (ids : List String) : List SubordinateKey :=
  .waitpoints :: ids.flatMap fun id => [.waitpoint id,.waitpointSignals id,.waitpointCondition id]

def signalKeys (ids : List String) : List SubordinateKey :=
  .signals :: ids.flatMap fun id => [.signal id,.signalPayload id]

/-- The command a purge issues next, with what it has read so far. -/
inductive PurgeStage where
  | idle
  | unlistOnly
  | readPolicy (a : RetentionPass) (completedAt totalAttempts : Nat)
  | readEdges (keys : List SubordinateKey)
  | readWaitpoints (keys : List SubordinateKey)
  | readSignals (keys : List SubordinateKey)
  | delete (chunks : List (List SubordinateKey))
  | unlist
  | unregister

/-- HMGET of the completion time and the number of attempts. -/
def PurgeStage.start (a : RetentionPass) (s : Store) : PurgeStage :=
  if s.completedAtMs = 0 then .unlistOnly
  else
    let total := (s.core.map ExecCore.totalAttemptCount).getD 0
    .readPolicy a s.completedAtMs (if total < 2 ^ 32 then total else 0)

/-- One command. The replies of the reads of sets are whatever the sets hold. The hash and the policy
go once all chunks are deleted. -/
def PurgeStage.command (members : List String) (s : Store) : PurgeStage → PurgeStage × Store
  | .idle => (.idle,s)
  | .unlistOnly => (.idle,s.zrem .terminal)
  | .readPolicy a completedAt totalAttempts =>
    if a.nowMs < (completedAt + s.retentionMs a.retentionMs) % 2 ^ 64 then (.idle,s)
    else (.readEdges (attemptKeys totalAttempts),s)
  | .readEdges keys => (.readWaitpoints (keys ++ edgeKeys members),s)
  | .readWaitpoints keys => (.readSignals (keys ++ waitpointKeys members),s)
  | .readSignals keys => (.delete ((keys ++ signalKeys members).toChunks 500),s)
  | .delete (chunk :: chunks) => (.delete chunks,chunk.foldl Store.del s)
  | .delete [] => (.unlist,{ s with core := none, policy := .empty })
  | .unlist => (.unregister,s.zrem .terminal)
  | .unregister => (.idle,s)

/-- A failed command. Without a reply to the policy the default retention decides; any other failure
ends the purge. -/
def PurgeStage.failed : PurgeStage → PurgeStage
  | .readPolicy a completedAt totalAttempts =>
    if a.nowMs < (completedAt + a.retentionMs) % 2 ^ 64 then .idle else .readEdges (attemptKeys totalAttempts)
  | _ => .idle

/-- The purge has read a completion time and has not yet deleted the hash. -/
def PurgeStage.Decided : PurgeStage → Prop
  | .readPolicy .. | .readEdges _ | .readWaitpoints _ | .readSignals _ | .delete _ => True
  | .idle | .unlistOnly | .unlist | .unregister => False

/-- There is a completion time only at the end. -/
def Life.Dated (l : Life) : Prop := l.finishedAt.isSome → l.phase = .terminal

namespace Life
variable {ev : Event} {l l' : Life}

theorem Dated.undated (hd : l.Dated) (hp : l.phase ≠ .terminal) : l.finishedAt.isSome = false := by
  by_contra h
  exact hp (hd (Bool.eq_true_of_not_eq_false h))

theorem Dated.of_undated (h : l.finishedAt.isSome = false) : l.Dated := by
  intro some
  rw [h] at some
  cases some

theorem Step.dated (h : Step ev l l') (hd : l.Dated) : l'.Dated := by
  cases h with
  | touch => exact hd
  | finish => exact fun _ => rfl
  | replay => exact .of_undated rfl
  | lease _ h => exact .of_undated (hd.undated (by rcases h with h | h <;> simp [h]))
  | lapse _ o h => exact .of_undated (hd.undated (by simp [h]))
  | _ =>
    -- The other moves start from one phase, which is not the last.
    rename_i h
    exact .of_undated (hd.undated (by simp [h]))

end Life

theorem dated_next (i : Call) (h : s.lives Life.Dated) : (next i s).lives Life.Dated :=
  lives_next (fun _ => .of_undated rfl) s i fun _ c _ hc _ hstep => hstep.dated (h c hc)

theorem run_dated (calls : List Call) : (run calls).lives Life.Dated :=
  runFrom_invariant dated_next (by simp [Store.lives]) calls

def Life.Marked (l : Life) : Prop := l.phase = .terminal → l.label.isTerminal = true ∧ l.finishedAt.isSome

theorem Life.Step.marked {ev : Event} {l l' : Life} (h : Step ev l l') (hm : l.Marked) : l'.Marked := by
  intro ended
  cases h with
  | touch => exact hm ended
  | lapse _ _ active => cases active.symm.trans ended
  | finish _ o _ _ ho =>
    cases o with
    | none => exact (ho rfl).elim
    | _ => exact ⟨rfl,rfl⟩
  | _ => cases ended

private theorem marked_next (s : Store) (i : Call) (h : s.lives Life.Marked) : (next i s).lives Life.Marked :=
  lives_next (fun _ h => by cases h) s i fun _ c _ hc _ hstep => hstep.marked (h c hc)

/-- What is over, and nothing else, has the public state of an end and the time of it. -/
theorem ends_are_marked (calls : List Call) :
    (run calls).lives fun l => (l.label.isTerminal = true ↔ l.phase = .terminal) ∧
      (l.finishedAt.isSome ↔ l.phase = .terminal) := by
  intro c hc
  have marked := runFrom_invariant marked_next (fun c hc => by cases hc) calls c hc
  exact ⟨⟨run_honest calls c hc,fun h => (marked h).1⟩,run_dated calls c hc,fun h => (marked h).2⟩

/-- One execution, the purge of it, and whether it was replayed since the purge read its hash. -/
structure PurgeWorld where
  store : Store
  stage : PurgeStage
  revived : Bool

/-- What happens next: a pass comes to the entry, the purge gets a reply or an error, or somebody
replays the execution. -/
inductive PurgeStep where
  | visit (a : RetentionPass)
  | command (members : List String)
  | error
  | replay (now : Int) (a : ReplayArgs)

namespace PurgeWorld

/-- An execution that has received the calls, before any purge. -/
def of (calls : List Call) : PurgeWorld := ⟨run calls,.idle,false⟩

def next : PurgeStep → PurgeWorld → PurgeWorld
  | .visit a, w =>
    match w.stage with
    | .idle => ⟨w.store,.start a w.store,false⟩
    | _ => w
  | .command members, w => ⟨(w.stage.command members w.store).2,(w.stage.command members w.store).1,w.revived⟩
  | .error, w => ⟨w.store,w.stage.failed,w.revived⟩
  | .replay now a, w =>
    ⟨FlowFabric.next ⟨now,.replay a⟩ w.store,w.stage,w.revived || Call.replays ⟨now,.replay a⟩ w.store⟩

def deletes (w : PurgeWorld) : PurgeStep → Bool
  | .command _ =>
    match w.stage with
    | .delete [] => true
    | _ => false
  | _ => false

def DeletesTerminal (w : PurgeWorld) (i : PurgeStep) : Prop :=
  w.deletes i → ∀ c, w.store.core = some c → c.lifecyclePhase = .terminal

/-- No replay has come between the read of the hash and its deletion. -/
def Undisturbed (w : PurgeWorld) (i : PurgeStep) : Prop := w.deletes i → w.revived = false

instance (w : PurgeWorld) (i : PurgeStep) : Decidable (w.Undisturbed i) :=
  inferInstanceAs (Decidable (w.deletes i = true → w.revived = false))

/-- A purge on its way to the deletion has a terminal execution before it, up to the first replay. -/
structure Faithful (w : PurgeWorld) : Prop where
  dated : w.store.lives Life.Dated
  ended : w.stage.Decided → w.revived = false → ∀ c, w.store.core = some c → c.lifecyclePhase = .terminal
  running : w.stage.Decided → w.revived = true → ∃ c, w.store.core = some c ∧ c.lifecyclePhase ≠ .terminal

variable {w : PurgeWorld} {i : PurgeStep} (calls : List Call)

private theorem faithful_of : (of calls).Faithful := ⟨run_dated calls,fun h => h.elim,fun h => h.elim⟩

private theorem terminal_of_completedAt {s : Store} (dated : s.lives Life.Dated) (read : s.completedAtMs ≠ 0) :
    ∀ c, s.core = some c → c.lifecyclePhase = .terminal := by
  intro c hc
  refine dated c hc ?_
  cases ht : c.completedAt with
  | none =>
    rw [Store.completedAtMs,hc,Option.bind_some,ht] at read
    exact absurd rfl read
  | some =>
    change c.completedAt.isSome
    rw [ht]
    rfl

private theorem command_core (stage : PurgeStage) (s : Store) (members : List String) :
    (stage.command members s).2.core = s.core ∧ ((stage.command members s).1.Decided → stage.Decided) ∨
      (stage.command members s).2.core = none ∧ ¬ (stage.command members s).1.Decided := by
  cases stage with
  | readPolicy =>
    left
    simp only [PurgeStage.command]
    split <;> exact ⟨rfl,fun _ => trivial⟩
  | delete chunks =>
    cases chunks with
    | nil => exact .inr ⟨rfl,id⟩
    | cons chunk => exact .inl ⟨congrArg Prod.fst (record_delAll s chunk),id⟩
  | _ => exact .inl ⟨rfl,by simp [PurgeStage.command,PurgeStage.Decided]⟩

theorem failed_decided (stage : PurgeStage) (h : stage.failed.Decided) : stage.Decided := by
  cases stage with
  | readPolicy => trivial
  | _ => exact h.elim

theorem faithful_next (w : PurgeWorld) (i : PurgeStep) (h : w.Faithful) : (next i w).Faithful := by
  cases i with
  | visit a =>
    simp only [next]
    split
    · refine ⟨h.dated,fun decided _ => ?_,fun _ r => by cases r⟩
      -- Only a time that was read takes the purge further than the index.
      refine terminal_of_completedAt h.dated fun unread => ?_
      rw [PurgeStage.start,if_pos unread] at decided
      exact decided
    · exact h
  | command members =>
    rcases command_core w.stage w.store members with ⟨same,decided⟩ | ⟨gone,past⟩
    · refine ⟨fun c hc => h.dated c (same ▸ hc),fun d r c hc => h.ended (decided d) r c (same ▸ hc),?_⟩
      intro d r
      obtain ⟨c,hc,running⟩ := h.running (decided d) r
      exact ⟨c,same.trans hc,running⟩
    · refine ⟨fun c hc => ?_,fun d => (past d).elim,fun d => (past d).elim⟩
      cases gone.symm.trans hc
  | error => exact ⟨h.dated,fun d => h.ended (failed_decided _ d),fun d => h.running (failed_decided _ d)⟩
  | replay now a =>
    cases hr : Call.replays ⟨now,.replay a⟩ w.store with
    | false =>
      have same := next_of_refused_replay rfl hr
      simpa only [next,same,hr,Bool.or_false] using h
    | true =>
      obtain ⟨c,hc,running⟩ : ∃ c, (FlowFabric.next ⟨now,.replay a⟩ w.store).core = some c ∧
          c.lifecyclePhase = .runnable := by
        obtain ⟨c,-,-,⟨-,-,ht⟩ | ⟨-,ht⟩⟩ := replayExecution_ok (outcome_of_succeeds hr)
        · exact ⟨c.replayed true,by rw [ht]; rfl,rfl⟩
        · exact ⟨c.replayed false,by rw [ht]; rfl,rfl⟩
      refine ⟨dated_next _ _ h.dated,fun _ r => ?_,fun _ _ => ⟨c,hc,by simp [running]⟩⟩
      simp [next,hr] at r

theorem decided_of_deletes (h : w.deletes i) : w.stage.Decided := by
  unfold deletes at h
  split at h
  · split at h
    · rename_i hs
      rw [hs]
      trivial
    · cases h
  · cases h

theorem deletesTerminal_iff (h : w.Faithful) : w.DeletesTerminal i ↔ w.Undisturbed i := by
  refine forall_congr' fun deleting => ?_
  have decided := decided_of_deletes deleting
  cases hr : w.revived with
  | false => exact iff_of_true (h.ended decided hr) rfl
  | true =>
    obtain ⟨c,hc,running⟩ := h.running decided hr
    exact iff_of_false (fun ended => running (ended c hc)) Bool.noConfusion

theorem along_deletesTerminal_iff (steps : List PurgeStep) :
    Along next DeletesTerminal (of calls) steps ↔ Along next Undisturbed (of calls) steps :=
  Along.iff_of (J := Faithful) (Q := fun _ _ => True) (fun _ _ h _ => deletesTerminal_iff h)
    (fun w i h _ _ => faithful_next w i h) (faithful_of calls) (.of_forall (fun _ _ => trivial) _)

end PurgeWorld

/-- The passes purge what is due exactly when they reach it, and a purge deletes terminal executions
only exactly when no replay comes between its read of the hash and the deletion. -/
theorem retention_purges_due_iff (a : RetentionPass) (p : LanePartition) (calls : List Call)
    (steps : List PurgeStep) : ((∀ e, p.Purged (p.trimmedOut a) e ↔ e ∈ p.index .terminal ∧ (p.store e).Due a) ↔
        ∀ e ∈ p.index .terminal, p.RetainedExactly a e) ∧
      (Along PurgeWorld.next PurgeWorld.DeletesTerminal (.of calls) steps ↔
        Along PurgeWorld.next PurgeWorld.Undisturbed (.of calls) steps) :=
  ⟨p.purges_exactly_iff a,PurgeWorld.along_deletesTerminal_iff calls steps⟩

namespace Client

/-- An execution that was cancelled before it ran, with a retention of its own or without. -/
def cancelledJob (executionId : String) (policyJson : JsonText) (completedAt : Int) : List Call :=
  [⟨0,.create { executionId, priority := .number 0, policyJson, schedulingZset := .eligible }⟩,
    ⟨completedAt,.cancel { executionId, source := "operator_override" }⟩]

def retainedFor (retentionTtlMs : Int) : JsonText :=
  .doc (.obj [("stream_policy",.obj [("retention_ttl_ms",.num retentionTtlMs)])])

def retentionLane : LanePartition :=
  ⟨AList.insert "a" (run (cancelledJob "a" (retainedFor 1000) 1))
    (AList.insert "b" (run (cancelledJob "b" .empty 2)) (AList.insert "c" (run (cancelledJob "c" (retainedFor 5) 80)) ∅))⟩

def retentionPass : RetentionPass := { retentionMs := 50, now := 100, batchSize := 1 }

/-- The purge of an execution that is replayed before its hash is deleted. -/
def replayedInBetween : List PurgeStep :=
  [.visit retentionPass,.command [],.command [],.command [],.command [],.command [],
    .replay 101 { executionId := "b", edgeIds := [] },.command []]

/-- The longer retention of the first entry hides the second, the shorter one of the third does not
select it, and a replayed execution loses its hash. -/
theorem due_stay_and_replayed_goes :
    (∀ e ∈ ["b","c"], e ∈ retentionLane.index .terminal ∧ (retentionLane.store e).Due retentionPass ∧
        ¬ retentionLane.Purged (retentionLane.trimmedOut retentionPass) e) ∧
      ¬ Along PurgeWorld.next PurgeWorld.DeletesTerminal (.of (cancelledJob "b" .empty 2)) replayedInBetween := by
  constructor
  · intro e he
    have stays : (retentionLane.trimmedOut retentionPass).store e |>.core.isSome := by
      revert e
      decide +kernel
    refine ⟨?_,?_,fun purged => ?_⟩
    · revert e
      decide +kernel
    · rcases List.mem_pair.mp he with rfl | rfl
      · exact ⟨_,_,rfl,rfl,by decide +kernel⟩
      · exact ⟨_,_,rfl,rfl,by decide +kernel⟩
    · rw [purged.2] at stays
      cases stays
  · rw [PurgeWorld.along_deletesTerminal_iff]
    decide +kernel

end Client

end FlowFabric
