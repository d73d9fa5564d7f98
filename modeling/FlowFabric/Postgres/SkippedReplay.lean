import FlowFabric.Postgres.Literals
import FlowFabric.Postgres.Verdict

/-! What a replay makes of a member that dispatch has skipped. -/
namespace FlowFabric.Postgres
open Foundation

/-- Dispatch has found the edge group of the execution impossible. -/
def CoreRow.wasSkipped (c : CoreRow) : Prop := c.lifecyclePhase = .terminal ∧ c.publicState = .skipped

/-- The last outcome of an upstream that was dispatched in the flow. -/
def Db.lastDispatched (db : Db) (f upstream : Uuid) : Option OutcomeKind :=
  ((db.events.filter fun event => event.executionId = upstream ∧ event.completion.flowId = some f ∧
    event.dispatchedAtMs.isSome = true).getLast?).map fun event => event.completion.outcome.kind

/-- The member waits for its dependencies again: the successes of its group are the upstreams that ended so the
last time, and it is open for the others. -/
structure Regated (f e : Uuid) (db : Db) : Prop where
  blocked : ∃ r, db.rowsOf e = some r ∧ r.core.lifecyclePhase = .runnable ∧
    r.core.eligibilityState = .blockedByDependencies
  success : ∀ g, db.groups.lookup (f,e) = some g →
    g.success = db.edgesTo f e fun edge => db.lastDispatched f edge.upstream = some .success
  running : ∀ g, db.groups.lookup (f,e) = some g →
    g.running = db.edgesTo f e fun edge => db.lastDispatched f edge.upstream ≠ some .success

private theorem replay_of_unskipped {db : Db} {e : Uuid} {r : Rows} (now : Int) (hr : db.rowsOf e = some r)
    (hu : r.Unskipped) (hs : r.core.wasSkipped) :
    (∃ r', (after ⟨.replayExecution e,now⟩ db).rowsOf e = some r' ∧ r'.core.eligibilityState = .eligibleNow) ∧
      (after ⟨.replayExecution e,now⟩ db).groups = db.groups := by
  have replays : replayExecution now r =
      .ok { reply := .publicly (if r.skippedMember then .waitingChildren else .waiting), rows := r.replayed now } := by
    rw [replayExecution,ensure_of hs.1]
    rfl
  have stored : after ⟨.replayExecution e,now⟩ db = db.commitOn e now
      { reply := .publicly (if r.skippedMember then .waitingChildren else .waiting), rows := r.replayed now } := by
    change (replayOn e now db).db db = _
    rw [replayOn,hr]
    change Method.db db (replayExecution now r >>= _) = _
    rw [replays]
    exact if_neg hu.not_skippedMember
  rw [stored]
  refine ⟨⟨r.replayed now,?_,?_⟩,rfl⟩
  · rw [Db.rowsOf_commitOn,if_pos rfl]
  · exact if_neg hu.not_skippedMember

/-- No replay of a skipped member puts it back behind its dependencies: no statement writes the outcome that the
branch for skipped members is chosen by. -/
theorem skipped_replay_not_regated {db : Db} (h : ∀ e r, db.rowsOf e = some r → r.Unskipped) (qs : List Arrival)
    (f e : Uuid) {r : Rows} (hr : (runFrom after db qs).rowsOf e = some r) (hs : r.core.wasSkipped) (now : Int) :
    ¬ Regated f e (after ⟨.replayExecution e,now⟩ (runFrom after db qs)) := by
  have unskipped := rows_invariant (fun _ _ _ _ hl => by cases hl) next_unskipped h qs e r hr
  obtain ⟨⟨r',hr',eligible⟩,-⟩ := replay_of_unskipped now hr unskipped hs
  rintro ⟨⟨r'',hr'',-,blocked⟩,-,-⟩
  cases hr'.symm.trans hr''
  cases eligible.symm.trans blocked

namespace Client

/-- The second execution waits for the first one, which fails. -/
def failing : List Arrival :=
  [⟨.createFlow 9,0⟩,⟨.addExecutionToFlow 9 1,1⟩,⟨.addExecutionToFlow 9 2,2⟩,
    ⟨.stageDependencyEdge ⟨9,21,1,2,2⟩,3⟩,⟨.applyDependencyToChild ⟨9,21,2⟩,4⟩,takes 1 alice 5,
    ⟨.call 1 (.worker ⟨0,1,10⟩ (.fail .permanent)),6⟩,⟨.dispatchCompletion 0 none,7⟩]

def gatedPair : Db := { partition with execs := partition.execs.insert 2 blocked }

theorem gatedPair_unskipped : ∀ e r, gatedPair.rowsOf e = some r → r.Unskipped := by
  refine forall_rowsOf ?_
  intro m hm
  change m ∈ [_,_] at hm
  simp only [List.mem_cons,List.not_mem_nil,or_false] at hm
  rcases hm with rfl | rfl
  · intro _ _ hl
    cases hl
  · intro _ _ hl
    cases hl

def skippedRow : Rows := ((runFrom after gatedPair failing).rowsOf 2).getD fresh

theorem skipped_member_not_regated : ¬ Regated 9 2 (after ⟨.replayExecution 2,8⟩ (runFrom after gatedPair failing)) := by
  have skipped : (runFrom after gatedPair failing).rowsOf 2 = some skippedRow := rfl
  exact skipped_replay_not_regated gatedPair_unskipped failing 9 2 skipped ⟨rfl,rfl⟩ 8

/-- The member can be claimed although its upstream has not succeeded, and its group has no upstream left. -/
theorem skipped_member_eligible : skippedRow.core.publicState = .skipped ∧
      let db := after ⟨.replayExecution 2,8⟩ (runFrom after gatedPair failing)
      (db.rowsOf 2).map (fun r => (r.core.lifecyclePhase,r.core.eligibilityState)) = some (.runnable,.eligibleNow) ∧
        (db.groups.lookup (9,2)).map (fun g => (g.success,g.running)) = some (0,0) ∧
        (db.edgesTo 9 2 fun edge => db.lastDispatched 9 edge.upstream ≠ some .success) = 1 := by
  decide +kernel

end Client
end FlowFabric.Postgres
