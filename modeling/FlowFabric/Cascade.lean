import FlowFabric.Announcements
import FlowFabric.Executions
import FlowFabric.FlowGraph

/-! The completion cascade. run_inner reads the outcome of an execution, resolves its outgoing edges
with it and goes on with the children that are skipped. Each of its commands is a step of its own
between the calls on the executions. -/
namespace FlowFabric
open Foundation List Function

def maxCascadeDepth : Nat := 50

/-- What was read of an execution. A missing field counts as an empty text. The hash that was read
is kept beside it for reasoning, the cascade does not see it. -/
structure OutcomeRead where
  core : Option ExecCore
  upstreamOutcome : Option TerminalOutcome

def readTerminalOutcome (s : Store) : OutcomeRead := ⟨s.core,s.core.map (·.terminalOutcome)⟩

/-- The outcome is the one of an execution that had ended. -/
def OutcomeRead.Final (r : OutcomeRead) : Prop :=
  ∃ c, r.core = some c ∧ c.lifecyclePhase = .terminal ∧ r.upstreamOutcome = some c.terminalOutcome ∧
    c.terminalOutcome ≠ .none

/-- An execution that run_inner is to be called for. -/
structure Visit where
  eid : ExecutionId
  depth : Nat

/-- The loop over the edges: the outcome they are resolved with, the edge at hand, the ones after it
and the children skipped so far. -/
structure EdgeLoop where
  read : OutcomeRead
  nowMs : Int
  edgeId : String
  edgeIds : List String
  skippedChildren : List ExecutionId

/-- The next command of run_inner. -/
inductive CascadeStage where
  | outcome
  | edges (read : OutcomeRead)
  | target (l : EdgeLoop)
  | lane (l : EdgeLoop) (downstreamEid : ExecutionId)
  | attempt (l : EdgeLoop) (downstreamEid : ExecutionId)
  | invoke (l : EdgeLoop) (downstreamEid : ExecutionId) (attemptIndex : Nat)

structure Cascade where
  flowId : String
  visit : Visit
  later : List Visit
  stage : CascadeStage

namespace Cascade

/-- Call run_inner for the first of the executions that it does not turn away. -/
def enter (flowId : String) : List Visit → Option Cascade
  | [] => none
  | v :: later =>
    if maxCascadeDepth < v.depth ∨ flowId = "" then enter flowId later
    else some ⟨flowId,v,later,.outcome⟩

variable (c : Cascade)

/-- The skipped children of the visit, unless they are too deep. -/
def skippedVisits (skipped : List ExecutionId) : List Visit :=
  if maxCascadeDepth < c.visit.depth + 1 then [] else skipped.map fun eid => ⟨eid,c.visit.depth + 1⟩

/-- The next edge, or after the last one the children that were skipped. -/
def proceed (read : OutcomeRead) (nowMs : Int) (edgeIds : List String) (skipped : List ExecutionId) : Option Cascade :=
  match edgeIds with
  | edgeId :: edgeIds => some { c with stage := .target ⟨read,nowMs,edgeId,edgeIds,skipped⟩ }
  | [] => enter c.flowId (c.skippedVisits skipped ++ c.later)

def nextEdge (l : EdgeLoop) (skipped : List ExecutionId) : Option Cascade := c.proceed l.read l.nowMs l.edgeIds skipped

/-- A command has failed: without outcome or edges the execution is given up, otherwise the edge
is. -/
def failed : Option Cascade :=
  match c.stage with
  | .outcome | .edges _ => enter c.flowId c.later
  | .target l | .lane l _ | .attempt l _ | .invoke l _ _ => c.nextEdge l l.skippedChildren

def awaited : List ExecutionId :=
  match c.stage with
  | .outcome => c.visit.eid :: c.later.map (·.eid)
  | .edges _ => c.later.map (·.eid)
  | .target l | .lane l _ | .attempt l _ | .invoke l _ _ => l.skippedChildren ++ c.later.map (·.eid)

def read : Option OutcomeRead :=
  match c.stage with
  | .outcome => none
  | .edges read => some read
  | .target l | .lane l _ | .attempt l _ | .invoke l _ _ => some l.read

end Cascade

/-- A call of ff_resolve_dependency for an edge of the upstream. -/
structure ResolveReport where
  upstreamEid : ExecutionId
  edgeId : String
  read : OutcomeRead

/-- The executions, the flows, the cascades, and the resolve calls they have made. -/
structure CascadeWorld where
  exec : ExecutionId → Execution
  flow : String → FlowStore
  cascade : Nat → Option Cascade := fun _ => none
  reported : List ResolveReport := []

open CascadeWorld

/-- What becomes of a command: it is carried out and answered, carried out without an answer, or
not carried out. -/
inductive Transport where
  | answered | unanswered | refused
  deriving DecidableEq

/-- The reply has the marker of a skipped child in its fourth place. -/
def Reply.isChildSkipped : Reply → Bool
  | .ok fields | .alreadySatisfied fields | .duplicate fields => decide (fields[1]? = some "child_skipped")
  | .err _ details => decide (details[1]? = some "child_skipped")
  | .raised => false

namespace CascadeWorld
variable (w : CascadeWorld)

@[simps] def setExec (eid : ExecutionId) (x : Execution) : CascadeWorld :=
  { w with exec := Function.update w.exec eid x }

@[simps] def setCascade (p : Nat) (c : Option Cascade) : CascadeWorld :=
  { w with cascade := Function.update w.cascade p c }

/-- The upstreams of the child that exist and are not terminal. -/
def runningUpstreams (flowId : String) (downstreamEid : ExecutionId) : List String :=
  (((w.flow flowId).incoming downstreamEid).filterMap fun edgeId =>
    ((w.flow flowId).edge edgeId).map (·.upstreamExecutionId)).filterMap fun eid =>
      if (w.exec eid).ended then none else some eid.text

/-- The execution and the flow of a completion that has been published. -/
def delivered (publisher : ExecutionId) (k : Nat) : Option (ExecutionId × String) :=
  (w.exec publisher).store.published[k]?.bind fun payload =>
    (ExecutionId.parse payload.executionId).map fun eid => (eid,payload.flowId)

def answered (c : Cascade) (nowMs : Int) : Option Cascade :=
  match c.stage with
  | .outcome => some { c with stage := .edges (readTerminalOutcome (w.exec c.visit.eid).store) }
  | .edges read => c.proceed read nowMs ((w.flow c.flowId).outgoing c.visit.eid) []
  | .target l =>
    match (w.flow c.flowId).edge l.edgeId with
    | some edge => some { c with stage := .lane l edge.downstreamExecutionId }
    | none => c.nextEdge l l.skippedChildren
  | .lane l downstreamEid => some { c with stage := .attempt l downstreamEid }
  | .attempt l downstreamEid =>
    let attemptIndex := ((w.exec downstreamEid).store.core.bind (·.currentAttemptIndex)).getD 0
    some { c with stage := .invoke l downstreamEid attemptIndex }
  | .invoke _ _ _ => some c

/-- The script takes an empty outcome as it takes the outcome none. -/
def resolveArgs (flowId : String) (l : EdgeLoop) (downstreamEid : ExecutionId) (attemptIndex : Nat)
    (upstreamResult : Bool) : ResolveArgs where
  edgeId := l.edgeId
  upstreamOutcome := l.read.upstreamOutcome.getD .none
  nowMs := l.nowMs
  upstreamResult := upstreamResult
  runningSiblings := w.runningUpstreams flowId downstreamEid
  keys := { attemptIndex }

/-- The call of ff_resolve_dependency, of which the world keeps a note. -/
def invokeResolveDependency (p : Nat) (c : Cascade) (l : EdgeLoop) (downstreamEid : ExecutionId)
    (i : Call) (t : Transport) : CascadeWorld :=
  let noted : CascadeWorld := { w with reported := w.reported ++ [⟨c.visit.eid,l.edgeId,l.read⟩] }
  match t with
  | .answered =>
    let skipped := (step i (w.exec downstreamEid).store).1.isChildSkipped
    (noted.setExec downstreamEid ((w.exec downstreamEid).next i)).setCascade p
      (c.nextEdge l (if skipped then l.skippedChildren ++ [downstreamEid] else l.skippedChildren))
  | .unanswered => (noted.setExec downstreamEid ((w.exec downstreamEid).next i)).setCascade p c.failed
  | .refused => noted.setCascade p c.failed

def command (p : Nat) (now : Int) (upstreamResult : Bool) (t : Transport) : CascadeWorld :=
  match w.cascade p with
  | none => w
  | some c =>
    match c.stage with
    | .invoke l downstreamEid attemptIndex =>
      let a := w.resolveArgs c.flowId l downstreamEid attemptIndex upstreamResult
      w.invokeResolveDependency p c l downstreamEid ⟨now,.resolveDependency a⟩ t
    | .outcome | .edges _ | .target _ | .lane _ _ | .attempt _ _ =>
      w.setCascade p (if t = .answered then w.answered c now else c.failed)

end CascadeWorld

inductive CascadeStep where
  | call (eid : ExecutionId) (i : Call)
  | purge (eid : ExecutionId)
  | graph (flowId : String) (op : FlowOp)
  | start (p : Nat) (publisher : ExecutionId) (k : Nat)
  | command (p : Nat) (now : Int) (upstreamResult : Bool) (t : Transport)
  | crash (p : Nat)

def cascadeNext (s : CascadeStep) (w : CascadeWorld) : CascadeWorld :=
  match s with
  | .call eid i => w.setExec eid ((w.exec eid).next i)
  | .purge eid => w.setExec eid (w.exec eid).purge
  | .graph flowId op => { w with flow := Function.update w.flow flowId (flowNext op (w.flow flowId)) }
  | .start p publisher k =>
    match w.delivered publisher k with
    | some (eid,flowId) => w.setCascade p (Cascade.enter flowId [⟨eid,0⟩])
    | none => w
  | .command p now upstreamResult t => w.command p now upstreamResult t
  | .crash p => w.setCascade p none

def Op.isReplay : Op → Bool
  | .replay _ => true
  | _ => false

/-- A cascade starts while the execution is still terminal, and an execution whose outcome a cascade
has still to read is neither replayed nor purged. -/
def CascadeStep.Considerate (w : CascadeWorld) : CascadeStep → Prop
  | .call eid i => i.op.isReplay = true → ∀ p, ∀ c ∈ w.cascade p, eid ∉ c.awaited
  | .purge eid => ∀ p, ∀ c ∈ w.cascade p, eid ∉ c.awaited
  | .start _ publisher k => ∀ d ∈ w.delivered publisher k, (w.exec d.1).store.isFinished
  | .graph _ _ | .command _ _ _ _ | .crash _ => True

section
variable {x : Execution} {i : Call} {exec : ExecutionId → Execution} {c : Cascade} {w : CascadeWorld}
  {eid : ExecutionId} (a : ResolveArgs)

theorem isFinished_iff {s : Store} : s.isFinished = true ↔ ∃ c, s.core = some c ∧ c.lifecyclePhase = .terminal := by
  simp [Store.isFinished,Option.any_eq_true]

private theorem readTerminalOutcome_final (h : x.store.isFinished = true) : (readTerminalOutcome x.store).Final := by
  obtain ⟨c,hc,terminal⟩ := isFinished_iff.mp h
  refine ⟨c,hc,terminal,?_,?_⟩
  · rw [readTerminalOutcome,hc]
    rfl
  · exact (x.sound c hc).mpr terminal

private theorem isFinished_next (h : x.store.isFinished = true) (once : i.op.isReplay = false) :
    (x.next i).store.isFinished = true := by
  obtain ⟨c,hc,terminal⟩ := isFinished_iff.mp h
  obtain ⟨ev,c',hc',cause,lived⟩ := next_lives i hc
  have no : ∀ e, ev ≠ .replay e := by
    rintro e rfl
    obtain ⟨a,op⟩ := cause
    rw [op] at once
    cases once
  have same := lived.absorbing (x.sound c hc) terminal no
  exact isFinished_iff.mpr ⟨c',hc',same.1.trans terminal⟩

/-- A script that reports a skipped child leaves the child terminal. -/
def SkipsTruly (result : Reply × Store) : Prop := result.1.isChildSkipped = true → result.2.isFinished = true

theorem skipsTruly_of_silent {result : Reply × Store} (h : result.1.isChildSkipped = false) : SkipsTruly result := by
  intro skipped
  rw [h] at skipped
  cases skipped

private theorem skipUnfinished_skipsTruly (s : Store) : SkipsTruly (skipUnfinished a s) := by
  unfold skipUnfinished
  cases hc : s.core with
  | none => exact skipsTruly_of_silent rfl
  | some c =>
    by_cases unfinished : c.terminalOutcome = .none
    · simp only [if_pos unfinished]
      intro _
      exact isFinished_iff.mpr ⟨c.skipped a.nowMs,by simp [Store.skipChild],rfl⟩
    · simp only [if_neg unfinished]
      exact skipsTruly_of_silent rfl

theorem dataInjected_silent (text : String) (a : ResolveArgs) (dep : Dependency) (s : Store) :
    (Reply.ok [text,dataInjected a dep s]).isChildSkipped = false := by
  unfold dataInjected
  split <;> rfl

private theorem resolveDependency_skipsTruly (now : Int) (s : Store) :
    SkipsTruly (step ⟨now,.resolveDependency a⟩ s) := by
  change SkipsTruly (commit s (resolveDependency a s))
  unfold resolveDependency
  cases s.deps.dependency a.edgeId with
  | none => exact skipsTruly_of_silent rfl
  | some dep =>
    change SkipsTruly (commit s (if dep.state ≠ .unsatisfied then pure _ else _))
    split
    · exact skipsTruly_of_silent rfl
    · split
      · unfold resolveDependencyQuorum
        dsimp only
        split
        · exact skipsTruly_of_silent rfl
        · split
          · exact skipsTruly_of_silent rfl
          · split
            · exact skipsTruly_of_silent (dataInjected_silent _ _ _ _)
            · exact skipUnfinished_skipsTruly a _
            · exact skipsTruly_of_silent rfl
      · change SkipsTruly (if a.upstreamOutcome = .success then satisfyEdge a dep s else failEdge a s)
        split
        · exact skipsTruly_of_silent (dataInjected_silent _ _ _ _)
        · exact skipUnfinished_skipsTruly a _

/-- Every execution that is awaited has ended, and the outcome read is the one of an execution that
had ended. -/
structure Cascade.Truthful (exec : ExecutionId → Execution) (c : Cascade) : Prop where
  awaited : ∀ eid ∈ c.awaited, (exec eid).store.isFinished = true
  read : ∀ read ∈ c.read, read.Final

theorem enter_truthful (flowId : String) (visits : List Visit)
    (ended : ∀ eid ∈ visits.map (·.eid), (exec eid).store.isFinished = true) :
    ∀ c ∈ Cascade.enter flowId visits, c.Truthful exec := by
  induction visits with
  | nil =>
    intro c hc
    cases hc
  | cons v later ih =>
    intro c hc
    unfold Cascade.enter at hc
    split at hc
    · exact ih (fun eid he => ended eid (mem_cons_of_mem _ he)) c hc
    · cases hc
      refine ⟨ended,?_⟩
      intro read hr
      cases hr

theorem proceed_truthful {read : OutcomeRead} (nowMs : Int) (edgeIds : List String) {skipped : List ExecutionId}
    (final : read.Final) (ended : ∀ eid ∈ skipped ++ c.later.map (·.eid), (exec eid).store.isFinished = true) :
    ∀ c' ∈ c.proceed read nowMs edgeIds skipped, c'.Truthful exec := by
  cases edgeIds with
  | cons =>
    intro c' hc'
    cases hc'
    refine ⟨ended,?_⟩
    intro read' hr
    cases hr
    exact final
  | nil =>
    refine enter_truthful c.flowId _ fun eid he => ended eid ?_
    rw [map_append] at he
    refine (mem_append.mp he).elim (fun visited => ?_) fun later => mem_append_right _ later
    apply mem_append_left
    unfold Cascade.skippedVisits at visited
    split at visited
    · cases visited
    · simpa using visited

theorem failed_truthful (h : c.Truthful exec) : ∀ c' ∈ c.failed, c'.Truthful exec := by
  obtain ⟨flowId,visit,later,stage⟩ := c
  cases stage with
  | outcome => exact enter_truthful flowId later fun eid he => h.awaited eid (mem_cons_of_mem _ he)
  | edges => exact enter_truthful flowId later h.awaited
  | _ => exact proceed_truthful _ _ (h.read _ rfl) h.awaited

private theorem answered_truthful (h : c.Truthful w.exec) (nowMs : Int) :
    ∀ c' ∈ w.answered c nowMs, c'.Truthful w.exec := by
  obtain ⟨flowId,visit,later,stage⟩ := c
  cases stage with
  | outcome =>
    intro c' hc'
    cases hc'
    refine ⟨fun eid he => h.awaited eid (mem_cons_of_mem _ he),?_⟩
    intro read hr
    cases hr
    exact readTerminalOutcome_final (h.awaited visit.eid mem_cons_self)
  | edges read => exact proceed_truthful nowMs _ (h.read read rfl) h.awaited
  | target l =>
    unfold answered
    dsimp only
    split
    · intro c' hc'
      cases hc'
      exact ⟨h.awaited,h.read⟩
    · exact proceed_truthful _ _ (h.read l.read rfl) h.awaited
  | _ =>
    intro c' hc'
    cases hc'
    exact ⟨h.awaited,h.read⟩

/-- All cascades are truthful, and so is what they have reported. -/
structure CascadeWorld.Truthful (w : CascadeWorld) : Prop where
  cascade : ∀ p, ∀ c ∈ w.cascade p, c.Truthful w.exec
  reported : ∀ r ∈ w.reported, r.read.Final

namespace CascadeWorld.Truthful

variable (h : w.Truthful) (p : Nat)
include h

theorem setCascade {o : Option Cascade} (ho : ∀ c ∈ o, c.Truthful w.exec) : (w.setCascade p o).Truthful := by
  refine ⟨(forall_update_iff _ fun _ o => ∀ c ∈ o, Cascade.Truthful w.exec c).mpr ⟨ho,?_⟩,h.reported⟩
  exact fun q _ => h.cascade q

theorem setExec (kept : ∀ p, ∀ c ∈ w.cascade p, eid ∈ c.awaited →
    (w.exec eid).store.isFinished = true → x.store.isFinished = true) : (w.setExec eid x).Truthful := by
  refine ⟨fun p c hc => ⟨fun y hy => ?_,(h.cascade p c hc).read⟩,h.reported⟩
  have ended := (h.cascade p c hc).awaited y hy
  rw [setExec_exec]
  by_cases he : y = eid
  · subst he
    rw [update_self]
    exact kept p c hc hy ended
  · rw [update_of_ne he]
    exact ended

theorem setExec_next (once : i.op.isReplay = false) : (w.setExec eid ((w.exec eid).next i)).Truthful :=
  h.setExec fun _ _ _ _ ended => isFinished_next ended once

theorem invokeResolveDependency {p : Nat} {l : EdgeLoop} {downstreamEid : ExecutionId}
    {a : ResolveArgs} {now : Int} {t : Transport} (hc : c ∈ w.cascade p)
    (awaited : c.awaited = l.skippedChildren ++ c.later.map (·.eid)) (read : c.read = some l.read) :
    (w.invokeResolveDependency p c l downstreamEid ⟨now,.resolveDependency a⟩ t).Truthful := by
  have truthful := h.cascade p c hc
  have final : l.read.Final := truthful.read _ read
  let noted : CascadeWorld := { w with reported := w.reported ++ [⟨c.visit.eid,l.edgeId,l.read⟩] }
  have hn : noted.Truthful := by
    refine ⟨h.cascade,fun r hr => ?_⟩
    obtain old | new := mem_append.mp hr
    · exact h.reported r old
    · rw [mem_singleton.mp new]
      exact final
  have hx : (noted.setExec downstreamEid ((w.exec downstreamEid).next ⟨now,.resolveDependency a⟩)).Truthful :=
    hn.setExec_next rfl
  cases t with
  | refused => exact hn.setCascade p (failed_truthful truthful)
  | unanswered => exact hx.setCascade p (failed_truthful (hx.cascade p c hc))
  | answered =>
    refine hx.setCascade p (proceed_truthful _ _ final fun eid he => ?_)
    have before := (hx.cascade p c hc).awaited
    rw [awaited] at before
    split at he
    · rename_i skipped
      rw [append_assoc] at he
      obtain old | new := mem_append.mp he
      · exact before eid (mem_append_left _ old)
      · obtain child | later := mem_append.mp new
        · -- the child that is added has been skipped by this very call
          rw [mem_singleton.mp child,setExec_exec,update_self]
          exact resolveDependency_skipsTruly a now _ skipped
        · exact before eid (mem_append_right _ later)
    · exact before eid he

theorem command (now : Int) (upstreamResult : Bool) (t : Transport) : (w.command p now upstreamResult t).Truthful := by
  unfold CascadeWorld.command
  cases hc : w.cascade p with
  | none => exact h
  | some c =>
    have truthful := h.cascade p c hc
    have reads : (w.setCascade p (if t = .answered then w.answered c now else c.failed)).Truthful := by
      refine h.setCascade p ?_
      split
      · exact answered_truthful truthful now
      · exact failed_truthful truthful
    obtain ⟨flowId,visit,later,stage⟩ := c
    cases stage with
    | invoke => exact h.invokeResolveDependency hc rfl rfl
    | _ => exact reads

end CascadeWorld.Truthful

private theorem truthful_next (w : CascadeWorld) (s : CascadeStep) (h : w.Truthful) (considerate : s.Considerate w) :
    (cascadeNext s w).Truthful := by
  cases s with
  | call eid i =>
    cases hr : i.op.isReplay with
    | false => exact h.setExec_next hr
    | true => exact h.setExec fun p c hc he _ => absurd he (considerate hr p c hc)
  | purge => exact h.setExec fun p c hc he _ => absurd he (considerate p c hc)
  | graph => exact ⟨h.cascade,h.reported⟩
  | start p publisher k =>
    cases hd : w.delivered publisher k with
    | none =>
      simp only [cascadeNext,hd]
      exact h
    | some d =>
      simp only [cascadeNext,hd]
      refine h.setCascade p (enter_truthful _ _ fun eid he => ?_)
      rw [mem_singleton.mp he]
      exact considerate d hd
  | command p now upstreamResult t => exact h.command p now upstreamResult t
  | crash p =>
    refine h.setCascade p fun c hc => ?_
    cases hc

end

namespace Client

def upstreamId : ExecutionId := ⟨"e",by decide⟩

def childId : ExecutionId := ⟨"d",by decide⟩

def completedMember : Execution :=
  .of [create 10,⟨10,.addToFlow { executionId := "e", flowId := "f" }⟩,grant 11,claim 12 "L1" "a1",
    complete 13 ⟨"L1","1","a1"⟩]

def waitingChild : Execution :=
  .of [⟨10,.create { executionId := "d", priority := .number 5, schedulingZset := .eligible }⟩,
    ⟨10,.addToFlow { executionId := "d", flowId := "f" }⟩,⟨11,.applyDependency { flowId := "f", edgeId := "x" }⟩]

def pair (eid : ExecutionId) : Execution :=
  if eid = upstreamId then completedMember else if eid = childId then waitingChild else .of []

def pairFlow : FlowStore :=
  flowRun [.createFlow "f",.addExecutionToFlow { flowId := "f", executionId := upstreamId },
    .addExecutionToFlow { flowId := "f", executionId := childId },.stageDependencyEdge
      { edgeId := "x", upstreamEid := upstreamId, downstreamEid := childId, expectedGraphRevision := "2" }]

/-- The completion is delivered, then comes something else, and then the commands of the cascade. -/
def cascadeAfter (between : List CascadeStep) : List CascadeStep :=
  .start 0 upstreamId 0 :: between ++ List.replicate 6 (.command 0 30 false .answered)

def cascaded (between : List CascadeStep) : CascadeWorld :=
  runFrom cascadeNext { exec := pair, flow := fun _ => pairFlow } (cascadeAfter between)

end Client

end FlowFabric
