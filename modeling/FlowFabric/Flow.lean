import FlowFabric.Worker

/-! Flow membership and inbound edges: ff_add_execution_to_flow, ff_set_edge_group_policy,
ff_apply_dependency_to_child, ff_resolve_dependency, ff_promote_blocked_to_eligible and
ff_replay_execution. What the scripts read of the flow and of its other members is an argument. -/
namespace FlowFabric
open Foundation DependencyKeys

structure JoinArgs where
  (flowId executionId : String)
  flowExists : Bool := true
  (flowTerminal isMember : Bool := false)
  nodeCount : Nat := 0

/-- Only the back pointer to the flow is stored with the execution. -/
def addExecutionToFlow (a : JoinArgs) (s : Store) : Outcome := do
  ensure (a.flowExists = true) (.fail .flowNotFound)
  ensure (a.flowTerminal = false) (.fail .flowAlreadyTerminal)
  let c ← demand s.core (.fail .executionNotFound)
  ensure (c.flowId = "" ∨ c.flowId = a.flowId) (.err .alreadyMemberOfDifferentFlow [c.flowId])
  let s := s.setCore { c with flowId := a.flowId }
  if a.isMember then return (.alreadySatisfied [a.executionId,toString a.nodeCount],s)
  else return (.ok [a.executionId,toString (a.nodeCount + 1)],s)

structure PolicyArgs where
  flowExists : Bool := true
  policyVariant : PolicyVariant
  onSatisfied : OnSatisfied := .unset
  k : Int := 0

/-- The policy of a group is fixed once an edge has been applied. -/
def setEdgeGroupPolicy (a : PolicyArgs) (s : Store) : Outcome := do
  ensure (a.flowExists = true) (.fail .flowNotFound)
  ensure (a.policyVariant = .quorum → 1 ≤ a.k) (.err .invalidInput ["quorum k must be >= 1"])
  ensure (a.policyVariant ≠ .allOf → a.onSatisfied ≠ .unset)
    (.err .invalidInput ["on_satisfied required for any_of/quorum: cancel_remaining | let_run"])
  ensure (s.deps.edgeGroup.all fun g => decide (g.n ≤ 0))
    (.err .invalidInput ["edge_group_policy_already_fixed: dependencies already staged"])
  if s.deps.edgeGroup.any fun g => decide (g.policyVariant = a.policyVariant) then
    return (.ok ["already_set"],s)
  else
    let group : EdgeGroup :=
      { policyVariant := a.policyVariant, onSatisfied := a.onSatisfied, k := a.k, n := 0
        cancelSiblingsPending := s.deps.edgeGroup.bind (·.cancelSiblingsPending) }
    return (.ok ["set"],s.setDeps { s.deps with edgeGroup := some group })

structure ApplyArgs where
  (flowId edgeId : String)
  dataPassingRef : String := ""

/-- Record an unsatisfied edge and count it. The first edge of a group without a
policy makes it an all-of group. -/
def DependencyKeys.apply (d : DependencyKeys) (a : ApplyArgs) : DependencyKeys :=
  { d with
    dependency := fun e => if e = a.edgeId then some ⟨.unsatisfied,a.dataPassingRef⟩ else d.dependency e
    unresolved := insert a.edgeId d.unresolved, unsatisfiedRequiredCount := d.unsatisfiedRequiredCount + 1
    edgeGroup := match d.edgeGroup with
      | none => some { policyVariant := .allOf, n := 1 }
      | some g => some { g with n := g.n + 1 } }

def ExecCore.blockedByDependencies (c : ExecCore) : ExecCore :=
  { c with
    eligibilityState := .blockedByDependencies, blockingReason := .waitingForChildren, terminalOutcome := .none
    publicState := .waitingChildren }

/-- Only a runnable child is blocked; its place in any index but the eligible one is kept. -/
def Store.blockChild (s : Store) (c : ExecCore) : Store :=
  if c.lifecyclePhase = .runnable ∧ c.terminalOutcome = .none then
    ((s.setCore c.blockedByDependencies).zrem .eligible).zadd .blockedDependencies c.createdAt
  else s

@[simp] theorem blockChild_deps (s : Store) (c : ExecCore) : (s.blockChild c).deps = s.deps := by
  unfold Store.blockChild
  split <;> rfl

@[simp] theorem blockChild_secrets (s : Store) (c : ExecCore) : (s.blockChild c).secrets = s.secrets := by
  unfold Store.blockChild
  split <;> rfl

def applyDependencyToChild (a : ApplyArgs) (s : Store) : Outcome := do
  let c ← demand s.core (.fail .executionNotFound)
  ensure (c.flowId = "" ∨ c.flowId = a.flowId) (.fail .executionAlreadyInFlow)
  if (s.deps.dependency a.edgeId).isSome then return (.ok ["already_applied"],s)
  else
    let deps := s.deps.apply a
    return (.ok [toString deps.unsatisfiedRequiredCount],(s.setDeps deps).blockChild c)

/-- The upstream result and the upstreams that still run are read from other keys. -/
structure ResolveArgs where
  edgeId : String
  upstreamOutcome : TerminalOutcome
  nowMs : Int
  upstreamResult : Bool := false
  runningSiblings : List String := []
  keys : Keys := {}

/-- Give an edge its final state and take it off the unresolved ones. -/
def DependencyKeys.settle (d : DependencyKeys) (edgeId : String) (state : DependencyState) : DependencyKeys :=
  { d with
    dependency := fun e =>
      if e = edgeId then (d.dependency e).map fun p => { p with state } else d.dependency e
    unresolved := d.unresolved.erase edgeId }

def ExecCore.awaitsDependencies (c : ExecCore) : Prop :=
  c.lifecyclePhase = .runnable ∧ c.ownershipState = .unowned ∧ c.terminalOutcome = .none ∧
    c.eligibilityState = .blockedByDependencies

instance (c : ExecCore) : Decidable c.awaitsDependencies := inferInstanceAs (Decidable (_ ∧ _))

def ExecCore.dependenciesMet (c : ExecCore) : ExecCore :=
  { c with
    eligibilityState := .eligibleNow, blockingReason := .waitingForWorker, terminalOutcome := .none
    attemptState := if c.attemptState = .none then .pendingFirstAttempt else c.attemptState, publicState := .waiting }

def Store.releaseChild (s : Store) (c : ExecCore) : Store :=
  ((s.setCore c.dependenciesMet).zrem .blockedDependencies).zadd .eligible c.eligibleScore

def Store.releaseWaiting (s : Store) : Store :=
  match s.core with
  | some c => if c.awaitsDependencies then s.releaseChild c else s
  | none => s

/-- The result of a successful upstream goes to a child that is not finished. -/
def dataInjected (a : ResolveArgs) (dep : Dependency) (s : Store) : String :=
  if dep.dataPassingRef ≠ "" ∧ a.upstreamOutcome = .success ∧ a.upstreamResult ∧
    s.core.any fun c => decide (c.terminalOutcome = .none) then "data_injected" else ""

/-- The attempt of the child is real when a worker has begun it. -/
def AttemptState.begun (state : AttemptState) : Prop := state = .runningAttempt ∨ state = .attemptInterrupted

instance (state : AttemptState) : Decidable state.begun := inferInstanceAs (Decidable (_ ∨ _))

/-- The fields of a lease or of a suspension stay as they are. -/
def ExecCore.skipped (c : ExecCore) (nowMs : Int) : ExecCore :=
  { c with
    lifecyclePhase := .terminal, ownershipState := .unowned, eligibilityState := .notApplicable, blockingReason := .none
    terminalOutcome := .skipped, attemptState := if c.attemptState.begun then .attemptTerminal else .none
    publicState := .skipped, completedAt := some nowMs }

/-- Skip the child, whatever its phase. Only the blocked index is cleaned; a lease, the
indexes of running work and the timeouts are left behind. -/
def Store.skipChild (s : Store) (a : ResolveArgs) (c : ExecCore) : Store :=
  let begun := if c.attemptState.begun then some a.keys.attemptIndex else none
  let s := (s.updateAttempt begun fun old =>
    { old with
      attemptState := .endedCancelled, endedAt := some a.nowMs
      failureReason := "dependency_impossible" }).closeStream begun a.nowMs "dependency_impossible"
  let s := ((s.setCore (c.skipped a.nowMs)).zrem .blockedDependencies).zadd .terminal a.nowMs
  s.announce c.executionId c .skipped (decide (c.executionId ≠ ""))

def skipUnfinished (a : ResolveArgs) (s : Store) : Reply × Store :=
  match s.core with
  | some c =>
    if c.terminalOutcome = .none then (.ok ["impossible","child_skipped"],s.skipChild a c)
    else (.ok ["impossible",""],s)
  | none => (.ok ["impossible",""],s)

/-- Count a success. The group is satisfied with the last of its edges. -/
def DependencyKeys.satisfy (d : DependencyKeys) (edgeId : String) : DependencyKeys :=
  let remaining := d.unsatisfiedRequiredCount - 1
  { d.settle edgeId .satisfied with
    unsatisfiedRequiredCount := remaining
    edgeGroup := d.edgeGroup.map fun g =>
      { g with
        succeeded := g.succeeded + 1, groupState := if remaining = 0 then .satisfied else g.groupState } }

/-- Count a failure. One is enough to make the group impossible. -/
def DependencyKeys.preclude (d : DependencyKeys) (edgeId : String) : DependencyKeys :=
  { d.settle edgeId .impossible with
    unsatisfiedRequiredCount := d.unsatisfiedRequiredCount - 1, impossibleRequiredCount := d.impossibleRequiredCount + 1
    edgeGroup := d.edgeGroup.map fun g => { g with failed := g.failed + 1, groupState := .impossible } }

def satisfyEdge (a : ResolveArgs) (dep : Dependency) (s : Store) : Reply × Store :=
  let s := s.setDeps (s.deps.satisfy a.edgeId)
  (.ok ["satisfied",dataInjected a dep s],if s.deps.unsatisfiedRequiredCount = 0 then s.releaseWaiting else s)

def failEdge (a : ResolveArgs) (s : Store) : Reply × Store := skipUnfinished a (s.setDeps (s.deps.preclude a.edgeId))

def TerminalOutcome.edgeState : TerminalOutcome → DependencyState
  | .success => .satisfied
  | _ => .impossible

def EdgeGroup.bump (g : EdgeGroup) : TerminalOutcome → EdgeGroup
  | .success => { g with succeeded := g.succeeded + 1 }
  | .skipped => { g with skipped := g.skipped + 1 }
  | _ => { g with failed := g.failed + 1 }

def EdgeGroup.threshold (g : EdgeGroup) : Int :=
  if g.policyVariant = .anyOf then 1 else max 1 g.k

def EdgeGroup.verdict (g : EdgeGroup) : GroupState :=
  if g.threshold ≤ g.succeeded then .satisfied
  else if g.n - g.threshold < g.failed + g.skipped then .impossible
  else .pending

/-- The group once it has fired. Its siblings are listed when they are to be cancelled. -/
def EdgeGroup.fire (g : EdgeGroup) (verdict : GroupState) (siblings : List String) : EdgeGroup :=
  { g with
    groupState := verdict
    cancelSiblingsPending :=
      if g.onSatisfied = .cancelRemaining then some siblings else g.cancelSiblingsPending }

/-- A group that is satisfied by some of its upstreams. The counters of the child are
not looked at. -/
def resolveDependencyQuorum (a : ResolveArgs) (dep : Dependency) (g : EdgeGroup) (s : Store) : Reply × Store :=
  let g := g.bump a.upstreamOutcome
  let d := { s.deps.settle a.edgeId a.upstreamOutcome.edgeState with edgeGroup := some g }
  let counted := g.succeeded + g.failed + g.skipped
  if g.n < counted then
    (.err .invariantViolation
      ["edgegroup counters exceed n: " ++ toString counted ++ "/" ++ toString g.n],s.setDeps d)
  else if g.groupState ≠ .pending then (.ok ["already_fired",""],s.setDeps d)
  else
    let fired := s.setDeps { d with edgeGroup := some (g.fire g.verdict a.runningSiblings) }
    match g.verdict with
    | .satisfied => (.ok ["satisfied",dataInjected a dep s],fired.releaseWaiting)
    | .impossible => skipUnfinished a fired
    | _ => (.ok ["pending",""],s.setDeps d)

def resolveDependency (a : ResolveArgs) (s : Store) : Outcome := do
  let dep ← demand (s.deps.dependency a.edgeId) (.fail .invalidDependency)
  if dep.state ≠ .unsatisfied then return (.ok ["already_resolved"],s)
  else
    match s.deps.edgeGroup.filter fun g => decide (g.policyVariant ≠ .allOf) with
    | some g => return resolveDependencyQuorum a dep g s
    | none => return if a.upstreamOutcome = .success then satisfyEdge a dep s else failEdge a s

def promoteBlockedToEligible (s : Store) : Outcome := do
  let c ← demand s.core (.fail .executionNotFound)
  ensure (c.lifecyclePhase = .runnable) (.fail .notRunnable)
  ensure (c.eligibilityState = .blockedByDependencies) (.fail .notBlockedByDeps)
  ensure (c.terminalOutcome = .none) (.fail .terminal)
  ensure (s.deps.unsatisfiedRequiredCount ≤ 0 ∧ s.deps.unresolved.card = 0)
    (.err .depsNotSatisfied [toString s.deps.unsatisfiedRequiredCount,toString s.deps.unresolved.card])
  return (.ok [],s.releaseChild c)

structure ReplayArgs where
  executionId : String
  edgeIds : List String := []

/-- The replay limit of the policy. Anything that is no number is taken for ten. -/
def maxReplayCount : JsonText → Double
  | .doc document => ((document.field "max_replay_count").bind Json.toNumber).getD (.finite 10)
  | _ => .finite 10

/-- Make the impossible ones among the listed edges unsatisfied again and count the
unsatisfied ones. -/
def DependencyKeys.reopen (d : DependencyKeys) : List String → DependencyKeys × Int
  | [] => (d,0)
  | e :: rest =>
    match d.dependency e with
    | some ⟨.impossible,ref⟩ =>
      let (d,n) := reopen { d with
        dependency := fun j => if j = e then some ⟨.unsatisfied,ref⟩ else d.dependency j
        unresolved := insert e d.unresolved } rest
      (d,n + 1)
    | some ⟨.unsatisfied,_⟩ =>
      let (d,n) := reopen d rest
      (d,n + 1)
    | _ => reopen d rest

def ExecCore.replayed (c : ExecCore) (blocked : Bool) : ExecCore :=
  { c with
    lifecyclePhase := .runnable, ownershipState := .unowned
    eligibilityState := if blocked then .blockedByDependencies else .eligibleNow
    blockingReason := if blocked then .waitingForChildren else .waitingForWorker, terminalOutcome := .none
    attemptState := .pendingReplayAttempt, publicState := if blocked then .waitingChildren else .waiting
    replayCount := c.replayCount + 1, completedAt := none }

def replaySkipped (a : ReplayArgs) (c : ExecCore) (s : Store) : Reply × Store :=
  let (d,unsatisfied) := s.deps.reopen a.edgeIds
  (.ok [toString unsatisfied],
    (((s.setDeps { d with unsatisfiedRequiredCount := unsatisfied, impossibleRequiredCount := 0 }).setCore
      (c.replayed true)).zrem .terminal).zadd .blockedDependencies c.createdAt)

/-- Any other execution is eligible at once. Its edges are not looked at. -/
def replayNormal (c : ExecCore) (s : Store) : Reply × Store :=
  (.ok ["0"],((s.setCore (c.replayed false)).zrem .terminal).zadd .eligible c.eligibleScore)

def replayExecution (a : ReplayArgs) (s : Store) : Outcome := do
  let c ← demand s.core (.fail .executionNotFound)
  ensure (c.lifecyclePhase = .terminal) (.fail .executionNotTerminal)
  ensure ((maxReplayCount s.policy).le (.ofInt c.replayCount) = false) (.fail .maxReplaysExhausted)
  return if c.terminalOutcome = .skipped ∧ c.flowId ≠ "" then replaySkipped a c s else replayNormal c s

variable {reply : Reply} {s t : Store} {dep : Dependency}

theorem addExecutionToFlow_ok {a : JoinArgs} (h : addExecutionToFlow a s = .ok (reply,t)) :
    ∃ c, s.core = some c ∧ t = s.setCore { c with flowId := a.flowId } := by
  simp only [addExecutionToFlow,bind_ok,demand_ok,ensure_ok] at h
  obtain ⟨_,-,_,-,c,hc,_,-,h⟩ := h
  split at h <;> cases h <;> exact ⟨c,hc,rfl⟩

theorem setEdgeGroupPolicy_ok {a : PolicyArgs} (h : setEdgeGroupPolicy a s = .ok (reply,t)) :
    t = s ∨ ∃ g : EdgeGroup, g.policyVariant = a.policyVariant ∧ t = s.setDeps { s.deps with edgeGroup := some g } := by
  simp only [setEdgeGroupPolicy,bind_ok,ensure_ok] at h
  obtain ⟨_,-,_,-,_,-,_,-,h⟩ := h
  split at h
  · cases h; exact .inl rfl
  · cases h; exact .inr ⟨_,rfl,rfl⟩

theorem applyDependencyToChild_ok {a : ApplyArgs} (h : applyDependencyToChild a s = .ok (reply,t)) :
    t = s ∨ ∃ c, s.core = some c ∧ s.deps.dependency a.edgeId = none ∧
      t = (s.setDeps (s.deps.apply a)).blockChild c := by
  simp only [applyDependencyToChild,bind_ok,demand_ok,ensure_ok] at h
  obtain ⟨c,hc,_,-,h⟩ := h
  split at h
  · cases h; exact .inl rfl
  · rename_i hd
    cases h; exact .inr ⟨c,hc,by simpa using hd,rfl⟩

/-- What resolving an edge does to the records of the child. The counter follows only in
an all-of group. -/
structure Settles (a : ResolveArgs) (d d' : DependencyKeys) : Prop where
  unsatisfied : ∃ dep, d.dependency a.edgeId = some dep ∧ dep.state = .unsatisfied
  dependency : ∃ state, state ≠ .unsatisfied ∧ d'.dependency = (d.settle a.edgeId state).dependency
  unresolved : d'.unresolved = d.unresolved.erase a.edgeId
  policy : d'.edgeGroup.map (·.policyVariant) = d.edgeGroup.map (·.policyVariant)
  count : (∀ g, d.edgeGroup = some g → g.policyVariant = .allOf) →
    d'.unsatisfiedRequiredCount = d.unsatisfiedRequiredCount - 1

/-- The group cannot be satisfied any more once the upstream has ended as it has. An all-of
group needs every upstream; another one fires once, when its counters say so. -/
def ResolveArgs.precludes (a : ResolveArgs) (d : DependencyKeys) : Bool :=
  match d.edgeGroup.filter fun g => decide (g.policyVariant ≠ .allOf) with
  | some g =>
    let g := g.bump a.upstreamOutcome
    decide (g.succeeded + g.failed + g.skipped ≤ g.n ∧ g.groupState = .pending ∧ g.verdict = .impossible)
  | none => decide (a.upstreamOutcome ≠ .success)

/-- The child after the edge has been recorded: as before, released or skipped. An
all-of group releases it when its counter has come down to zero. -/
inductive Settled (a : ResolveArgs) (s : Store) (d : DependencyKeys) : Store → Prop
  | kept : Settled a s d (s.setDeps d)
  | released (c) (hc : s.core = some c) (hw : c.awaitsDependencies)
      (hd : (∀ g, s.deps.edgeGroup = some g → g.policyVariant = .allOf) →
        d.unsatisfiedRequiredCount = 0) : Settled a s d ((s.setDeps d).releaseChild c)
  | skipped (c) (hc : s.core = some c) (ho : c.terminalOutcome = .none)
      (hp : a.precludes s.deps) : Settled a s d ((s.setDeps d).skipChild a c)

variable {d : DependencyKeys} {a : ResolveArgs}

theorem skipUnfinished_settled
    (hp : a.precludes s.deps) : Settled a s d (skipUnfinished a (s.setDeps d)).2 := by
  unfold skipUnfinished
  split
  · rename_i c hc
    split
    · rename_i ho
      exact .skipped c hc ho hp
    · exact .kept
  · exact .kept

theorem releaseWaiting_settled (hd : (∀ g, s.deps.edgeGroup = some g → g.policyVariant = .allOf) →
      d.unsatisfiedRequiredCount = 0) : Settled a s d (s.setDeps d).releaseWaiting := by
  unfold Store.releaseWaiting
  split
  · rename_i c hc
    split
    · rename_i hw
      exact .released c hc hw hd
    · exact .kept
  · exact .kept

theorem EdgeGroup.bump_policyVariant (g : EdgeGroup) (outcome : TerminalOutcome) :
    (g.bump outcome).policyVariant = g.policyVariant := by
  cases outcome <;> rfl

private theorem resolveDependencyQuorum_settled {g : EdgeGroup}
    (hd : s.deps.dependency a.edgeId = some dep) (hu : dep.state = .unsatisfied)
    (hg : s.deps.edgeGroup = some g) (hp : g.policyVariant ≠ .allOf) :
    ∃ d, Settles a s.deps d ∧ Settled a s d (resolveDependencyQuorum a dep g s).2 := by
  have quorum {P : Prop} (h : ∀ g, s.deps.edgeGroup = some g → g.policyVariant = .allOf) : P := (hp (h g hg)).elim
  have settles (g' : EdgeGroup) (hg' : g'.policyVariant = g.policyVariant) :
      Settles a s.deps { s.deps.settle a.edgeId a.upstreamOutcome.edgeState with edgeGroup := some g' } :=
    ⟨⟨dep,hd,hu⟩,⟨_,by cases a.upstreamOutcome <;> decide,rfl⟩,rfl,by simp [hg,hg'],quorum⟩
  have bumped := settles _ (g.bump_policyVariant a.upstreamOutcome)
  have fired := settles ((g.bump a.upstreamOutcome).fire (g.bump a.upstreamOutcome).verdict
    a.runningSiblings) (g.bump_policyVariant a.upstreamOutcome)
  unfold resolveDependencyQuorum
  dsimp only
  split
  · exact ⟨_,bumped,.kept⟩
  · rename_i hn
    split
    · exact ⟨_,bumped,.kept⟩
    · rename_i hpending
      split
      · exact ⟨_,fired,releaseWaiting_settled quorum⟩
      · rename_i hv
        refine ⟨_,fired,skipUnfinished_settled ?_⟩
        have hfilter : (s.deps.edgeGroup.filter fun g => decide (g.policyVariant ≠ .allOf)) = some g := by simp [hg,hp]
        simp only [ResolveArgs.precludes,hfilter,decide_eq_true_eq]
        exact ⟨not_lt.mp hn,not_not.mp hpending,hv⟩
      · exact ⟨_,bumped,.kept⟩

theorem resolveDependency_ok (h : resolveDependency a s = .ok (reply,t)) :
    t = s ∨ ∃ d, Settles a s.deps d ∧ Settled a s d t := by
  simp only [resolveDependency,bind_ok,demand_ok] at h
  obtain ⟨dep,hd,h⟩ := h
  split at h
  · cases h; exact .inl rfl
  · rename_i hu
    have hu : dep.state = .unsatisfied := by simpa using hu
    have ht {x : Reply × Store} (h : (pure x : Outcome) = .ok (reply,t)) : x.2 = t :=
      congrArg Prod.snd ((pure_ok ..).mp h)
    right
    split at h
    · rename_i g hg
      simp only [Option.filter_eq_some_iff,decide_eq_true_eq] at hg
      exact ht h ▸ resolveDependencyQuorum_settled hd hu hg.1 hg.2
    · rename_i hg
      rw [← ht h]
      split
      · refine ⟨s.deps.satisfy a.edgeId,⟨⟨dep,hd,hu⟩,⟨.satisfied,by decide,rfl⟩,rfl,?_,fun _ => rfl⟩,?_⟩
        · cases hg : s.deps.edgeGroup <;> simp [satisfy,hg]
        · unfold satisfyEdge
          dsimp only
          split
          · rename_i hr
            exact releaseWaiting_settled fun _ => hr
          · exact .kept
      · rename_i ho
        refine ⟨s.deps.preclude a.edgeId,⟨⟨dep,hd,hu⟩,⟨.impossible,by decide,rfl⟩,rfl,?_,fun _ => rfl⟩,
          skipUnfinished_settled (by simp only [ResolveArgs.precludes,hg]; simpa using ho)⟩
        cases hg : s.deps.edgeGroup <;> simp [preclude,hg]

theorem promoteBlockedToEligible_ok (h : promoteBlockedToEligible s = .ok (reply,t)) :
    ∃ c, s.core = some c ∧ c.lifecyclePhase = .runnable ∧ c.eligibilityState = .blockedByDependencies ∧
      c.terminalOutcome = .none ∧ s.deps.unresolved = ∅ ∧ t = s.releaseChild c := by
  simp only [promoteBlockedToEligible,bind_ok,demand_ok,ensure_ok] at h
  obtain ⟨c,hc,_,hp,_,he,_,ho,_,hu,h⟩ := h
  cases h; exact ⟨c,hc,hp,he,ho,Finset.card_eq_zero.mp hu.2,rfl⟩

theorem replayExecution_reply {a : ReplayArgs} (h : replayExecution a s = .ok (reply,t)) : reply.isError = false := by
  simp only [replayExecution,bind_ok,demand_ok,ensure_ok,pure_ok] at h
  obtain ⟨c,-,_,-,_,-,h⟩ := h
  split at h <;> cases h <;> rfl

theorem replayExecution_ok {a : ReplayArgs} (h : replayExecution a s = .ok (reply,t)) :
    ∃ c, s.core = some c ∧ c.lifecyclePhase = .terminal ∧
      ((c.terminalOutcome = .skipped ∧ c.flowId ≠ "" ∧ t = (replaySkipped a c s).2) ∨
        (¬ (c.terminalOutcome = .skipped ∧ c.flowId ≠ "") ∧ t = (replayNormal c s).2)) := by
  simp only [replayExecution,bind_ok,demand_ok,ensure_ok,pure_ok] at h
  obtain ⟨c,hc,_,hp,_,-,h⟩ := h
  refine ⟨c,hc,hp,?_⟩
  split at h
  · rename_i hs
    exact .inl ⟨hs.1,hs.2,(congrArg Prod.snd h).symm⟩
  · rename_i hs
    exact .inr ⟨hs,(congrArg Prod.snd h).symm⟩

end FlowFabric
