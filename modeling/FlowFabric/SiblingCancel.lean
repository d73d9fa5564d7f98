import FlowFabric.Executions

/-! A group that cancels the siblings it no longer needs: the flip in ff_resolve_dependency that
records them, the edge-cancel dispatcher, ff_drain_sibling_cancel_group and
ff_reconcile_sibling_cancel_group, in any order and with failures between their steps. -/
namespace FlowFabric
open Foundation Execution List Function DependencyKeys String

def maxSiblingsPerGroup : Nat := 1024

inductive SiblingDisposition where
  | cancelled | alreadyTerminal | notFound | transientError
  deriving DecidableEq

open SiblingDisposition

def SiblingDisposition.ofReply : Reply → SiblingDisposition
  | .err .executionNotActive _ => .alreadyTerminal
  | .err .executionNotFound _ => .notFound
  | .err _ _ | .raised => .transientError
  | .ok _ | .alreadySatisfied _ | .duplicate _ => .cancelled

inductive Dispatcher where
  | idle
  | reading
  | cancelling (reason : String) (siblings : List String)

/-- The executions, the upstreams of the group as the set of its edges lists them, whether the
group is among the pending ones, and the dispatchers. -/
structure SiblingWorld where
  exec : String → Execution
  incoming : List String
  pending : Bool := false
  dispatcher : Nat → Dispatcher := fun _ => .idle

/-- The resolve makes a group fire that cancels the remaining ones. -/
def ResolveArgs.flips (a : ResolveArgs) (s : Store) : Bool :=
  s.deps.isOpen a.edgeId &&
    match s.deps.partialGroup with
    | some g => decide ((g.bump a.upstreamOutcome).decides ≠ .pending ∧ g.onSatisfied = .cancelRemaining)
    | none => false

def siblingCancel (sibling reason : String) (keys : Keys) : CancelArgs :=
  { executionId := sibling, reason, source := "operator_override", keys }

def Execution.clearSiblings (x : Execution) : Execution :=
  ⟨x.store.setDeps { x.store.deps with
    edgeGroup := x.store.deps.edgeGroup.map fun g => { g with cancelSiblingsPending := none } },x.sound⟩

def EdgeGroup.siblingsReason (g : EdgeGroup) : String :=
  if g.groupState = .impossible then "sibling_quorum_impossible" else "sibling_quorum_satisfied"

namespace SiblingWorld
variable (d : String) (w : SiblingWorld)

@[simps] def setExec (eid : String) (x : Execution) : SiblingWorld := { w with exec := update w.exec eid x }

@[simps] def setDispatcher (p : Nat) (at_ : Dispatcher) : SiblingWorld :=
  { w with dispatcher := update w.dispatcher p at_ }

def group : Option EdgeGroup := (w.exec d).store.deps.edgeGroup

def members : Option (List String) := (w.group d).bind (·.cancelSiblingsPending)

def running : List String := w.incoming.filter fun sibling => !(w.exec sibling).ended

def cleared : Prop := w.pending = false ∨ w.members d = none

def resolve (now : Int) (a : ResolveArgs) : SiblingWorld :=
  let a := { a with runningSiblings := w.running }
  { w.setExec d ((w.exec d).next ⟨now,.resolveDependency a⟩) with
    pending := w.pending || a.flips (w.exec d).store }

def drainSiblingCancelGroup : SiblingWorld :=
  { w.setExec d (w.exec d).clearSiblings with pending := false }

/-- Finish the drain of a group whose siblings have all ended, and drop an entry without a list. -/
def reconcileSiblingCancelGroup : SiblingWorld :=
  if w.pending = false then w
  else
    match w.members d with
    | none => { w with pending := false }
    | some siblings =>
      if siblings.all fun sibling => (w.exec sibling).ended then w.drainSiblingCancelGroup d else w

/-- The dispatcher reads the reason and the list, and takes the first siblings of the list. -/
def readGroup (p : Nat) : SiblingWorld :=
  match w.dispatcher p with
  | .reading =>
    w.setDispatcher p (.cancelling (((w.group d).map EdgeGroup.siblingsReason).getD "sibling_quorum_satisfied")
      (((w.members d).getD []).take maxSiblingsPerGroup))
  | .idle | .cancelling _ _ => w

def cancelSibling (p : Nat) (now : Int) (keys : Keys) : SiblingWorld :=
  match w.dispatcher p with
  | .cancelling reason (sibling :: siblings) =>
    let i : Call := ⟨now,.cancel (siblingCancel sibling reason keys)⟩
    let disposition := ofReply (step i (w.exec sibling).store).1
    (w.setExec sibling ((w.exec sibling).next i)).setDispatcher p
      (if disposition = .transientError then .idle else .cancelling reason siblings)
  | .idle | .reading | .cancelling _ [] => w

def drainGroup (p : Nat) : SiblingWorld :=
  match w.dispatcher p with
  | .cancelling _ [] => (w.drainSiblingCancelGroup d).setDispatcher p .idle
  | .idle | .reading | .cancelling _ (_ :: _) => w

end SiblingWorld

/-- Steps of the dispatchers, which may give up at any point, of the reconciler and of the rest
of the engine. -/
inductive SiblingStep where
  | call (eid : String) (i : Call)
  | purge (eid : String)
  | resolve (now : Int) (a : ResolveArgs)
  | pick (p : Nat)
  | read (p : Nat)
  | cancel (p : Nat) (now : Int) (keys : Keys)
  | drain (p : Nat)
  | giveUp (p : Nat)
  | reconcile

def siblingNext (d : String) (s : SiblingStep) (w : SiblingWorld) : SiblingWorld :=
  match s with
  | .call eid i => w.setExec eid ((w.exec eid).next i)
  | .purge eid => w.setExec eid (w.exec eid).purge
  | .resolve now a => w.resolve d now a
  | .pick p => if w.pending then w.setDispatcher p .reading else w
  | .read p => w.readGroup d p
  | .cancel p now keys => w.cancelSibling p now keys
  | .drain p => w.drainGroup d p
  | .giveUp p => w.setDispatcher p .idle
  | .reconcile => w.reconcileSiblingCancelGroup d

/-- A call on the side brings no execution to life and leaves the edges of the group alone. -/
def SiblingStep.aside (d : String) : SiblingStep → Prop
  | .call eid i => i.op.revives = false ∧ (eid = d → i.op.writesEdges = false)
  | _ => True

section
variable {d eid : String} {w : SiblingWorld} {x : Execution} {L : List String} {g : EdgeGroup}
  {a : ResolveArgs} {now : Int}

private theorem ended_of_cancel {a : CancelArgs} (h : ofReply (step ⟨now,.cancel a⟩ x.store).1 ≠ .transientError) :
    (x.next ⟨now,.cancel a⟩).ended = true := by
  have final : (Call.mk now (.cancel a)).op.revives = false := rfl
  cases hc : x.store.core with
  | none => exact ended_next (ended_of_absent hc) final
  | some c =>
    by_cases ht : c.lifecyclePhase = .terminal
    · exact ended_next (ended_of_terminal hc ht) final
    · cases ho : cancelExecution a now x.store with
      | ok result =>
        obtain ⟨c',hc',-,ht'⟩ := cancelExecution_ok ho
        refine ended_of_terminal (c := c'.cancelled a.reason now) ?_ rfl
        have hn : FlowFabric.next ⟨now,.cancel a⟩ x.store = result.2 := by
          change (commit x.store (cancelExecution a now x.store)).2 = _
          rw [ho]
          rfl
        show (FlowFabric.next ⟨now,.cancel a⟩ x.store).core = _
        rw [hn,ht']
        rfl
      | error reply =>
        -- the checks that are left fail for a lease only
        refine absurd ?_ h
        have hr : (step ⟨now,.cancel a⟩ x.store).1 = reply := by
          change (commit x.store (cancelExecution a now x.store)).1 = _
          rw [ho]
          rfl
        rw [hr]
        have refuses : Refuses (fun r => ofReply r = .transientError)
            (cancelExecution a now x.store) := by
          simp [cancelExecution,hc,ht,ofReply]
        exact refuses reply ho

/-! What a step does to the executions and to the group. -/

theorem group_setExec (h : eid = d → x.store.deps.edgeGroup = w.group d) : (w.setExec eid x).group d = w.group d := by
  rw [SiblingWorld.group,SiblingWorld.setExec_exec]
  by_cases he : d = eid
  · subst he
    rw [update_self]
    exact h rfl
  · rw [update_of_ne he]
    rfl

/-- The group has fired, and its list is the recorded one or has been removed. -/
structure EdgeGroup.Fired (L : List String) (g : EdgeGroup) : Prop where
  policyVariant : g.policyVariant ≠ .allOf
  groupState : g.groupState ≠ .pending
  listed : g.cancelSiblingsPending = none ∨ g.cancelSiblingsPending = some L

theorem EdgeGroup.Fired.resolve (h : g.Fired L) (a : ResolveArgs) : (g.resolve a).Fired L ∧
    (g.resolve a).cancelSiblingsPending = g.cancelSiblingsPending := by
  have state : (g.bump a.upstreamOutcome).groupState ≠ .pending := by
    rw [g.bump_groupState]
    exact h.groupState
  have counts : g.resolve a = g.bump a.upstreamOutcome := if_pos (if_pos (.inr state))
  have list : (g.bump a.upstreamOutcome).cancelSiblingsPending = g.cancelSiblingsPending := by
    cases a.upstreamOutcome <;> rfl
  rw [counts]
  refine ⟨⟨?_,state,?_⟩,list⟩
  · rw [g.bump_policyVariant]
    exact h.policyVariant
  · rw [list]
    exact h.listed

theorem partialGroup_of (hg : x.store.deps.edgeGroup = some g) (hp : g.policyVariant ≠ .allOf) :
    x.store.deps.partialGroup = some g := by
  simp [partialGroup,hg,hp]

theorem edgeGroup_resolve (now : Int) (a : ResolveArgs) (hg : x.store.deps.edgeGroup = some g)
    (hp : g.policyVariant ≠ .allOf) : (x.next ⟨now,.resolveDependency a⟩).store.deps.edgeGroup =
      if x.store.deps.isOpen a.edgeId then some (g.resolve a) else some g := by
  show (FlowFabric.next ⟨now,.resolveDependency a⟩ x.store).deps.edgeGroup = _
  rw [next_resolve]
  split
  · rw [follow_deps]
    show (x.store.deps.resolve a).edgeGroup = _
    rw [resolve,partialGroup_of hg hp]
  · exact hg

private theorem flips_records (now : Int) (h : a.flips x.store = true) :
    ∃ g, (x.next ⟨now,.resolveDependency a⟩).store.deps.edgeGroup = some g ∧ g.Fired a.runningSiblings ∧
      g.cancelSiblingsPending = some a.runningSiblings := by
  unfold ResolveArgs.flips at h
  cases hp : x.store.deps.partialGroup with
  | none => simp [hp] at h
  | some g =>
    simp only [hp,Bool.and_eq_true,decide_eq_true_eq] at h
    obtain ⟨opened,fires,cancels⟩ := h
    obtain ⟨hg,variant⟩ : x.store.deps.edgeGroup = some g ∧ g.policyVariant ≠ .allOf := by
      simpa [partialGroup,Option.filter_eq_some_iff] using hp
    have fired : g.resolve a = (g.bump a.upstreamOutcome).fire (g.bump a.upstreamOutcome).decides
        a.runningSiblings := if_neg fires
    have policy : (g.bump a.upstreamOutcome).onSatisfied = .cancelRemaining := by
      rw [← cancels]
      cases a.upstreamOutcome <;> rfl
    have list : (g.resolve a).cancelSiblingsPending = some a.runningSiblings := by
      rw [fired]
      exact if_pos policy
    refine ⟨g.resolve a,?_,⟨?_,?_,.inr list⟩,list⟩
    · rw [edgeGroup_resolve now a hg variant,if_pos opened]
    · rw [fired]
      exact (g.bump_policyVariant _).symm ▸ variant
    · rw [fired]
      exact fires

variable {y : String} (p : Nat)

/-- After the flip that has recorded the siblings: what is cleared has been dealt with, and what a
dispatcher has passed has ended. -/
structure Dispatching (d : String) (L : List String) (w : SiblingWorld) : Prop where
  fired : ∃ g, w.group d = some g ∧ g.Fired L
  settled : w.cleared d → ∀ y ∈ L, (w.exec y).ended = true
  passed : ∀ p reason todo, w.dispatcher p = .cancelling reason todo →
    ∀ y ∈ L.take maxSiblingsPerGroup, y ∈ todo ∨ (w.exec y).ended = true

namespace Dispatching
variable {w' : SiblingWorld}

variable (h : Dispatching d L w) (p : Nat) (now : Int)
include h

theorem mono (fired : ∃ g, w'.group d = some g ∧ g.Fired L)
    (pending : w'.pending = w.pending) (members : w'.members d = w.members d)
    (ended : ∀ y, (w.exec y).ended = true → (w'.exec y).ended = true)
    (dispatcher : w'.dispatcher = w.dispatcher) : Dispatching d L w' where
  fired := fired
  settled := by
    intro cleared y hy
    rw [SiblingWorld.cleared,pending,members] at cleared
    exact ended y (h.settled cleared y hy)
  passed := by
    intro p reason todo hp y hy
    rw [dispatcher] at hp
    exact (h.passed p reason todo hp y hy).imp_right (ended y)

theorem of_group (group : w'.group d = w.group d) (pending : w'.pending = w.pending)
    (ended : ∀ y, (w.exec y).ended = true → (w'.exec y).ended = true)
    (dispatcher : w'.dispatcher = w.dispatcher) : Dispatching d L w' := by
  refine h.mono ?_ pending ?_ ended dispatcher
  · rw [group]
    exact h.fired
  · rw [SiblingWorld.members,SiblingWorld.members,group]

theorem members_cases : w.members d = none ∨ w.members d = some L := by
  obtain ⟨g,hg,fired⟩ := h.fired
  rw [SiblingWorld.members,hg]
  exact fired.listed

theorem resolve (a : ResolveArgs) : Dispatching d L (w.resolve d now a) := by
  obtain ⟨g,hg,fired⟩ := h.fired
  have flipped : ({ a with runningSiblings := w.running } : ResolveArgs).flips (w.exec d).store = false := by
    have pending : (g.bump a.upstreamOutcome).decides = .pending := by
      refine if_pos (.inr ?_)
      rw [g.bump_groupState]
      exact fired.groupState
    simp [ResolveArgs.flips,partialGroup_of hg fired.policyVariant,pending]
  have group : ∃ g', (w.resolve d now a).group d = some g' ∧ g'.Fired L ∧
      g'.cancelSiblingsPending = g.cancelSiblingsPending := by
    have hn := edgeGroup_resolve now { a with runningSiblings := w.running } hg fired.policyVariant
    show ∃ g', (update w.exec d _ d).store.deps.edgeGroup = some g' ∧ _
    rw [update_self,hn]
    split
    · exact ⟨_,rfl,fired.resolve _⟩
    · exact ⟨g,rfl,fired,rfl⟩
  obtain ⟨g',hg',fired',list⟩ := group
  refine h.mono ⟨g',hg',fired'⟩ ?_ ?_ ?_ rfl
  · show (w.pending || _) = w.pending
    rw [flipped,Bool.or_false]
  · rw [SiblingWorld.members,SiblingWorld.members,hg',hg]
    exact list
  · intro y hy
    exact ended_update (fun he => ended_next he rfl) hy

theorem setDispatcher {at_ : Dispatcher} (passed : ∀ reason todo, at_ = .cancelling reason todo →
    ∀ y ∈ L.take maxSiblingsPerGroup, y ∈ todo ∨ (w.exec y).ended = true) :
    Dispatching d L (w.setDispatcher p at_) := by
  refine ⟨h.fired,h.settled,fun q => ?_⟩
  rw [SiblingWorld.setDispatcher_dispatcher]
  by_cases he : q = p
  · subst he
    rw [update_self]
    exact passed
  · rw [update_of_ne he]
    exact h.passed q

theorem readGroup : Dispatching d L (w.readGroup d p) := by
  unfold SiblingWorld.readGroup
  split
  · refine h.setDispatcher p fun reason todo he y hy => ?_
    cases he
    rcases h.members_cases with cleared | listed
    · exact .inr (h.settled (.inr cleared) y (mem_of_mem_take hy))
    · rw [listed]
      exact .inl hy
  all_goals exact h

theorem cancelSibling (keys : Keys) : Dispatching d L (w.cancelSibling p now keys) := by
  unfold SiblingWorld.cancelSibling
  split
  · rename_i reason sibling todo hp
    have sent : Dispatching d L (w.setExec sibling
        ((w.exec sibling).next ⟨now,.cancel (siblingCancel sibling reason keys)⟩)) := by
      refine h.of_group (group_setExec fun he => ?_) rfl (fun y => ended_update fun he => ended_next he rfl) rfl
      rw [deps_next rfl,he]
      rfl
    refine sent.setDispatcher p fun reason' todo' he y hy => ?_
    split at he
    · cases he
    · rename_i passed
      cases he
      rcases sent.passed p reason _ hp y hy with left | done
      · rcases mem_cons.mp left with rfl | left
        · right
          show (update w.exec y _ y).ended = true
          rw [update_self]
          exact ended_of_cancel passed
        · exact .inl left
      · exact .inr done
  all_goals exact h

theorem drained (settled : ∀ y ∈ L, (w.exec y).ended = true) : Dispatching d L (w.drainSiblingCancelGroup d) := by
  have ended : ∀ y, (w.exec y).ended = true → ((w.drainSiblingCancelGroup d).exec y).ended = true :=
    fun y => ended_update id
  obtain ⟨g,hg,fired⟩ := h.fired
  refine ⟨⟨{ g with cancelSiblingsPending := none },?_,fired.policyVariant,fired.groupState,.inl rfl⟩,?_,?_⟩
  · show (update w.exec d _ d).store.deps.edgeGroup = _
    rw [update_self]
    exact congrArg (Option.map _) hg
  · exact fun _ y hy => ended y (settled y hy)
  · exact fun p reason todo hp y hy => (h.passed p reason todo hp y hy).imp_right (ended y)

theorem drainGroup (short : L.drop maxSiblingsPerGroup ⊆ L.take maxSiblingsPerGroup)
    (p : Nat) : Dispatching d L (w.drainGroup d p) := by
  unfold SiblingWorld.drainGroup
  split
  · rename_i reason hp
    have first : ∀ y ∈ L.take maxSiblingsPerGroup, (w.exec y).ended = true := by
      intro y hy
      rcases h.passed p reason [] hp y hy with left | done
      · cases left
      · exact done
    have settled : ∀ y ∈ L, (w.exec y).ended = true := by
      intro y hy
      rw [← take_append_drop maxSiblingsPerGroup L] at hy
      rcases mem_append.mp hy with hy | hy
      · exact first y hy
      · exact first y (short hy)
    exact (h.drained settled).setDispatcher p fun _ _ he => by cases he
  all_goals exact h

theorem reconcile : Dispatching d L (w.reconcileSiblingCancelGroup d) := by
  unfold SiblingWorld.reconcileSiblingCancelGroup
  split
  · exact h
  · split
    · rename_i cleared
      exact ⟨h.fired,fun _ => (h.settled (.inr cleared)),h.passed⟩
    · rename_i siblings listed
      obtain rfl : siblings = L := by
        rcases h.members_cases with cleared | same
        · rw [listed] at cleared
          cases cleared
        · rw [listed] at same
          cases same
          rfl
      split
      · rename_i all
        exact h.drained fun y hy => all_eq_true.mp all y hy
      · exact h

theorem next (short : L.drop maxSiblingsPerGroup ⊆ L.take maxSiblingsPerGroup)
    {s : SiblingStep} (aside : s.aside d) : Dispatching d L (siblingNext d s w) := by
  cases s with
  | call =>
    refine h.of_group (group_setExec fun he => ?_) rfl (fun y => ended_update fun he => ended_next he aside.1) rfl
    rw [deps_next (aside.2 he),he]
    rfl
  | purge =>
    refine h.of_group (group_setExec fun he => ?_) rfl (fun y => ended_update fun _ => ended_purge _) rfl
    rw [he]
    rfl
  | resolve now a => exact h.resolve now a
  | pick p =>
    unfold siblingNext
    dsimp only
    split
    · exact h.setDispatcher p fun _ _ he => by cases he
    · exact h
  | read p => exact h.readGroup p
  | cancel p now keys => exact h.cancelSibling p now keys
  | drain p => exact h.drainGroup short p
  | giveUp p => exact h.setDispatcher p fun _ _ he => by cases he
  | reconcile => exact h.reconcile

theorem run (short : L.drop maxSiblingsPerGroup ⊆ L.take maxSiblingsPerGroup)
    {steps : List SiblingStep} (aside : ∀ s ∈ steps, s.aside d) : Dispatching d L (runFrom (siblingNext d) w steps) :=
  Along.invariant (P := fun _ s => s.aside d) (fun _ _ h aside => h.next short aside) h
    (Along.of_forall aside _)

end Dispatching

theorem dispatching_of_flip (idle : ∀ p, w.dispatcher p = .idle) (fresh : w.pending = false)
    (flip : (w.resolve d now a).pending = true) :
    Dispatching d w.running (w.resolve d now a) ∧ (w.resolve d now a).members d = some w.running := by
  have flips : ({ a with runningSiblings := w.running } : ResolveArgs).flips (w.exec d).store = true := by
    have flip : (w.pending || ({ a with runningSiblings := w.running } : ResolveArgs).flips
      (w.exec d).store) = true := flip
    rwa [fresh,Bool.false_or] at flip
  obtain ⟨g,hg,fired,list⟩ := flips_records now flips
  have group : (w.resolve d now a).group d = some g := by
    show (update w.exec d _ d).store.deps.edgeGroup = _
    rw [update_self]
    exact hg
  have members : (w.resolve d now a).members d = some w.running := by
    rw [SiblingWorld.members,group]
    exact list
  refine ⟨⟨⟨g,group,fired⟩,?_,?_⟩,members⟩
  · rintro (gone | gone)
    · rw [flip] at gone
      cases gone
    · rw [members] at gone
      cases gone
  · intro p reason todo hp
    rw [show (w.resolve d now a).dispatcher p = .idle from idle p] at hp
    cases hp

/-! A dispatcher that is not disturbed. -/

private theorem cancel_passes (sibling reason : String) (keys : Keys) (now : Int) (s : Store) :
    ofReply (step ⟨now,.cancel (siblingCancel sibling reason keys)⟩ s).1 ≠ .transientError := by
  change ofReply (commit s (cancelExecution (siblingCancel sibling reason keys) now s)).1 ≠ _
  unfold cancelExecution
  cases hc : s.core with
  | none => simp [demand,bind,Except.bind,ofReply]
  | some c =>
    by_cases ht : c.lifecyclePhase = .terminal
    · simp [demand,ensure,ht,bind,Except.bind,ofReply,ExecCore.notActive]
    · simp [demand,ensure,ht,bind,Except.bind,ofReply,siblingCancel,pure,Except.pure]

private theorem cancel_run (reason : String) (todo : List String) (hp : w.dispatcher p = .cancelling reason todo) :
    let w' := runFrom (siblingNext d) w (todo.map fun _ => .cancel p 0 {})
    w'.dispatcher p = .cancelling reason [] ∧ ∀ y, y ∉ todo → w'.exec y = w.exec y := by
  induction todo generalizing w with
  | nil => exact ⟨hp,fun _ _ => rfl⟩
  | cons sibling todo ih =>
    have passes := cancel_passes sibling reason {} 0 (w.exec sibling).store
    have first : siblingNext d (.cancel p 0 {}) w =
        (w.setExec sibling ((w.exec sibling).next ⟨0,.cancel (siblingCancel sibling reason {})⟩)).setDispatcher p
          (.cancelling reason todo) := by
      simp only [siblingNext,SiblingWorld.cancelSibling,hp]
      rw [if_neg passes]
    obtain ⟨done,others⟩ := ih (w := siblingNext d (.cancel p 0 {}) w) (by
      rw [first]
      exact update_self ..)
    refine ⟨done,fun y hy => ?_⟩
    obtain ⟨hne,hy⟩ := not_or.mp (mt mem_cons.mpr hy)
    refine (others y hy).trans ?_
    rw [first]
    exact update_of_ne hne ..

private theorem read_run (pending : w.pending = true) (listed : w.members d = some L) :
    let w' := runFrom (siblingNext d) w [.pick p,.read p]
    (∃ reason, w'.dispatcher p = .cancelling reason (L.take maxSiblingsPerGroup)) ∧ w'.exec = w.exec := by
  have picked : siblingNext d (.pick p) w = w.setDispatcher p .reading := if_pos pending
  have reading : (w.setDispatcher p .reading).dispatcher p = .reading := update_self ..
  have listed' : (w.setDispatcher p .reading).members d = some L := listed
  show (∃ reason, (siblingNext d (.read p) (siblingNext d (.pick p) w)).dispatcher p = _) ∧
    (siblingNext d (.read p) (siblingNext d (.pick p) w)).exec = _
  rw [picked]
  refine ⟨?_,by simp only [siblingNext,SiblingWorld.readGroup]; split <;> rfl⟩
  simp only [siblingNext,SiblingWorld.readGroup,reading,listed',Option.getD_some]
  exact ⟨_,update_self ..⟩

theorem drain_leaves (pending : w.pending = true) (listed : w.members d = some L)
    (beyond : y ∉ L.take maxSiblingsPerGroup) :
    ∃ steps : List SiblingStep, (∀ s ∈ steps, s.aside d) ∧ (runFrom (siblingNext d) w steps).cleared d ∧
      ((runFrom (siblingNext d) w steps).exec y).ended = (w.exec y).ended := by
  obtain ⟨⟨reason,taken⟩,same⟩ := read_run 0 pending listed
  obtain ⟨done,others⟩ := cancel_run (d := d) 0 reason _ taken
  let cancels : List SiblingStep := (L.take maxSiblingsPerGroup).map fun _ => .cancel 0 0 {}
  refine ⟨[.pick 0,.read 0] ++ cancels ++ [.drain 0],?_,?_⟩
  · intro s hs
    simp only [cancels,mem_append,mem_cons,mem_map,not_mem_nil,or_false] at hs
    obtain ((rfl | rfl) | ⟨_,_,rfl⟩) | rfl := hs <;> trivial
  · rw [runFrom_append,runFrom_append]
    let w' := runFrom (siblingNext d) (runFrom (siblingNext d) w [.pick 0,.read 0]) cancels
    have drains : runFrom (siblingNext d) w' [.drain 0] = (w'.drainSiblingCancelGroup d).setDispatcher 0 .idle := by
      simp only [runFrom,siblingNext,SiblingWorld.drainGroup]
      rw [show w'.dispatcher 0 = .cancelling reason [] from done]
    have kept : (w'.exec y).ended = (w.exec y).ended := by rw [show w'.exec y = _ from others y beyond,same]
    rw [drains]
    refine ⟨.inl rfl,?_⟩
    show (update w'.exec d (w'.exec d).clearSiblings y).ended = _
    by_cases hy : y = d
    · subst hy
      rw [update_self]
      exact kept
    · rw [update_of_ne hy]
      exact kept

end

namespace Client

def upstream (n : Nat) : String := ofList (List.replicate (n + 1) 'u')

/-- A child that any upstream releases, with an edge from the upstream x. -/
def anyOfChild : Execution :=
  .of [create 10,⟨11,.setEdgeGroupPolicy { policyVariant := .anyOf, onSatisfied := .cancelRemaining }⟩,
    ⟨12,.applyDependency { flowId := "f", edgeId := "x" }⟩]

def completed : Execution := .of [create 10,grant 11,claim 12 "l1" "a1",complete 13 ⟨"l1","1","a1"⟩]

/-- The child waits for x, which has completed, and for the upstreams with lower numbers. -/
def fanIn (n : Nat) : SiblingWorld where
  exec eid := if eid = "d" then anyOfChild else if eid = "x" then completed else .of [create 10]
  incoming := "x" :: (List.range n).map upstream

def success : ResolveArgs := { edgeId := "x", upstreamOutcome := .success, nowMs := 20 }

private theorem upstream_inj {m n : Nat} (h : upstream m = upstream n) : m = n := by
  have lists := congrArg toList h
  simp only [upstream,toList_ofList] at lists
  have lengths := congrArg List.length lists
  simpa using lengths

variable (n k : Nat)

theorem upstream_ne {c : Char} (hc : c ≠ 'u') : upstream n ≠ ofList [c] := by
  intro same
  have lists := congrArg toList same
  simp only [upstream,toList_ofList,replicate_succ,List.cons.injEq] at lists
  exact hc lists.1.symm

theorem fanIn_waiting : (fanIn n).exec (upstream k) = .of [create 10] := by
  have child : upstream k ≠ "d" := upstream_ne k (by decide)
  have done : upstream k ≠ "x" := upstream_ne k (by decide)
  show (if _ then _ else if _ then _ else _) = _
  rw [if_neg child,if_neg done]

theorem fanIn_running : (fanIn n).running = (List.range n).map upstream := by
  have done : ((fanIn n).exec "x").ended = true := by
    show completed.ended = true
    decide +kernel
  have waiting : ∀ y ∈ (List.range n).map upstream, (!((fanIn n).exec y).ended) = true := by
    intro y hy
    obtain ⟨k,-,rfl⟩ := mem_map.mp hy
    rw [fanIn_waiting]
    decide +kernel
  show List.filter _ ("x" :: _) = _
  rw [filter_cons_of_neg (by simp [done]),filter_eq_self.mpr waiting]

private theorem fanIn_apart : "d" ∉ (fanIn n).incoming := by
  intro h
  obtain same | later := mem_cons.mp h
  · exact absurd same (by decide)
  · obtain ⟨k,-,same⟩ := mem_map.mp later
    exact upstream_ne k (by decide) same

theorem fanIn_flips : (siblingNext "d" (.resolve 20 success) (fanIn n)).pending = true := by
  show ResolveArgs.flips success anyOfChild.store = true
  decide +kernel

private theorem fanIn_undisturbed : ((siblingNext "d" (.resolve 20 success) (fanIn n)).exec (upstream k)).ended = false := by
  show (update (fanIn n).exec "d" _ _).ended = false
  rw [update_of_ne (upstream_ne k (by decide)),fanIn_waiting]
  decide +kernel

end Client

end FlowFabric
