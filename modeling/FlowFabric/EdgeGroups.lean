import FlowFabric.Foundation.Label
import FlowFabric.Gate

/-! The counters of an edge group and the edges that they count. -/
namespace FlowFabric
open Foundation EdgeGroup Option Finset Store

namespace DependencyKeys

def stateOf (d : DependencyKeys) (edgeId : String) : Option DependencyState := (d.dependency edgeId).map (·.state)

def partialGroup (d : DependencyKeys) : Option EdgeGroup :=
  d.edgeGroup.filter fun g => decide (g.policyVariant ≠ .allOf)

end DependencyKeys

namespace EdgeGroup

def counted (g : EdgeGroup) : Int := g.succeeded + g.failed + g.skipped

/-- What a group that has counted the outcome decides. It does so once. -/
def decides (g : EdgeGroup) : GroupState :=
  if g.n < g.counted ∨ g.groupState ≠ .pending then .pending else g.verdict

def resolve (g : EdgeGroup) (a : ResolveArgs) : EdgeGroup :=
  let g := g.bump a.upstreamOutcome
  if g.decides = .pending then g else g.fire g.decides a.runningSiblings

end EdgeGroup

def ResolveArgs.decides (a : ResolveArgs) (d : DependencyKeys) : GroupState :=
  match d.partialGroup with
  | some g => (g.bump a.upstreamOutcome).decides
  | none =>
    if a.upstreamOutcome ≠ .success then .impossible
    else if d.unsatisfiedRequiredCount - 1 = 0 then .satisfied else .pending

def DependencyKeys.resolve (d : DependencyKeys) (a : ResolveArgs) : DependencyKeys :=
  match d.partialGroup with
  | some g => { d.settle a.edgeId a.upstreamOutcome.edgeState with edgeGroup := some (g.resolve a) }
  | none => if a.upstreamOutcome = .success then d.satisfy a.edgeId else d.preclude a.edgeId

def Store.follow (s : Store) (a : ResolveArgs) : GroupState → Store
  | .satisfied => s.releaseWaiting
  | .impossible => (skipUnfinished a s).2
  | _ => s

theorem EdgeGroup.verdict_cases (g : EdgeGroup) :
    g.verdict = .satisfied ∨ g.verdict = .impossible ∨ g.verdict = .pending := by
  unfold verdict
  split
  · exact .inl rfl
  · split
    · exact .inr (.inl rfl)
    · exact .inr (.inr rfl)

variable {a : ResolveArgs} {d d' : DependencyKeys} {s t : Store} {g : EdgeGroup} {now : Int}
  {edges : Finset String} {es : List String} {e : String} {op : Op}

private theorem resolveDependencyQuorum_follow (dep : Dependency) (g : EdgeGroup) (s : Store) :
    (resolveDependencyQuorum a dep g s).2 = (s.setDeps { s.deps.settle a.edgeId a.upstreamOutcome.edgeState with
        edgeGroup := some (g.resolve a) }).follow a (g.bump a.upstreamOutcome).decides := by
  unfold resolveDependencyQuorum resolve decides counted
  dsimp only
  split
  · rename_i hn
    simp [hn,follow]
  · rename_i hn
    split
    · rename_i hf
      simp [hf,follow]
    · rename_i hf
      rw [if_neg (not_or.mpr ⟨hn,hf⟩)]
      obtain hv | hv | hv := (g.bump a.upstreamOutcome).verdict_cases <;> simp [hv,follow]

theorem next_resolve (a : ResolveArgs) (now : Int) (s : Store) : next ⟨now,.resolveDependency a⟩ s =
      if s.deps.isOpen a.edgeId then (s.setDeps (s.deps.resolve a)).follow a (a.decides s.deps) else s := by
  change (commit s (resolveDependency a s)).2 = _
  unfold resolveDependency DependencyKeys.isOpen
  cases hd : s.deps.dependency a.edgeId with
  | none => rfl
  | some dep =>
    change (commit s (if dep.state ≠ .unsatisfied then pure (.ok ["already_resolved"],s)
      else match s.deps.partialGroup with
        | some g => pure (resolveDependencyQuorum a dep g s)
        | none => pure (if a.upstreamOutcome = .success then satisfyEdge a dep s else failEdge a s))).2 = _
    have hopen : (some dep).any (fun p => decide (p.state = .unsatisfied)) ↔ dep.state = .unsatisfied := by simp
    by_cases hu : dep.state = .unsatisfied
    · rw [if_neg (not_not.mpr hu),if_pos (hopen.mpr hu)]
      unfold DependencyKeys.resolve ResolveArgs.decides
      cases s.deps.partialGroup with
      | some g => exact resolveDependencyQuorum_follow dep g s
      | none =>
        by_cases ho : a.upstreamOutcome = .success
        · simp only [ho,if_true,ne_eq,not_true,if_false]
          change (satisfyEdge a dep s).2 = _
          unfold satisfyEdge
          by_cases hr : s.deps.unsatisfiedRequiredCount - 1 = 0 <;>
            simp [DependencyKeys.satisfy,hr,follow]
        · simp only [ho,if_false,ne_eq,not_false_eq_true,if_true]
          rfl
    · rw [if_pos hu,if_neg (hopen.not.mpr hu)]
      rfl

theorem TerminalOutcome.edgeState_cases (outcome : TerminalOutcome) :
    (outcome = .success ∧ outcome.edgeState = .satisfied) ∨ (outcome ≠ .success ∧ outcome.edgeState = .impossible) := by
  cases outcome <;> simp [TerminalOutcome.edgeState]

namespace DependencyKeys

theorem resolve_dependency (d : DependencyKeys) (a : ResolveArgs) :
    (d.resolve a).dependency = (d.settle a.edgeId a.upstreamOutcome.edgeState).dependency := by
  unfold resolve
  split
  · rfl
  · obtain ⟨ho,hs⟩ | ⟨ho,hs⟩ := a.upstreamOutcome.edgeState_cases
    · rw [if_pos ho,hs,satisfy]
    · rw [if_neg ho,hs,preclude]

theorem resolve_unresolved (d : DependencyKeys) (a : ResolveArgs) :
    (d.resolve a).unresolved = d.unresolved.erase a.edgeId := by
  unfold resolve
  split
  · rfl
  · split <;> rfl

theorem isOpen_iff : d.isOpen e ↔ ∃ dep, d.dependency e = some dep ∧ dep.state = .unsatisfied := by
  simp [isOpen,any_eq_true]

theorem stateOf_resolve (h : d.isOpen a.edgeId) (e : String) : (d.resolve a).stateOf e =
      if e = a.edgeId then some a.upstreamOutcome.edgeState else d.stateOf e := by
  obtain ⟨dep,hdep,-⟩ := isOpen_iff.mp h
  by_cases he : e = a.edgeId <;> simp [stateOf,resolve_dependency,settle,he,hdep]

/-- The group, or the one that the first edge makes. -/
def group (d : DependencyKeys) : EdgeGroup := d.edgeGroup.getD { policyVariant := .allOf, n := 0 }

end DependencyKeys

structure EdgeGroup.Counts (g g' : EdgeGroup) (outcome : TerminalOutcome) : Prop where
  n : g'.n = g.n
  policyVariant : g'.policyVariant = g.policyVariant
  k : g'.k = g.k
  succeeded : g'.succeeded = g.succeeded + if outcome.edgeState = .satisfied then 1 else 0
  precluded : g'.failed + g'.skipped = g.failed + g.skipped + if outcome.edgeState = .impossible then 1 else 0

theorem EdgeGroup.bump_counts (g : EdgeGroup) (outcome : TerminalOutcome) : g.Counts (g.bump outcome) outcome := by
  cases outcome <;> constructor <;> simp [bump,TerminalOutcome.edgeState] <;> omega

theorem EdgeGroup.bump_groupState (g : EdgeGroup) (outcome : TerminalOutcome) :
    (g.bump outcome).groupState = g.groupState := by
  cases outcome <;> rfl

theorem EdgeGroup.resolve_counts (g : EdgeGroup) (a : ResolveArgs) : g.Counts (g.resolve a) a.upstreamOutcome := by
  obtain ⟨hn,hp,hk,hs,hf⟩ := g.bump_counts a.upstreamOutcome
  unfold resolve
  dsimp only
  split
  · exact ⟨hn,hp,hk,hs,hf⟩
  · exact ⟨hn,hp,hk,hs,hf⟩

theorem resolve_edgeGroup (hg : d.edgeGroup = some g) (a : ResolveArgs) :
    ∃ g', (d.resolve a).edgeGroup = some g' ∧ g.Counts g' a.upstreamOutcome := by
  unfold DependencyKeys.resolve
  split
  · rename_i g' hp
    obtain rfl : g = g' := by
      simp only [DependencyKeys.partialGroup,hg,filter_eq_some_iff,Option.some.injEq] at hp
      exact hp.1
    exact ⟨_,rfl,g.resolve_counts a⟩
  · obtain ⟨ho,hs⟩ | ⟨ho,hs⟩ := a.upstreamOutcome.edgeState_cases
    · rw [if_pos ho,DependencyKeys.satisfy,hg]
      refine ⟨_,rfl,?_⟩
      constructor <;> simp [hs]
    · rw [if_neg ho,DependencyKeys.preclude,hg]
      refine ⟨_,rfl,?_⟩
      constructor <;> simp [hs]
      omega

structure EdgeGroup.Mirrors (g : EdgeGroup) (d : DependencyKeys) (edges : Finset String) : Prop where
  n : g.n = edges.card
  succeeded : g.succeeded = tally edges d.stateOf (some .satisfied)
  precluded : g.failed + g.skipped = tally edges d.stateOf (some .impossible)
  unresolved : g.n - g.counted = d.unresolved.card

/-- The edges that have been applied, the unresolved ones among them and the counters of
their group. -/
structure DependencyKeys.Mirrored (d : DependencyKeys) (edges : Finset String) : Prop where
  recorded : ∀ e, (d.dependency e).isSome ↔ e ∈ edges
  listed : ∀ e, e ∈ d.unresolved ↔ d.isOpen e
  counters : d.group.Mirrors d edges

namespace DependencyKeys.Mirrored

theorem mirrors (h : d.Mirrored edges) (hg : d.edgeGroup = some g) : g.Mirrors d edges := by
  have counters := h.counters
  rwa [group,hg,getD_some] at counters

theorem empty (h : d.Mirrored ∅) : d.unresolved = ∅ := by
  apply eq_empty_of_forall_notMem
  intro e he
  obtain ⟨dep,hd,-⟩ := isOpen_iff.mp ((h.listed e).mp he)
  exact notMem_empty e ((h.recorded e).mp (by simp [hd]))

variable (h : d.Mirrored edges)
include h

theorem blank (unused : d.group.n ≤ 0) (hn : g.n = 0) (hs : g.succeeded = 0)
    (hf : g.failed = 0) (hk : g.skipped = 0) : Mirrored { d with edgeGroup := some g } edges := by
  obtain rfl : edges = ∅ := by
    have := h.counters.n
    exact card_eq_zero.mp (by omega)
  refine ⟨h.recorded,h.listed,hn,?_,?_,?_⟩
  · exact hs.trans (by simp)
  · change g.failed + g.skipped = _
    simp [hf,hk]
  · change g.n - g.counted = _
    simp [counted,hn,hs,hf,hk,h.empty]

theorem apply {a : ApplyArgs} (fresh : d.dependency a.edgeId = none) :
    (d.apply a).Mirrored (insert a.edgeId edges) := by
  have new : a.edgeId ∉ edges := fun he => by simpa [fresh] using (h.recorded _).mpr he
  have state (e : String) (he : e ∈ edges) : (d.apply a).stateOf e = d.stateOf e := by
    have hne : e ≠ a.edgeId := fun hea => new (hea ▸ he)
    simp [stateOf,DependencyKeys.apply,hne]
  have count (b : DependencyState) (hb : b ≠ .unsatisfied) :
      tally (insert a.edgeId edges) (d.apply a).stateOf (some b) = tally edges d.stateOf (some b) := by
    rw [tally_insert new,tally_congr state]
    simp [stateOf,DependencyKeys.apply,hb.symm]
  have hgroup : (d.apply a).group = { d.group with n := d.group.n + 1 } := by
    cases hg : d.edgeGroup <;> simp [group,DependencyKeys.apply,hg]
  have closed : a.edgeId ∉ d.unresolved := fun hu => by simpa [isOpen,fresh] using (h.listed _).mp hu
  obtain ⟨hn,hs,hf,hu⟩ := h.counters
  refine ⟨fun e => ?_,fun e => ?_,?_⟩
  · by_cases he : e = a.edgeId
    · simp [DependencyKeys.apply,he]
    · simpa [DependencyKeys.apply,he] using h.recorded e
  · by_cases he : e = a.edgeId
    · simp [DependencyKeys.apply,isOpen,he]
    · simpa [DependencyKeys.apply,isOpen,he] using h.listed e
  · rw [hgroup]
    refine ⟨?_,?_,?_,?_⟩
    · simp only [card_insert_of_notMem new,hn]
      push_cast
      rfl
    · rw [count .satisfied (by decide)]
      exact hs
    · rw [count .impossible (by decide)]
      exact hf
    · simp only [DependencyKeys.apply,card_insert_of_notMem closed]
      simp only [counted] at hu ⊢
      omega

theorem grouped (he : e ∈ edges) : ∃ g, d.edgeGroup = some g ∧ g.Mirrors d edges := by
  have counters := h.counters
  unfold group at counters
  cases hg : d.edgeGroup with
  | some g => exact ⟨g,rfl,by simpa [hg] using counters⟩
  | none =>
    have hn := counters.n
    simp only [hg,getD_none] at hn
    have := card_pos.mpr ⟨e,he⟩
    omega

theorem mem_of_isOpen (ho : d.isOpen e) : e ∈ edges := by
  obtain ⟨dep,hdep,-⟩ := isOpen_iff.mp ho
  exact (h.recorded e).mp (by simp [hdep])

theorem resolve (ho : d.isOpen a.edgeId) : (d.resolve a).Mirrored edges := by
  have he := h.mem_of_isOpen ho
  obtain ⟨dep,hdep,hun⟩ := isOpen_iff.mp ho
  have hstate : d.stateOf a.edgeId = some .unsatisfied := by simp [stateOf,hdep,hun]
  obtain ⟨g,hg,hn,hs,hf,hu⟩ := h.grouped he
  obtain ⟨g',hg',counts⟩ := resolve_edgeGroup hg a
  have count (b : DependencyState) (hb : b ≠ .unsatisfied) : tally edges (d.resolve a).stateOf (some b) =
        tally edges d.stateOf (some b) + if a.upstreamOutcome.edgeState = b then 1 else 0 := by
    have := tally_relabel (g := (d.resolve a).stateOf) he (fun x _ hx => by rw [stateOf_resolve ho,if_neg hx])
      (some b)
    rw [stateOf_resolve ho,hstate,if_pos rfl] at this
    simpa [hb.symm] using this
  have left := card_erase_add_one ((h.listed _).mpr ho)
  refine ⟨fun e => ?_,fun e => ?_,?_⟩
  · rw [← h.recorded e,resolve_dependency]
    by_cases hea : e = a.edgeId <;> simp [settle,hea]
  · have := h.listed e
    rw [resolve_unresolved]
    by_cases hea : e = a.edgeId
    · have final : a.upstreamOutcome.edgeState ≠ .unsatisfied := by
        obtain ⟨-,hs⟩ | ⟨-,hs⟩ := a.upstreamOutcome.edgeState_cases <;> simp [hs]
      simp [hea,isOpen,resolve_dependency,settle,hdep,final]
    · simpa [hea,isOpen,resolve_dependency,settle] using this
  · rw [group,hg',getD_some]
    refine ⟨counts.n.trans hn,?_,?_,?_⟩
    · rw [count _ (by decide),counts.succeeded,hs]
      push_cast
      rfl
    · rw [count _ (by decide),counts.precluded,hf]
      push_cast
      rfl
    · have hn' := counts.n
      have hs' := counts.succeeded
      have hf' := counts.precluded
      rw [resolve_unresolved]
      simp only [counted] at hu ⊢
      obtain ⟨-,ho⟩ | ⟨-,ho⟩ := a.upstreamOutcome.edgeState_cases <;> simp [ho] at hs' hf' <;> omega

end DependencyKeys.Mirrored

namespace DependencyKeys

private theorem reopen_isSome (d : DependencyKeys) (es : List String) (e : String) :
    ((d.reopen es).1.dependency e).isSome = (d.dependency e).isSome := by
  fun_induction d.reopen es with
  | case1 d => rfl
  | case2 d x rest ref hd d1 n hr ih =>
    rw [hr] at ih
    refine ih.trans ?_
    by_cases hx : e = x <;> simp [hx,hd]
  | case3 d x rest ref hd d1 n hr ih => rwa [hr] at ih
  | case4 d x rest hi hu ih => exact ih

theorem reopen_impossible (d : DependencyKeys) (es : List String) (e : String) :
    (d.reopen es).1.stateOf e = some .impossible ↔ d.stateOf e = some .impossible ∧ e ∉ es := by
  fun_induction d.reopen es with
  | case1 d => simp
  | case2 d x rest ref hd d1 n hr ih =>
    rw [hr] at ih
    refine ih.trans ?_
    by_cases hx : e = x <;> simp [stateOf,hx]
  | case3 d x rest ref hd d1 n hr ih =>
    rw [hr] at ih
    refine ih.trans ?_
    by_cases hx : e = x <;> simp [stateOf,hx,hd]
  | case4 d x rest hi hu ih =>
    refine ih.trans ?_
    by_cases hx : e = x
    · have possible : d.stateOf x ≠ some .impossible := by
        simp only [stateOf,ne_eq,map_eq_some_iff,not_exists,not_and]
        rintro ⟨state,ref⟩ hd rfl
        exact hi ref hd
      simp [hx,possible]
    · simp [hx]

private theorem reopen_eq_self (h : ∀ e ∈ es, d.stateOf e ≠ some .impossible) : (d.reopen es).1 = d := by
  fun_induction d.reopen es with
  | case1 d => rfl
  | case2 d x rest ref hd d1 n hr ih => exact absurd (by simp [stateOf,hd]) (h x (by simp))
  | case3 d x rest ref hd d1 n hr ih =>
    rw [hr] at ih
    exact ih fun e he => h e (by simp [he])
  | case4 d x rest hi hu ih => exact ih fun e he => h e (by simp [he])

theorem Mirrored.congr (h : d.Mirrored edges) (hd : d'.dependency = d.dependency)
    (hu : d'.unresolved = d.unresolved) (hg : d'.edgeGroup = d.edgeGroup) : d'.Mirrored edges := by
  obtain ⟨dependency,unresolved,m,n,edgeGroup⟩ := d'
  cases hd
  cases hu
  cases hg
  exact ⟨h.recorded,h.listed,h.counters.n,h.counters.succeeded,h.counters.precluded,h.counters.unresolved⟩

theorem Mirrored.not_reopen (h : d.Mirrored edges) (he : e ∈ es) (hi : d.stateOf e = some .impossible)
    (edges' : Finset String) : ¬ (d.reopen es).1.Mirrored edges' := by
  intro h'
  obtain rfl : edges = edges' := by
    ext x
    rw [← h.recorded,← h'.recorded,reopen_isSome]
  have hmem : e ∈ edges := by
    obtain ⟨dep,hdep,-⟩ := map_eq_some_iff.mp hi
    exact (h.recorded e).mp (by simp [hdep])
  have same : (d.reopen es).1.group = d.group := by rw [group,group,reopen_edgeGroup]
  have fewer : tally edges (d.reopen es).1.stateOf (some .impossible) < tally edges d.stateOf (some .impossible) := by
    apply card_lt_card
    refine ssubset_iff_of_subset (fun x hx => ?_) |>.mpr ⟨e,?_,?_⟩
    · simp only [mem_filter,reopen_impossible] at hx ⊢
      exact ⟨hx.1,hx.2.1⟩
    · simp [hmem,hi]
    · simp [reopen_impossible,he]
  have before := h.counters.precluded
  have after := h'.counters.precluded
  rw [same] at after
  omega

end DependencyKeys

/-- A replay passes its checks and takes a skipped flow member back to its edges. -/
def Store.replaysSkipped (s : Store) : Bool :=
  s.core.any fun c => decide (c.lifecyclePhase = .terminal ∧
    (maxReplayCount s.policy).le (.ofInt c.replayCount) = false ∧ c.terminalOutcome = .skipped ∧ c.flowId ≠ "")

private theorem next_replay_deps (a : ReplayArgs) (now : Int) (s : Store) : (next ⟨now,.replay a⟩ s).deps =
      if s.replaysSkipped then
        { (s.deps.reopen a.edgeIds).1 with
          unsatisfiedRequiredCount := (s.deps.reopen a.edgeIds).2, impossibleRequiredCount := 0 }
      else s.deps := by
  change (commit s (replayExecution a s)).2.deps = _
  unfold replayExecution replaysSkipped
  cases s.core with
  | none => rfl
  | some c =>
    by_cases hp : c.lifecyclePhase = .terminal <;>
      by_cases hr : (maxReplayCount s.policy).le (.ofInt c.replayCount) = false <;>
      by_cases hs : c.terminalOutcome = .skipped ∧ c.flowId ≠ "" <;>
      simp [demand,ensure,hp,hr,hs,bind,Except.bind,pure,Except.pure,replaySkipped,replayNormal]

theorem setEdgeGroupPolicy_blank {a : PolicyArgs} {reply : Reply}
    (h : setEdgeGroupPolicy a s = .ok (reply,t)) (hm : s.deps.Mirrored edges) : t.deps.Mirrored edges := by
  simp only [setEdgeGroupPolicy,bind_ok,ensure_ok] at h
  obtain ⟨_,-,_,-,_,-,_,unused,h⟩ := h
  split at h
  · cases h
    exact hm
  · cases h
    refine hm.blank ?_ rfl rfl rfl rfl
    cases hg : s.deps.edgeGroup <;> simp_all [DependencyKeys.group]

def Op.writesEdges : Op → Bool
  | .setEdgeGroupPolicy _ | .applyDependency _ | .resolveDependency _ | .replay _ => true
  | _ => false

theorem Effect.deps_eq (h : Effect s now op t) (hop : op.writesEdges = false) : t.deps = s.deps := by
  cases h with
  | cancelled a c => exact (cancelPhase_frame ..).1
  | expired a c => exact (expirePhase_frame ..).1
  | lapsed => unfold markExpired; split <;> rfl
  | signalResumed => unfold plainResume resumeSuspended; split <;> rfl
  | compositeResumed => unfold compositeResume resumeSuspended; split <;> rfl
  | _ => first | rfl | cases hop

theorem follow_deps (s : Store) (a : ResolveArgs) (v : GroupState) : (s.follow a v).deps = s.deps := by
  cases v with
  | satisfied =>
    change s.releaseWaiting.deps = s.deps
    unfold releaseWaiting
    split
    · split <;> rfl
    · rfl
  | impossible =>
    change (skipUnfinished a s).2.deps = s.deps
    unfold skipUnfinished
    split
    · split <;> rfl
    · rfl
  | _ => rfl

/-- A replay of a skipped flow member lists no impossible edge. -/
def Op.reopensNone (op : Op) (s : Store) : Bool :=
  match op with
  | .replay a => decide (s.replaysSkipped → ∀ e ∈ a.edgeIds, s.deps.stateOf e ≠ some .impossible)
  | _ => true

/-- The counters of the group and the unresolved ones are those of the applied edges. -/
def Store.mirrored (s : Store) : Prop := ∃ edges, s.deps.Mirrored edges

theorem mirrored_next (s : Store) (i : Call) (h : s.mirrored) : i.op.reopensNone s ↔ (next i s).mirrored := by
  obtain ⟨edges,h⟩ := h
  obtain ⟨now,op⟩ := i
  cases op with
  | setEdgeGroupPolicy =>
    refine iff_of_true rfl ⟨edges,?_⟩
    exact commit_induction (P := fun t => t.deps.Mirrored edges) h fun _ _ hok => setEdgeGroupPolicy_blank hok h
  | applyDependency a =>
    refine iff_of_true rfl ?_
    refine commit_induction (P := mirrored) ⟨edges,h⟩ fun _ t hok => ?_
    obtain rfl | ⟨c,-,fresh,rfl⟩ := applyDependencyToChild_ok hok
    · exact ⟨edges,h⟩
    · refine ⟨insert a.edgeId edges,?_⟩
      rw [blockChild_deps]
      exact h.apply fresh
  | resolveDependency =>
    refine iff_of_true rfl ⟨edges,?_⟩
    rw [next_resolve]
    split
    · rename_i ho
      rw [follow_deps]
      exact h.resolve ho
    · exact h
  | replay =>
    simp only [Op.reopensNone,decide_eq_true_eq,mirrored,next_replay_deps]
    split
    · rename_i hs
      constructor
      · intro hnone
        refine ⟨edges,h.congr ?_ ?_ ?_⟩ <;> simp [DependencyKeys.reopen_eq_self (hnone hs)]
      · rintro ⟨edges',h'⟩ - e he hi
        exact h.not_reopen he hi edges' (h'.congr rfl rfl rfl)
    · rename_i hs
      exact iff_of_true (fun hs' => absurd hs' hs) ⟨edges,h⟩
  | _ =>
    refine iff_of_true rfl ⟨edges,?_⟩
    rw [(next_effect _ s).deps_eq rfl]
    exact h

theorem DependencyKeys.Mirrored.has_room (h : d.Mirrored edges) (hg : d.edgeGroup = some g)
    (ho : d.isOpen e) (outcome : TerminalOutcome) : ¬ (g.bump outcome).n < (g.bump outcome).counted := by
  have room := card_pos.mpr ⟨e,(h.listed e).mpr ho⟩
  have hu := (h.mirrors hg).unresolved
  obtain ⟨hn,-,-,hs,hf⟩ := g.bump_counts outcome
  simp only [counted] at hu ⊢
  obtain ⟨-,hv⟩ | ⟨-,hv⟩ := outcome.edgeState_cases <;> simp [hv] at hs hf <;> omega

theorem skipUnfinished_reply (a : ResolveArgs) (s : Store) :
    ∃ fields, (skipUnfinished a s).1 = .ok ("impossible" :: fields) := by
  unfold skipUnfinished
  split
  · split <;> exact ⟨_,rfl⟩
  · exact ⟨_,rfl⟩

theorem resolveDependencyQuorum_reply {dep : Dependency} {details : List String}
    (h : (resolveDependencyQuorum a dep g s).1 = .err .invariantViolation details) :
    (g.bump a.upstreamOutcome).n < (g.bump a.upstreamOutcome).counted := by
  unfold resolveDependencyQuorum at h
  dsimp only at h
  split at h
  · rename_i hn
    exact hn
  · split at h
    · cases h
    · split at h
      · cases h
      · obtain ⟨fields,hr⟩ := skipUnfinished_reply a
          (s.setDeps { s.deps.settle a.edgeId a.upstreamOutcome.edgeState with
            edgeGroup := some ((g.bump a.upstreamOutcome).fire (g.bump a.upstreamOutcome).verdict
              a.runningSiblings) })
        exact nomatch hr.symm.trans h
      · cases h

theorem resolve_no_violation (h : s.mirrored) (now : Int) (a : ResolveArgs) (details : List String) :
    (step ⟨now,.resolveDependency a⟩ s).1 ≠ .err .invariantViolation details := by
  obtain ⟨edges,h⟩ := h
  intro hr
  change (commit s (resolveDependency a s)).1 = _ at hr
  unfold resolveDependency at hr
  cases hd : s.deps.dependency a.edgeId with
  | none =>
    rw [hd] at hr
    cases hr
  | some dep =>
    rw [hd] at hr
    change (commit s (if dep.state ≠ .unsatisfied then pure (.ok ["already_resolved"],s)
      else match s.deps.partialGroup with
        | some g => pure (resolveDependencyQuorum a dep g s)
        | none => pure (if a.upstreamOutcome = .success then satisfyEdge a dep s else failEdge a s))).1 = _ at hr
    split at hr
    · cases hr
    · rename_i hu
      split at hr
      · rename_i g hg
        have hg := (filter_eq_some_iff.mp hg).1
        have ho : s.deps.isOpen a.edgeId := DependencyKeys.isOpen_iff.mpr ⟨dep,hd,not_not.mp hu⟩
        exact h.has_room hg ho a.upstreamOutcome (resolveDependencyQuorum_reply hr)
      · change (if a.upstreamOutcome = .success then satisfyEdge a dep s else failEdge a s).1 = _ at hr
        split at hr
        · cases hr
        · obtain ⟨fields,hf⟩ := skipUnfinished_reply a (s.setDeps (s.deps.preclude a.edgeId))
          exact nomatch hf.symm.trans hr

theorem mirrored_start : (run []).mirrored := by
  refine ⟨∅,fun e => ?_,fun e => ?_,?_⟩
  · simp [run,runFrom]
  · simp [run,runFrom,DependencyKeys.isOpen]
  · constructor <;> simp [run,runFrom,DependencyKeys.group,counted]

theorem run_mirrored {calls : List Call} (h : Along next (fun s i => i.op.reopensNone s) (run []) calls) :
    (run calls).mirrored :=
  h.invariant (fun s i hs hi => (mirrored_next s i hs).mp hi) mirrored_start

/-- The counters of an edge group are those of its edges throughout a run exactly if no replay
of a skipped flow member makes an impossible edge unsatisfied again. They never exceed the number
of edges in such a run, and no resolution reports that they do. -/
theorem counters_mirror_edges_iff (calls : List Call) : (Throughout next Store.mirrored (run []) calls ↔
      Along next (fun s i => i.op.reopensNone s) (run []) calls) ∧
    (Along next (fun s i => i.op.reopensNone s) (run []) calls →
      (∀ g, (run calls).deps.edgeGroup = some g → g.succeeded + g.failed + g.skipped ≤ g.n) ∧
      ∀ now a details, (step ⟨now,.resolveDependency a⟩ (run calls)).1 ≠ .err .invariantViolation details) := by
  refine ⟨throughout_iff_along mirrored_next mirrored_start,fun h => ?_⟩
  have mirrored := run_mirrored h
  refine ⟨fun g hg => ?_,resolve_no_violation mirrored⟩
  obtain ⟨edges,mirrored⟩ := mirrored
  have := (mirrored.mirrors hg).unresolved
  simp only [counted] at this
  omega

/-- A quorum of two out of three with one failure. -/
theorem quorum_with_one_failure_is_mirrored : let calls : List Call :=
      [Client.create 10,⟨11,.setEdgeGroupPolicy { policyVariant := .quorum, onSatisfied := .letRun, k := 2 }⟩,
        ⟨12,.applyDependency { flowId := "f", edgeId := "u" }⟩,⟨13,.applyDependency { flowId := "f", edgeId := "v" }⟩,
        ⟨14,.applyDependency { flowId := "f", edgeId := "w" }⟩,
        ⟨15,.resolveDependency { edgeId := "v", upstreamOutcome := .failed, nowMs := 15 }⟩,
        ⟨16,.resolveDependency { edgeId := "u", upstreamOutcome := .success, nowMs := 16 }⟩,
        ⟨17,.resolveDependency { edgeId := "w", upstreamOutcome := .success, nowMs := 17 }⟩]
    Throughout next Store.mirrored (run []) calls ∧
      (∀ g, (run calls).deps.edgeGroup = some g → g.succeeded + g.failed + g.skipped ≤ g.n) ∧
      (run calls).core.map (·.eligibilityState) = some .eligibleNow := by
  intro calls
  have quiet : Along next (fun s i => i.op.reopensNone s) (run []) calls := by decide +kernel
  obtain ⟨throughout,bounded⟩ := counters_mirror_edges_iff calls
  exact ⟨throughout.mpr quiet,(bounded quiet).1,by decide +kernel⟩

/-- The only upstream of an any-of group fails, the child is skipped and replayed with the edge,
and the upstream then succeeds. -/
theorem replayed_edge_is_counted_twice :
    let s := run [Client.create 10,⟨11,.addToFlow { flowId := "f", executionId := "e" }⟩,
      ⟨12,.setEdgeGroupPolicy { policyVariant := .anyOf, onSatisfied := .letRun }⟩,
      ⟨13,.applyDependency { flowId := "f", edgeId := "u" }⟩,
      ⟨14,.resolveDependency { edgeId := "u", upstreamOutcome := .failed, nowMs := 14 }⟩,
      ⟨15,.replay { executionId := "e", edgeIds := ["u"] }⟩]
    let i : Call := ⟨16,.resolveDependency { edgeId := "u", upstreamOutcome := .success, nowMs := 16 }⟩
    s.deps.edgeGroup.map (fun g => (g.n,g.succeeded,g.failed + g.skipped)) = some (1,0,1) ∧
      s.deps.stateOf "u" = some .unsatisfied ∧ s.deps.unresolved.card = 1 ∧
      (step i s).1 = .err .invariantViolation ["edgegroup counters exceed n: 2/1"] ∧
      (next i s).deps.edgeGroup.map (fun g => g.succeeded + g.failed + g.skipped) = some 2 ∧
      (next i s).core.map (·.eligibilityState) = some .blockedByDependencies := by
  decide +kernel

end FlowFabric
