import FlowFabric.Verdict

/-! A group that is judged while its edges are still being applied. -/
namespace FlowFabric
open Foundation Finset Store Client DependencyKeys

def Store.skipped (s : Store) : Bool := s.core.any fun c => decide (c.terminalOutcome = .skipped)

/-- The call applies one of the edges or resolves one with the outcome of its upstream. -/
def Call.stages (outcome : String → TerminalOutcome) (edges : Finset String) (i : Call) : Prop :=
  (∃ a, i.op = .applyDependency a ∧ a.edgeId ∈ edges) ∨ i.reports outcome edges

/-- Failures that are too many for the edges applied so far are too many for all edges. -/
def Op.heedsEdges (edges : Finset String) (op : Op) (s : Store) : Bool :=
  match op with
  | .resolveDependency a => s.deps.edgeGroup.all fun g =>
    let counted := g.bump a.upstreamOutcome
    decide (s.deps.isOpen a.edgeId → g.groupState = .pending → counted.succeeded < g.threshold →
      g.n - g.threshold < counted.failed + counted.skipped →
      (edges.card : Int) - g.threshold < counted.failed + counted.skipped)
  | _ => true

structure Growing (outcome : String → TerminalOutcome) (edges : Finset String) (k : Int) (g : EdgeGroup)
    (c : ExecCore) (s : Store) : Prop where
  mirrored : ∃ applied, s.deps.Mirrored applied ∧ applied ⊆ edges
  group : s.deps.edgeGroup = some g
  policy : g.policyVariant ≠ .allOf
  threshold : g.threshold = k
  known : ∀ e, s.deps.stateOf e = some .impossible → outcome e ≠ .success
  core : s.core = some c
  ended : c.terminalOutcome = .none ∨ c.terminalOutcome = .skipped

variable {a : ResolveArgs} {s : Store} {g g' : EdgeGroup} {c : ExecCore}
  {outcome : String → TerminalOutcome} {edges : Finset String} {k : Int} {e : String}

namespace Growing

variable (h : Growing outcome edges k g c s)
include h

private theorem successes_le : (tally edges outcome .success : Int) ≤ edges.card - (g.failed + g.skipped) := by
  obtain ⟨applied,mirrored,hsub⟩ := h.mirrored
  have counters := mirrored.mirrors h.group
  have disjoint : Disjoint (edges.filter fun e => outcome e = .success)
      (applied.filter fun e => s.deps.stateOf e = some .impossible) := by
    rw [disjoint_left]
    intro e he hi
    exact h.known e (mem_filter.mp hi).2 (mem_filter.mp he).2
  have inside : (edges.filter fun e => outcome e = .success) ∪
      (applied.filter fun e => s.deps.stateOf e = some .impossible) ⊆ edges :=
    union_subset (filter_subset _ _) ((filter_subset _ _).trans hsub)
  have total := card_le_card inside
  rw [card_union_of_disjoint disjoint] at total
  have := counters.precluded
  unfold tally at this ⊢
  omega

theorem skipped_iff : s.skipped ↔ c.terminalOutcome = .skipped := by simp [skipped,h.core]

theorem partialGroup : s.deps.partialGroup = some g := by simp [DependencyKeys.partialGroup,h.group,h.policy]

private theorem next_apply {a : ApplyArgs} (he : a.edgeId ∈ edges) (now : Int) :
    ∃ g' c', Growing outcome edges k g' c' (next ⟨now,.applyDependency a⟩ s) ∧
      c'.terminalOutcome = c.terminalOutcome := by
  refine commit_induction (P := fun t => ∃ g' c', Growing outcome edges k g' c' t ∧
    c'.terminalOutcome = c.terminalOutcome) ⟨g,c,h,rfl⟩ fun _ t hok => ?_
  obtain rfl | ⟨c₀,hc,fresh,rfl⟩ := applyDependencyToChild_ok hok
  · exact ⟨g,c,h,rfl⟩
  obtain rfl : c = c₀ := Option.some.inj (h.core.symm.trans hc)
  obtain ⟨applied,mirrored,hsub⟩ := h.mirrored
  have grown (c' : ExecCore) (hc' : ((s.setDeps (s.deps.apply a)).blockChild c).core = some c')
      (ho : c'.terminalOutcome = c.terminalOutcome) :
      Growing outcome edges k { g with n := g.n + 1 } c' ((s.setDeps (s.deps.apply a)).blockChild c) := by
    refine ⟨⟨insert a.edgeId applied,?_,insert_subset he hsub⟩,?_,h.policy,h.threshold,fun e hi => ?_,hc',ho ▸ h.ended⟩
    · rw [blockChild_deps]
      exact mirrored.apply fresh
    · rw [blockChild_deps]
      simp [apply,h.group]
    · rw [blockChild_deps] at hi
      by_cases hea : e = a.edgeId
      · simp [stateOf,apply,hea] at hi
      · exact h.known e (by simpa [stateOf,apply,hea] using hi)
  by_cases hb : c.lifecyclePhase = .runnable ∧ c.terminalOutcome = .none
  · exact ⟨_,_,grown c.blockedByDependencies (by simp [blockChild,hb]) hb.2.symm,hb.2.symm⟩
  · exact ⟨_,_,grown c (by simpa [blockChild,hb] using h.core) rfl,rfl⟩

private theorem follow_core (a : ResolveArgs) (d : DependencyKeys)
    (decision : GroupState) : ∃ c', ((s.setDeps d).follow a decision).core = some c' ∧
      c'.terminalOutcome = if decision = .impossible then .skipped else c.terminalOutcome := by
  have hc : (s.setDeps d).core = some c := h.core
  cases decision with
  | satisfied =>
    by_cases hw : c.awaitsDependencies
    · exact ⟨_,releaseWaiting_core hc hw,hw.2.2.1.symm⟩
    · refine ⟨c,?_,rfl⟩
      simp [follow,releaseWaiting,h.core,hw]
  | impossible =>
    refine ⟨_,skipUnfinished_core hc,?_⟩
    obtain ho | ho := h.ended
    · rw [if_pos ho]
      rfl
    · rw [if_neg (by simp [ho]),if_pos rfl,ho]
  | _ => exact ⟨c,hc,rfl⟩

theorem next_resolve (ho : s.deps.isOpen a.edgeId) (ha : a.upstreamOutcome = outcome a.edgeId) (now : Int) :
    ∃ c', Growing outcome edges k (g.resolve a) c' (next ⟨now,.resolveDependency a⟩ s) ∧
      c'.terminalOutcome = if a.decides s.deps = .impossible then .skipped else c.terminalOutcome := by
  obtain ⟨c',hc',hend⟩ := h.follow_core a (s.deps.resolve a) (a.decides s.deps)
  obtain ⟨applied,mirrored,hsub⟩ := h.mirrored
  have counts := g.resolve_counts a
  refine ⟨c',?_,hend⟩
  rw [FlowFabric.next_resolve,if_pos ho]
  have hdeps := follow_deps (s.setDeps (s.deps.resolve a)) a (a.decides s.deps)
  refine ⟨⟨applied,?_,hsub⟩,?_,?_,?_,fun e hi => ?_,hc',?_⟩
  · rw [hdeps]
    exact mirrored.resolve ho
  · rw [hdeps]
    simp [resolve,h.partialGroup]
  · rw [counts.policyVariant]
    exact h.policy
  · rw [← h.threshold,EdgeGroup.threshold,EdgeGroup.threshold,counts.policyVariant,counts.k]
  · rw [hdeps,setDeps_deps,stateOf_resolve ho] at hi
    by_cases hea : e = a.edgeId
    · rw [if_pos hea,ha,← hea,Option.some.injEq] at hi
      intro hs
      rw [hs] at hi
      cases hi
    · rw [if_neg hea] at hi
      exact h.known e hi
  · rw [hend]
    split
    · exact .inr rfl
    · exact h.ended

theorem decides_impossible (ho : s.deps.isOpen a.edgeId) :
    a.decides s.deps = .impossible ↔ g.groupState = .pending ∧ (g.bump a.upstreamOutcome).succeeded < k ∧
        g.n - k < (g.bump a.upstreamOutcome).failed + (g.bump a.upstreamOutcome).skipped := by
  obtain ⟨applied,mirrored,-⟩ := h.mirrored
  have room := mirrored.has_room h.group ho a.upstreamOutcome
  have counts := g.bump_counts a.upstreamOutcome
  have hk : (g.bump a.upstreamOutcome).threshold = k := by
    rw [← h.threshold,EdgeGroup.threshold,EdgeGroup.threshold,counts.policyVariant,counts.k]
  have same := g.bump_groupState a.upstreamOutcome
  rw [ResolveArgs.decides,h.partialGroup]
  dsimp only
  rw [EdgeGroup.decides,same,EdgeGroup.verdict,hk,counts.n]
  rw [counts.n] at room
  by_cases hg : g.groupState = .pending
  · by_cases hs : k ≤ (g.bump a.upstreamOutcome).succeeded
    · simp [room,hg,hs,not_lt.mpr hs]
    · simp [room,hg,hs,not_le.mp hs]
  · simp [hg]

theorem heedsEdges_iff (hk : k ≤ tally edges outcome .success)
    (hu : ¬ s.skipped) {i : Call} (hi : i.stages outcome edges) :
    (i.op.heedsEdges edges s ↔ ¬ (next i s).skipped) ∧ ∃ g' c', Growing outcome edges k g' c' (next i s) := by
  rw [h.skipped_iff] at hu
  obtain ⟨now,op⟩ := i
  obtain ⟨a,rfl,he⟩ | ⟨a,rfl,-,ha⟩ := hi
  · obtain ⟨g',c',h',hend⟩ := h.next_apply he now
    refine ⟨iff_of_true rfl ?_,g',c',h'⟩
    rwa [h'.skipped_iff,hend]
  · by_cases ho : s.deps.isOpen a.edgeId
    · obtain ⟨c',h',hend⟩ := h.next_resolve ho ha now
      refine ⟨?_,_,c',h'⟩
      have hfail := (g.resolve_counts a).precluded.trans (g.bump_counts a.upstreamOutcome).precluded.symm
      have few := h'.successes_le
      have hdec := h.decides_impossible ho
      simp only [Op.heedsEdges,h.group,Option.all_some,h.threshold,decide_eq_true_eq,ho,true_imp_iff]
      rw [h'.skipped_iff,hend]
      constructor
      · intro heeds
        rw [if_neg]
        · exact hu
        · intro hi
          obtain ⟨hg,hs,hf⟩ := hdec.mp hi
          have := heeds hg hs hf
          omega
      · intro hns hg hs hf
        rw [if_pos (hdec.mpr ⟨hg,hs,hf⟩)] at hns
        exact absurd rfl hns
    · rw [FlowFabric.next_resolve,if_neg ho]
      refine ⟨iff_of_true ?_ (by rwa [h.skipped_iff]),g,c,h⟩
      simp [Op.heedsEdges,h.group,ho]

end Growing

/-- While the edges of an any-of or quorum group are applied one by one and resolved in between,
the child is skipped only when too few upstreams succeed, exactly if with enough successful
upstreams no outcome is counted that leaves too few of the edges applied so far but enough of all. -/
theorem skipped_when_lost_iff (h : Growing outcome edges k g c s) (hu : ¬ s.skipped) (calls : List Call)
    (hcalls : ∀ i ∈ calls, i.stages outcome edges) :
    Throughout next (fun t => t.skipped → (tally edges outcome .success : Int) < k) s calls ↔
      (k ≤ tally edges outcome .success → Along next (fun t i => i.op.heedsEdges edges t) s calls) := by
  by_cases hk : k ≤ (tally edges outcome .success : Int)
  · simp only [hk,true_imp_iff,not_lt.mpr hk,imp_false]
    induction calls generalizing s g c with
    | nil => simpa [Throughout,Along] using hu
    | cons i calls ih =>
      obtain ⟨step,g',c',h'⟩ := h.heedsEdges_iff hk hu (hcalls i List.mem_cons_self)
      have hrest : ∀ j ∈ calls, j.stages outcome edges := fun j hj => hcalls j (List.mem_cons_of_mem _ hj)
      constructor
      · rintro ⟨-,rest⟩
        exact ⟨step.mpr rest.start,(ih h' rest.start hrest).mp rest⟩
      · rintro ⟨heeds,rest⟩
        exact ⟨hu,(ih h' (step.mp heeds) hrest).mpr rest⟩
  · exact iff_of_true (.of_forall (fun _ _ => not_le.mp hk) s calls) fun enough => absurd enough hk

theorem growing_of_mirrored (h : s.mirrored) (hg : s.deps.edgeGroup = some g) (hp : g.policyVariant ≠ .allOf)
    (hn : g.n = 0) (hc : s.core = some c) (ho : c.terminalOutcome = .none)
    (outcome : String → TerminalOutcome) (edges : Finset String) : Growing outcome edges g.threshold g c s := by
  obtain ⟨applied,h⟩ := h
  obtain rfl : applied = ∅ := by
    have := (h.mirrors hg).n
    exact card_eq_zero.mp (by omega)
  refine ⟨⟨∅,h,empty_subset _⟩,hg,hp,rfl,fun e hi => ?_,hc,.inl ho⟩
  obtain ⟨dep,hdep,-⟩ := Option.map_eq_some_iff.mp hi
  exact absurd ((h.recorded e).mp (by simp [hdep])) (notMem_empty e)

def Client.apply (now : Int) (edgeId : String) : Call := ⟨now,.applyDependency { flowId := "f", edgeId }⟩

def Client.quorumOfTwo : Store :=
  run [create 10,⟨11,.setEdgeGroupPolicy { policyVariant := .quorum, onSatisfied := .letRun, k := 2 }⟩]

/-- Two out of three. The first success is reported before the last edge is applied. -/
theorem Client.early_success_is_no_loss :
    let outcome : String → TerminalOutcome := fun e => if e = "v" then .failed else .success
    Throughout next (fun t => t.skipped → (tally {"u","v","w"} outcome .success : Int) < 2) quorumOfTwo
      [apply 12 "u",apply 13 "v",report 14 "u" .success,apply 15 "w",
        report 16 "v" .failed,report 17 "w" .success] := by
  intro outcome
  obtain ⟨g,hg,hp,hk,hn⟩ : ∃ g, quorumOfTwo.deps.edgeGroup = some g ∧ g.policyVariant ≠ .allOf ∧
      g.threshold = 2 ∧ g.n = 0 := ⟨_,rfl,by decide +kernel⟩
  obtain ⟨c,hc,ho⟩ : ∃ c, quorumOfTwo.core = some c ∧ c.terminalOutcome = .none := ⟨_,rfl,by decide +kernel⟩
  have growing : Growing outcome {"u","v","w"} 2 g c quorumOfTwo :=
    hk ▸ growing_of_mirrored (run_mirrored (by decide +kernel)) hg hp hn hc ho outcome _
  refine (skipped_when_lost_iff growing (by simp [skipped,hc,ho]) _ ?_).mpr fun _ => ?_
  · simp [apply,report,Call.stages,Call.reports,outcome]
  · decide +kernel

/-- Both upstreams succeed. The first outcome is reported before the second edge is applied,
and the child is skipped. -/
theorem Client.first_success_loses_quorum : let calls := [apply 12 "u",report 13 "u" .success,apply 14 "v",
      report 15 "v" .success]
    (runFrom next quorumOfTwo (calls.take 2)).skipped ∧ (runFrom next quorumOfTwo calls).skipped ∧
      (runFrom next quorumOfTwo calls).deps.edgeGroup.map (fun g => (g.n,g.succeeded)) = some (2,2) := by
  decide +kernel

end FlowFabric
