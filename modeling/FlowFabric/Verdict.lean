import FlowFabric.EdgeGroups

/-! The verdict of an edge group on the outcomes of its upstreams. -/
namespace FlowFabric
open Foundation DependencyKeys List Option Client Finset

/-- How many edges have to be satisfied. An all-of group needs them all. -/
def EdgeGroup.required (g : EdgeGroup) : Int := if g.policyVariant = .allOf then g.n else g.threshold

/-- What the counters say, whatever the policy. -/
def EdgeGroup.judge (g : EdgeGroup) : GroupState :=
  if g.required ≤ g.succeeded then .satisfied
  else if g.n - g.required < g.failed + g.skipped then .impossible
  else .pending

def ExecCore.follows (c : ExecCore) (core : Option ExecCore) : GroupState → Prop
  | .pending => core = some c
  | .satisfied => core = some c.dependenciesMet
  | .impossible => ∃ nowMs, core = some (c.skipped nowMs)
  | .cancelled => False

def Store.groupState (s : Store) : Option GroupState := s.deps.edgeGroup.map (·.groupState)

/-- The group keeps its verdict, and the child moves exactly when the verdict is given. -/
def Store.firesWith (s t : Store) : Prop :=
  (s.groupState ≠ some .pending → t.groupState = s.groupState) ∧
    (t.core ≠ s.core ↔ s.groupState = some .pending ∧ t.groupState ≠ some .pending)

/-- The call resolves one of the edges with the outcome of its upstream. -/
def Call.reports (outcome : String → TerminalOutcome) (edges : Finset String) (i : Call) : Prop :=
  ∃ a, i.op = .resolveDependency a ∧ a.edgeId ∈ edges ∧ a.upstreamOutcome = outcome a.edgeId

def Call.resolves (edgeId : String) (i : Call) : Prop := ∃ a, i.op = .resolveDependency a ∧ a.edgeId = edgeId

/-- A success is not the last outcome of an all-of group that is impossible. -/
def Op.keepsVerdict (op : Op) (s : Store) : Bool :=
  match op with
  | .resolveDependency a =>
    decide (¬ (s.deps.isOpen a.edgeId ∧ a.upstreamOutcome = .success ∧ s.deps.unsatisfiedRequiredCount = 1 ∧
      s.deps.edgeGroup.any fun g => decide (g.policyVariant = .allOf ∧ g.groupState = .impossible)))
  | _ => true

variable {a : ResolveArgs} {d : DependencyKeys} {s : Store} {g g' : EdgeGroup} {c : ExecCore}
  {outcome : String → TerminalOutcome} {edges : Finset String} {k : Int} {e : String}

namespace EdgeGroup

private theorem judge_eq_verdict (hp : g.policyVariant ≠ .allOf) :
    g.judge = g.verdict := by simp [judge,verdict,required,hp]

variable {o : TerminalOutcome}

theorem Counts.required (h : g.Counts g' o) : g'.required = g.required := by
  simp [EdgeGroup.required,threshold,h.policyVariant,h.n,h.k]

private theorem judge_ne_cancelled (g : EdgeGroup) : g.judge ≠ .cancelled := by
  unfold judge
  split
  · simp
  · split <;> simp

private theorem judge_stable (h : g.Counts g' o) (room : g'.counted ≤ g'.n) (hj : g.judge ≠ .pending) :
    g'.judge = g.judge := by
  have hr := h.required
  obtain ⟨hn,-,-,hs,hf⟩ := h
  have more : g.succeeded ≤ g'.succeeded ∧ g.failed + g.skipped ≤ g'.failed + g'.skipped := by
    obtain ⟨-,ho⟩ | ⟨-,ho⟩ := o.edgeState_cases <;> simp [ho] at hs hf <;> omega
  unfold counted at room
  unfold judge at hj ⊢
  by_cases h1 : g.required ≤ g.succeeded
  · rw [if_pos h1,if_pos (by omega)]
  · by_cases h2 : g.n - g.required < g.failed + g.skipped
    · rw [if_neg h1,if_pos h2,if_neg (by omega),if_pos (by omega)]
    · simp [h1,h2] at hj

end EdgeGroup

/-- What one more outcome does to the state of the group, given what the script decides. -/
def GroupStep (g g' : EdgeGroup) (decision : GroupState) : Prop :=
  (g.groupState = .pending ∧ g'.groupState = decision) ∨ (g.groupState ≠ .pending ∧ g'.groupState = g.groupState ∧
      (decision = .pending ∨ (decision = .impossible ∧ g.groupState = .impossible)))

def EdgeGroup.verdictOn (g : EdgeGroup) (edges : Finset String) (outcome : String → TerminalOutcome) : GroupState :=
  if g.required ≤ tally edges outcome .success then .satisfied else .impossible

structure Judged (outcome : String → TerminalOutcome) (edges : Finset String) (k : Int) (c : ExecCore)
    (g : EdgeGroup) (s : Store) : Prop where
  mirrored : s.deps.Mirrored edges
  group : s.deps.edgeGroup = some g
  required : g.required = k
  known : ∀ e ∈ edges, s.deps.isOpen e ∨ s.deps.stateOf e = some (outcome e).edgeState
  remaining : g.policyVariant = .allOf → s.deps.unsatisfiedRequiredCount = s.deps.unresolved.card
  judged : g.groupState = g.judge
  child : c.follows s.core g.groupState

namespace Judged

variable (h : Judged outcome edges k c g s)
include h

theorem counters : g.Mirrors s.deps edges := h.mirrored.mirrors h.group

theorem groupState : s.groupState = some g.groupState := by rw [Store.groupState,h.group,map_some]

private theorem known_resolve (ho : s.deps.isOpen a.edgeId) (ha : a.upstreamOutcome = outcome a.edgeId)
    (he : e ∈ edges) : (s.deps.resolve a).isOpen e ∨ (s.deps.resolve a).stateOf e = some (outcome e).edgeState := by
  rw [stateOf_resolve ho]
  by_cases hea : e = a.edgeId
  · right
    rw [if_pos hea,ha,hea]
  · rw [if_neg hea]
    refine (h.known e he).imp_left fun hopen => ?_
    simpa [isOpen,resolve_dependency,settle,hea] using hopen

theorem partialGroup_of_partial (hp : g.policyVariant ≠ .allOf) : s.deps.partialGroup = some g := by
  simp [partialGroup,h.group,hp]

theorem partialGroup_of_allOf (hp : g.policyVariant = .allOf) : s.deps.partialGroup = none := by
  simp [partialGroup,h.group,hp]

variable (ho : s.deps.isOpen a.edgeId)
include ho

theorem open_left : g.counted < g.n := by
  have := card_pos.mpr ⟨_,(h.mirrored.listed _).mpr ho⟩
  have := h.counters.unresolved
  omega

variable (hp : g.policyVariant = .allOf)
include hp

theorem allOf_cases : (g.groupState = .pending ∧ g.failed + g.skipped = 0) ∨
      (g.groupState = .impossible ∧ 0 < g.failed + g.skipped) := by
  have hleft := h.open_left ho
  have hf := h.counters.precluded
  rw [h.judged]
  unfold EdgeGroup.judge EdgeGroup.required
  unfold EdgeGroup.counted at hleft
  rw [if_pos hp,if_neg (by omega)]
  by_cases hfail : g.failed + g.skipped = 0
  · rw [if_neg (by omega)]
    exact .inl ⟨rfl,hfail⟩
  · rw [if_pos (by omega)]
    exact .inr ⟨rfl,by omega⟩

private theorem judge_allOf (counts : g.Counts g' a.upstreamOutcome) : g'.judge =
      if a.upstreamOutcome = .success ∧ g.failed + g.skipped = 0 then
        if s.deps.unsatisfiedRequiredCount - 1 = 0 then .satisfied else .pending
      else .impossible := by
  have hleft := h.open_left ho
  have hu := h.counters.unresolved
  have hf := h.counters.precluded
  rw [h.remaining hp,← hu]
  obtain ⟨hn,hpol,-,hs',hf'⟩ := counts
  unfold EdgeGroup.judge EdgeGroup.required
  unfold EdgeGroup.counted at hleft ⊢
  rw [if_pos (hpol.trans hp),hn]
  obtain ⟨hout,hstate⟩ | ⟨hout,hstate⟩ := a.upstreamOutcome.edgeState_cases
  · simp only [hstate,if_true] at hs' hf'
    simp at hf'
    by_cases hfail : g.failed + g.skipped = 0
    · rw [if_pos (c := _ ∧ _) ⟨hout,hfail⟩]
      split_ifs <;> first | rfl | omega
    · rw [if_neg (c := _ ∧ _) (fun hand => hfail hand.2)]
      rw [if_neg (by omega),if_pos (by omega)]
  · simp only [hstate,if_true] at hs' hf'
    simp at hs'
    rw [if_neg (c := _ ∧ _) (fun hand => hout hand.1),if_neg (by omega),if_pos (by omega)]

private theorem resolve_allOf (hk : (Op.resolveDependency a).keepsVerdict s) :
    ∃ g', (s.deps.resolve a).edgeGroup = some g' ∧ g.Counts g' a.upstreamOutcome ∧
      g'.groupState = g'.judge ∧ GroupStep g g' (a.decides s.deps) := by
  obtain ⟨g',hg',counts⟩ := resolve_edgeGroup h.group a
  refine ⟨g',hg',counts,?_⟩
  have hj := h.judge_allOf ho hp counts
  rw [resolve,h.partialGroup_of_allOf hp] at hg'
  rw [hj,ResolveArgs.decides,h.partialGroup_of_allOf hp]
  by_cases hout : a.upstreamOutcome = .success
  · simp only [hout,if_true,satisfy,h.group,map_some,some.injEq] at hg'
    have hstate : g'.groupState = if s.deps.unsatisfiedRequiredCount - 1 = 0 then .satisfied else g.groupState := by
      rw [← hg']
    simp only [hout,ne_eq,not_true,if_false,true_and]
    obtain ⟨hg,hf⟩ | ⟨hg,hf⟩ := h.allOf_cases ho hp
    · rw [hg] at hstate
      rw [if_pos hf]
      exact ⟨hstate,.inl ⟨hg,hstate⟩⟩
    · have hlast : ¬ s.deps.unsatisfiedRequiredCount - 1 = 0 := by
        intro hlast
        have := of_decide_eq_true hk
        simp [ho,hout,h.group,hp,hg] at this
        omega
      rw [if_neg hlast,hg] at hstate
      rw [if_neg (by omega),if_neg hlast]
      exact ⟨hstate,.inr ⟨by simp [hg],hstate.trans hg.symm,.inl rfl⟩⟩
  · simp only [hout,if_false,preclude,h.group,map_some,some.injEq] at hg'
    have hstate : g'.groupState = .impossible := by rw [← hg']
    simp only [hout,ne_eq,not_false_eq_true,if_true,false_and,if_false]
    refine ⟨hstate,?_⟩
    obtain ⟨hg,-⟩ | ⟨hg,-⟩ := h.allOf_cases ho hp
    · exact .inl ⟨hg,hstate⟩
    · exact .inr ⟨by simp [hg],hstate.trans hg.symm,.inr ⟨rfl,hg⟩⟩

end Judged

theorem releaseWaiting_core (hc : s.core = some c) (hw : c.awaitsDependencies) :
    s.releaseWaiting.core = some c.dependenciesMet := by
  unfold Store.releaseWaiting
  rw [hc]
  simp [hw,Store.releaseChild]

theorem skipUnfinished_core (hc : s.core = some c) :
    (skipUnfinished a s).2.core = some (if c.terminalOutcome = .none then c.skipped a.nowMs else c) := by
  unfold skipUnfinished
  rw [hc]
  by_cases ho : c.terminalOutcome = .none
  · simp [ho,Store.skipChild]
  · simp [ho,hc]

section
variable (hw : c.awaitsDependencies)
include hw

private theorem dependenciesMet_ne : some c.dependenciesMet ≠ some c := by
  intro h
  have := congrArg ExecCore.eligibilityState (some.inj h)
  rw [hw.2.2.2] at this
  cases this

private theorem skipped_ne (nowMs : Int) : some (c.skipped nowMs) ≠ some c := by
  intro h
  have := congrArg ExecCore.lifecyclePhase (some.inj h)
  rw [hw.1] at this
  cases this

theorem follows_step {v : GroupState} (h : c.follows s.core g.groupState)
    (hs : GroupStep g g' v) (hj : g'.groupState = g'.judge) : c.follows (s.follow a v).core g'.groupState ∧
      ((s.follow a v).core ≠ s.core ↔ g.groupState = .pending ∧ g'.groupState ≠ .pending) := by
  obtain ⟨hg,hg'⟩ | ⟨hg,hg',hv⟩ := hs
  · rw [hg] at h
    have hc : s.core = some c := h
    rw [hg,hg',hc]
    cases v with
    | pending => exact ⟨hc,by simp [Store.follow,hc]⟩
    | satisfied =>
      have hcore := releaseWaiting_core hc hw
      exact ⟨hcore,iff_of_true (hcore ▸ dependenciesMet_ne hw) ⟨rfl,by simp⟩⟩
    | impossible =>
      have hcore := skipUnfinished_core (a := a) hc
      rw [if_pos hw.2.2.1] at hcore
      exact ⟨⟨a.nowMs,hcore⟩,iff_of_true (hcore ▸ skipped_ne hw _) ⟨rfl,by simp⟩⟩
    | cancelled => exact absurd (hj.symm.trans hg') g'.judge_ne_cancelled
  · rw [hg']
    have same : (s.follow a v).core = s.core := by
      obtain rfl | ⟨rfl,hi⟩ := hv
      · rfl
      · rw [hi] at h
        obtain ⟨nowMs,hc⟩ := h
        rw [hc]
        exact (skipUnfinished_core hc).trans (by simp [ExecCore.skipped])
    rw [same]
    exact ⟨h,by simp [hg]⟩

end

theorem isOpen_next_resolve (a : ResolveArgs) (now : Int) (s : Store) (e : String) :
    (next ⟨now,.resolveDependency a⟩ s).deps.isOpen e ↔ s.deps.isOpen e ∧ e ≠ a.edgeId := by
  rw [next_resolve]
  split
  · rename_i ho
    obtain ⟨dep,hdep,-⟩ := isOpen_iff.mp ho
    rw [follow_deps]
    by_cases he : e = a.edgeId
    · obtain ⟨-,hs⟩ | ⟨-,hs⟩ := a.upstreamOutcome.edgeState_cases <;> simp [he,isOpen,resolve_dependency,settle,hdep,hs]
    · simp [he,isOpen,resolve_dependency,settle]
  · rename_i ho
    refine ⟨fun he => ⟨he,?_⟩,And.left⟩
    rintro rfl
    exact ho he

theorem resolve_unsatisfiedRequiredCount (hp : d.partialGroup = none) (a : ResolveArgs) :
    (d.resolve a).unsatisfiedRequiredCount = d.unsatisfiedRequiredCount - 1 := by
  rw [resolve,hp]
  by_cases ho : a.upstreamOutcome = .success <;>
    simp [ho,satisfy,preclude]

namespace Judged

variable (h : Judged outcome edges k c g s)
include h

section
variable (hw : c.awaitsDependencies)
include hw

theorem next_open (ho : s.deps.isOpen a.edgeId) (ha : a.upstreamOutcome = outcome a.edgeId)
    (hk : (Op.resolveDependency a).keepsVerdict s) (now : Int) :
    ∃ g', Judged outcome edges k c g' (next ⟨now,.resolveDependency a⟩ s) ∧
      s.firesWith (next ⟨now,.resolveDependency a⟩ s) := by
  obtain ⟨g',hg',counts,hj,hstep⟩ : ∃ g', (s.deps.resolve a).edgeGroup = some g' ∧
      g.Counts g' a.upstreamOutcome ∧ g'.groupState = g'.judge ∧ GroupStep g g' (a.decides s.deps) := by
    by_cases hp : g.policyVariant = .allOf
    · exact h.resolve_allOf ho hp hk
    · have counts := g.bump_counts a.upstreamOutcome
      have same := g.bump_groupState a.upstreamOutcome
      have verdict : (g.bump a.upstreamOutcome).judge = (g.bump a.upstreamOutcome).verdict :=
        EdgeGroup.judge_eq_verdict (by rwa [counts.policyVariant])
      have hroom := h.mirrored.has_room h.group ho a.upstreamOutcome
      have hd : a.decides s.deps = (g.bump a.upstreamOutcome).decides := by
        rw [ResolveArgs.decides,h.partialGroup_of_partial hp]
      have hr : (s.deps.resolve a).edgeGroup = some (g.resolve a) := by rw [resolve,h.partialGroup_of_partial hp]
      refine ⟨g.resolve a,hr,g.resolve_counts a,?_⟩
      rw [hd]
      by_cases hg : g.groupState = .pending
      · have decides : (g.bump a.upstreamOutcome).decides = (g.bump a.upstreamOutcome).judge := by
          rw [EdgeGroup.decides,if_neg (not_or.mpr ⟨hroom,not_not.mpr (same.trans hg)⟩),verdict]
        rw [EdgeGroup.resolve,decides]
        by_cases hv : (g.bump a.upstreamOutcome).judge = .pending
        · rw [if_pos hv]
          exact ⟨(same.trans hg).trans hv.symm,.inl ⟨hg,(same.trans hg).trans hv.symm⟩⟩
        · rw [if_neg hv]
          exact ⟨rfl,.inl ⟨hg,rfl⟩⟩
      · have decides : (g.bump a.upstreamOutcome).decides = .pending := by
          rw [EdgeGroup.decides,if_pos (.inr (same ▸ hg))]
        rw [EdgeGroup.resolve,decides]
        rw [if_pos rfl]
        refine ⟨?_,.inr ⟨hg,same,.inl rfl⟩⟩
        rw [same,h.judged,EdgeGroup.judge_stable counts (not_lt.mp hroom) (h.judged ▸ hg)]
  rw [next_resolve,if_pos ho]
  obtain ⟨child,moves⟩ := follows_step (s := s.setDeps (s.deps.resolve a)) (a := a) hw h.child hstep hj
  have hdeps := follow_deps (s.setDeps (s.deps.resolve a)) a (a.decides s.deps)
  have judged : Judged outcome edges k c g'
      ((s.setDeps (s.deps.resolve a)).follow a (a.decides s.deps)) := by
    refine ⟨?_,?_,counts.required.trans h.required,?_,fun hp => ?_,hj,child⟩ <;> rw [hdeps]
    · exact h.mirrored.resolve ho
    · exact hg'
    · exact fun e he => h.known_resolve ho ha he
    · have hp := counts.policyVariant.symm.trans hp
      have := card_erase_add_one ((h.mirrored.listed _).mpr ho)
      have := h.remaining hp
      simp only [Store.setDeps_deps,resolve_unresolved,resolve_unsatisfiedRequiredCount (h.partialGroup_of_allOf hp)]
      omega
  refine ⟨g',judged,?_,?_⟩
  · rw [judged.groupState,h.groupState]
    intro hne
    obtain ⟨hg,-⟩ | ⟨-,hsame,-⟩ := hstep
    · exact absurd (congrArg some hg) hne
    · rw [hsame]
  · rw [judged.groupState,h.groupState]
    simpa using moves

theorem next {i : Call} (hi : i.reports outcome edges) (hk : i.op.keepsVerdict s) :
    ∃ g', Judged outcome edges k c g' (FlowFabric.next i s) ∧ s.firesWith (FlowFabric.next i s) := by
  obtain ⟨now,op⟩ := i
  obtain ⟨a,rfl,-,ha⟩ := hi
  by_cases ho : s.deps.isOpen a.edgeId
  · exact h.next_open hw ho ha hk now
  · rw [next_resolve,if_neg ho]
    exact ⟨g,h,fun _ => rfl,by simp⟩

theorem run {calls : List Call} (hcalls : ∀ i ∈ calls, i.reports outcome edges)
    (hk : Along FlowFabric.next (fun s i => i.op.keepsVerdict s) s calls) :
    (∃ g', Judged outcome edges k c g' (runFrom FlowFabric.next s calls)) ∧
      Along FlowFabric.next (fun s i => s.firesWith (FlowFabric.next i s)) s calls := by
  induction calls generalizing s g with
  | nil => exact ⟨⟨g,h⟩,trivial⟩
  | cons i calls ih =>
    obtain ⟨g',h',fires⟩ := h.next hw (hcalls i (by simp)) hk.1
    obtain ⟨judged,along⟩ := ih h' (fun j hj => hcalls j (by simp [hj])) hk.2
    exact ⟨judged,fires,along⟩

end

theorem final (closed : ∀ e ∈ edges, ¬ s.deps.isOpen e) :
    g.groupState = if k ≤ tally edges outcome .success then .satisfied else .impossible := by
  have state (e : String) (he : e ∈ edges) : s.deps.stateOf e = some (outcome e).edgeState :=
    (h.known e he).resolve_left (closed e he)
  have successes : tally edges s.deps.stateOf (some .satisfied) = tally edges outcome .success := by
    unfold tally
    congr 1
    apply Finset.filter_congr
    intro e he
    rw [state e he,some.injEq]
    obtain ⟨ho,hs⟩ | ⟨ho,hs⟩ := (outcome e).edgeState_cases
    · exact iff_of_true hs ho
    · exact iff_of_false (by simp [hs]) ho
  have none_left : s.deps.unresolved = ∅ := by
    apply eq_empty_of_forall_notMem
    intro e he
    have ho := (h.mirrored.listed e).mp he
    exact closed e (h.mirrored.mem_of_isOpen ho) ho
  obtain ⟨hcard,hs,-,hu⟩ := h.counters
  rw [none_left] at hu
  rw [h.judged,EdgeGroup.judge,h.required,hs,successes]
  simp only [EdgeGroup.counted,card_empty] at hu
  split
  · rfl
  · rw [if_pos (by omega)]

end Judged

/-- All edges are resolved and all are needed. One of them has failed and the group is satisfied. -/
structure Overridden (outcome : String → TerminalOutcome) (edges : Finset String) (k : Int) (s : Store) : Prop where
  all : k = edges.card
  closed : ∀ e, ¬ s.deps.isOpen e
  satisfied : s.groupState = some .satisfied
  failure : ∃ e ∈ edges, outcome e ≠ .success

theorem Judged.overridden (h : Judged outcome edges k c g s) {i : Call} (hi : i.reports outcome edges)
    (hk : ¬ i.op.keepsVerdict s) : Overridden outcome edges k (FlowFabric.next i s) := by
  obtain ⟨now,op⟩ := i
  obtain ⟨a,rfl,-,ha⟩ := hi
  simp only [Op.keepsVerdict,decide_eq_true_eq,not_not,h.group,any_some] at hk
  obtain ⟨ho,hout,hlast,hp,hg⟩ := hk
  have only : s.deps.unresolved = {a.edgeId} := by
    have one : s.deps.unresolved.card = 1 := by
      have := h.remaining hp
      omega
    obtain ⟨e,he⟩ := Finset.card_eq_one.mp one
    have hmem := (h.mirrored.listed _).mpr ho
    rw [he,Finset.mem_singleton] at hmem
    rw [he,hmem]
  refine ⟨?_,fun e he => ?_,?_,?_⟩
  · rw [← h.required,EdgeGroup.required,if_pos hp]
    exact h.counters.n
  · rw [isOpen_next_resolve,← h.mirrored.listed,only,Finset.mem_singleton] at he
    exact he.2 he.1
  · rw [next_resolve,if_pos ho,Store.groupState,follow_deps]
    simp [resolve,h.partialGroup_of_allOf hp,hout,satisfy,h.group,hlast]
  · have failed : 0 < tally edges s.deps.stateOf (some .impossible) := by
      have := h.counters.precluded
      obtain ⟨hpend,-⟩ | ⟨-,hf⟩ := h.allOf_cases ho hp
      · simp [hg] at hpend
      · omega
    obtain ⟨e,he⟩ := card_pos.mp failed
    obtain ⟨he,hstate⟩ := mem_filter.mp he
    refine ⟨e,he,fun hs => ?_⟩
    obtain hopen | hknown := h.known e he
    · obtain ⟨dep,hdep,hun⟩ := isOpen_iff.mp hopen
      simp [stateOf,hdep,hun] at hstate
    · rw [hknown,hs] at hstate
      cases hstate

variable {calls : List Call}

theorem Overridden.run (h : Overridden outcome edges k s)
    (hcalls : ∀ i ∈ calls, i.reports outcome edges) : Overridden outcome edges k (runFrom next s calls) := by
  induction calls with
  | nil => exact h
  | cons i calls ih =>
    obtain ⟨now,op⟩ := i
    obtain ⟨a,rfl,-,-⟩ := hcalls _ mem_cons_self
    have same : next ⟨now,.resolveDependency a⟩ s = s := by rw [next_resolve,if_neg (h.closed _)]
    rw [runFrom,same]
    exact ih fun j hj => hcalls j (mem_cons_of_mem _ hj)

theorem Judged.run_overridden (h : Judged outcome edges k c g s) (hw : c.awaitsDependencies)
    (hcalls : ∀ i ∈ calls, i.reports outcome edges)
    (hk : ¬ Along FlowFabric.next (fun s i => i.op.keepsVerdict s) s calls) :
    Overridden outcome edges k (runFrom FlowFabric.next s calls) := by
  induction calls generalizing s g with
  | nil => exact absurd trivial hk
  | cons i calls ih =>
    have hi := hcalls i mem_cons_self
    have hrest : ∀ j ∈ calls, j.reports outcome edges := fun j hj => hcalls j (mem_cons_of_mem _ hj)
    by_cases hp : i.op.keepsVerdict s
    · obtain ⟨g',h',-⟩ := h.next hw hi hp
      exact ih h' hrest fun along => hk ⟨hp,along⟩
    · exact (h.overridden hi hp).run hrest

theorem closed_run (hcalls : ∀ i ∈ calls, i.reports outcome edges)
    (hall : s.deps.isOpen e → ∃ i ∈ calls, i.resolves e) : ¬ (runFrom next s calls).deps.isOpen e := by
  induction calls generalizing s with
  | nil =>
    intro ho
    obtain ⟨i,hi,-⟩ := hall ho
    cases hi
  | cons i calls ih =>
    refine ih (fun j hj => hcalls j (mem_cons_of_mem _ hj)) fun ho => ?_
    obtain ⟨now,op⟩ := i
    obtain ⟨a,rfl,-,-⟩ := hcalls _ mem_cons_self
    obtain ⟨hopen,hne⟩ := (isOpen_next_resolve a now s e).mp ho
    obtain ⟨j,hj,hr⟩ := hall hopen
    obtain rfl | hj := mem_cons.mp hj
    · obtain ⟨b,hb,rfl⟩ := hr
      cases hb
      exact absurd rfl hne
    · exact ⟨j,hj,hr⟩

/-- A child that waits for its edges, none of which is resolved. -/
structure Staged (edges : Finset String) (g : EdgeGroup) (c : ExecCore) (s : Store) : Prop where
  mirrored : s.deps.Mirrored edges
  group : s.deps.edgeGroup = some g
  undecided : g.groupState = .pending
  core : s.core = some c
  waits : c.awaitsDependencies
  isOpen : ∀ e ∈ edges, s.deps.isOpen e
  remaining : s.deps.unsatisfiedRequiredCount = edges.card

theorem staged_of_mirrored (h : s.mirrored) (hg : s.deps.edgeGroup = some g) (hp : g.groupState = .pending)
    (hc : s.core = some c) (hw : c.awaitsDependencies) (hn : (s.deps.unresolved.card : Int) = g.n)
    (hr : s.deps.unsatisfiedRequiredCount = g.n) : Staged s.deps.unresolved g c s := by
  obtain ⟨edges,h⟩ := h
  have counters := h.mirrors hg
  have all : s.deps.unresolved = edges := by
    apply eq_of_subset_of_card_le
    · exact fun e he => h.mem_of_isOpen ((h.listed e).mp he)
    · have := counters.n
      omega
  rw [all]
  exact ⟨h,hg,hp,hc,hw,fun e he => (h.listed e).mp (all ▸ he),hr.trans counters.n⟩

theorem Staged.judged (h : Staged edges g c s) (hk : 1 ≤ g.required) (hn : g.required ≤ edges.card)
    (outcome : String → TerminalOutcome) : Judged outcome edges g.required c g s := by
  have counters := h.mirrored.mirrors h.group
  have all : s.deps.unresolved = edges := by
    ext e
    rw [h.mirrored.listed]
    exact ⟨h.mirrored.mem_of_isOpen,h.isOpen e⟩
  have hjudge : g.judge = .pending := by
    obtain ⟨hcard,hs,hf,hu⟩ := counters
    rw [all] at hu
    unfold EdgeGroup.counted at hu
    unfold EdgeGroup.judge
    rw [if_neg (by omega),if_neg (by omega)]
  refine ⟨h.mirrored,h.group,rfl,fun e he => .inl (h.isOpen e he),fun _ => ?_,?_,?_⟩
  · rw [h.remaining,all]
  · rw [h.undecided,hjudge]
  · rw [h.undecided]
    exact h.core

/-- In whatever order and however often the outcomes of the upstreams are reported, the group is
satisfied by enough successes and impossible otherwise, keeps its verdict, and moves the child once
and with it. A run of reports does this exactly if none of them is a success that comes last in an
all-of group that is impossible. -/
theorem verdict_is_order_free_iff (h : Staged edges g c s) (hk : 1 ≤ g.required)
    (hn : g.required ≤ edges.card) (outcome : String → TerminalOutcome) (calls : List Call)
    (hcalls : ∀ i ∈ calls, i.reports outcome edges) (hall : ∀ e ∈ edges, ∃ i ∈ calls, i.resolves e) :
    ((runFrom next s calls).groupState = some (g.verdictOn edges outcome) ∧
      c.follows (runFrom next s calls).core (g.verdictOn edges outcome) ∧
      Along next (fun s i => s.firesWith (next i s)) s calls) ↔
      Along next (fun s i => i.op.keepsVerdict s) s calls := by
  have judged := h.judged hk hn outcome
  constructor
  · rintro ⟨hverdict,-,-⟩
    by_contra hover
    obtain ⟨hneeds,-,hsat,e,he,hfail⟩ := judged.run_overridden h.waits hcalls hover
    have fewer : tally edges outcome .success < edges.card := by
      apply card_lt_card
      exact filter_ssubset.mpr ⟨e,he,hfail⟩
    have hverdict := some.inj (hsat.symm.trans hverdict)
    rw [EdgeGroup.verdictOn,if_neg (by omega)] at hverdict
    cases hverdict
  · intro hkeep
    obtain ⟨⟨g',final⟩,fires⟩ := judged.run h.waits hcalls hkeep
    have closed (e : String) (he : e ∈ edges) : ¬ (runFrom next s calls).deps.isOpen e :=
      closed_run hcalls fun _ => hall e he
    have hg' : g'.groupState = g.verdictOn edges outcome := final.final closed
    rw [final.groupState,← hg']
    exact ⟨rfl,final.child,fires⟩

/-- The calls that apply two edges to a new child, and the report of one outcome. -/
def Client.staging (a : PolicyArgs) : List Call :=
  [create 10,⟨11,.setEdgeGroupPolicy a⟩,⟨12,.applyDependency { flowId := "f", edgeId := "u" }⟩,
    ⟨13,.applyDependency { flowId := "f", edgeId := "v" }⟩]

def Client.report (now : Int) (edgeId : String) (upstreamOutcome : TerminalOutcome) : Call :=
  ⟨now,.resolveDependency { edgeId, upstreamOutcome, nowMs := now }⟩

/-- One of two upstreams is enough. The failure comes first, and the success twice. -/
theorem Client.any_of_is_satisfied :
    let s := run (staging { policyVariant := .anyOf, onSatisfied := .letRun })
    let calls := [report 14 "u" .failed,report 15 "v" .success,report 16 "v" .success]
    (runFrom next s calls).groupState = some .satisfied ∧ Along next (fun s i => s.firesWith (next i s)) s calls := by
  intro s calls
  obtain ⟨g,hg,hp,hk,hn⟩ : ∃ g, s.deps.edgeGroup = some g ∧ g.groupState = .pending ∧
      g.required = 1 ∧ g.n = 2 := ⟨_,rfl,by decide +kernel⟩
  obtain ⟨c,hc,hw⟩ : ∃ c, s.core = some c ∧ c.awaitsDependencies := ⟨_,rfl,by decide +kernel⟩
  have edges : s.deps.unresolved = {"u","v"} := by decide +kernel
  have staged : Staged {"u","v"} g c s := by
    rw [← edges]
    refine staged_of_mirrored (run_mirrored (by decide +kernel)) hg hp hc hw ?_ ?_ <;> rw [hn] <;> decide +kernel
  have verdict := (verdict_is_order_free_iff staged (by omega) (by rw [hk]; decide)
    (fun e => if e = "u" then .failed else .success) calls (by simp [calls,report,Call.reports])
    (by simp [calls,report,Call.resolves])).mpr (by decide +kernel)
  have hv : g.verdictOn {"u","v"} (fun e => if e = "u" then .failed else .success) = .satisfied := by
    rw [EdgeGroup.verdictOn,hk]
    decide
  exact ⟨hv ▸ verdict.1,verdict.2.2⟩

/-- Both upstreams are needed and the first one fails. The second one makes the group satisfied
that was impossible, while the child stays skipped. -/
theorem Client.late_success_overrides_failure :
    let s := run (staging { policyVariant := .allOf })
    let failed := next (report 14 "u" .failed) s
    let succeeded := next (report 15 "v" .success) failed
    failed.groupState = some .impossible ∧ succeeded.groupState = some .satisfied ∧
      succeeded.core.map (·.terminalOutcome) = some .skipped ∧
      (runFrom next s [report 14 "v" .success,report 15 "u" .failed]).groupState = some .impossible := by
  decide +kernel

end FlowFabric
