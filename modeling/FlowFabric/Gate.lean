import FlowFabric.Visible

/-! The dependency gate of an all-of group: when a child that a worker may take has no
unresolved edge. -/
namespace FlowFabric
open Foundation Finset Op

def DependencyKeys.isOpen (d : DependencyKeys) (edgeId : String) : Bool :=
  (d.dependency edgeId).any fun p => decide (p.state = .unsatisfied)

/-- The records of an all-of group. The unresolved edges are the open ones and the counter
is no smaller than their number. -/
structure DependencyKeys.Counted (d : DependencyKeys) : Prop where
  listed : ∀ e, e ∈ d.unresolved ↔ d.isOpen e
  counted : (d.unresolved.card : Int) ≤ d.unsatisfiedRequiredCount
  allOf : ∀ g, d.edgeGroup = some g → g.policyVariant = .allOf

namespace DependencyKeys.Counted
variable {d d' : DependencyKeys}

theorem apply (h : d.Counted) (a : ApplyArgs) : (d.apply a).Counted := by
  refine ⟨fun e => ?_,?_,fun g hg => ?_⟩
  · have := h.listed e
    by_cases he : e = a.edgeId <;> simp_all [DependencyKeys.apply,isOpen]
  · have := card_insert_le a.edgeId d.unresolved
    have := h.counted
    simp only [DependencyKeys.apply]
    omega
  · cases hd : d.edgeGroup with
    | none =>
      simp only [DependencyKeys.apply,hd,Option.some.injEq] at hg
      rw [← hg]
    | some g' =>
      simp only [DependencyKeys.apply,hd,Option.some.injEq] at hg
      rw [← hg]
      exact h.allOf g' hd

theorem settles {a : ResolveArgs} (h : d.Counted) (hs : Settles a d d') : d'.Counted := by
  obtain ⟨⟨dep,hdep,hun⟩,⟨state,hne,hdeps⟩,hres,hpol,hcount⟩ := hs
  have mem : a.edgeId ∈ d.unresolved := (h.listed _).mpr (by simp [isOpen,hdep,hun])
  refine ⟨fun e => ?_,?_,fun g hg => ?_⟩
  · have := h.listed e
    by_cases he : e = a.edgeId
    · simp [isOpen,hres,hdeps,settle,he,hdep,hne]
    · simp_all [isOpen,settle]
  · rw [hres,hcount h.allOf]
    have := card_erase_add_one mem
    have := h.counted
    omega
  · cases hd : d.edgeGroup with
    | none => simp [hg,hd] at hpol
    | some g' =>
      rw [hg,hd] at hpol
      exact (Option.some.inj hpol).trans (h.allOf g' hd)

end DependencyKeys.Counted

namespace DependencyKeys

variable (d : DependencyKeys) (es : List String)

theorem reopen_edgeGroup : (d.reopen es).1.edgeGroup = d.edgeGroup := by fun_induction d.reopen es <;> simp_all

theorem card_left_out (u : Finset String) (e : String) (rest : List String) :
    (u \ rest.toFinset).card ≤ (u \ (e :: rest).toFinset).card + 1 := by
  refine (card_le_card fun x hx => ?_).trans (card_insert_le e _)
  by_cases hxe : x = e <;> simp_all

private theorem reopen_counted (h : ∀ e, e ∈ d.unresolved ↔ d.isOpen e) :
    (∀ e, e ∈ (d.reopen es).1.unresolved ↔ (d.reopen es).1.isOpen e) ∧
      ((d.reopen es).1.unresolved.card : Int) ≤ (d.reopen es).2 + (d.unresolved \ es.toFinset).card := by
  fun_induction d.reopen es with
  | case1 d => exact ⟨h,by simp⟩
  | case2 d e rest ref hd d1 n hr ih =>
    rw [hr] at ih
    obtain ⟨hl,hc⟩ := ih fun x => by by_cases hx : x = e <;> simp_all [isOpen]
    refine ⟨hl,?_⟩
    have hleft := card_left_out (insert e d.unresolved) e rest
    have hsame : insert e d.unresolved \ (e :: rest).toFinset = d.unresolved \ (e :: rest).toFinset := by
      ext x
      by_cases hx : x = e <;> simp [hx]
    rw [hsame] at hleft
    dsimp only at hc ⊢
    omega
  | case3 d e rest ref hd d1 n hr ih =>
    rw [hr] at ih
    obtain ⟨hl,hc⟩ := ih h
    refine ⟨hl,?_⟩
    have hleft := card_left_out d.unresolved e rest
    dsimp only at hc ⊢
    omega
  | case4 d e rest hi hu ih =>
    obtain ⟨hl,hc⟩ := ih h
    refine ⟨hl,?_⟩
    have he : e ∉ d.unresolved := by
      rw [h e]
      intro ho
      simp only [isOpen,Option.any_eq_true,decide_eq_true_eq] at ho
      obtain ⟨⟨state,ref⟩,hd,rfl⟩ := ho
      exact hu ref hd
    have hsame : d.unresolved \ (e :: rest).toFinset = d.unresolved \ rest.toFinset := by
      ext x
      by_cases hx : x = e <;> simp [hx,he]
    rwa [hsame]

theorem Counted.reopen {d : DependencyKeys} {es : List String} (h : d.Counted) (hes : d.unresolved ⊆ es.toFinset) :
    Counted { (d.reopen es).1 with
      unsatisfiedRequiredCount := (d.reopen es).2, impossibleRequiredCount := 0 } := by
  obtain ⟨hl,hc⟩ := reopen_counted d es h.listed
  refine ⟨hl,?_,fun g hg => h.allOf g ((d.reopen_edgeGroup es).symm.trans hg)⟩
  rw [sdiff_eq_empty_iff_subset.mpr hes] at hc
  simpa using hc

end DependencyKeys

def ExecCore.offered (c : ExecCore) : Prop := c.lifecyclePhase = .runnable ∧ c.eligibilityState = .eligibleNow

/-- The edges are counted, and an execution that is offered has none left. -/
structure Store.gated (s : Store) : Prop where
  edges : s.deps.Counted
  unborn : s.core = none → s.deps.unresolved = ∅
  shut : ∀ c, s.core = some c → c.offered → s.deps.unresolved = ∅

/-- The calls that respect the gate. The group stays an all-of group. A promotion, an unblock,
a resume without a delay and a replay, which make an execution eligible without a look at its
edges, and a claim that goes on with an interrupted attempt, meet none unresolved. The replay
of a skipped flow member lists the unresolved ones. -/
def Op.keepsGate (op : Op) (s : Store) : Bool :=
  let resolved : Prop := s.deps.unresolved = ∅
  match op with
  | .setEdgeGroupPolicy a => decide (a.policyVariant = .allOf)
  | .issueGrantAndClaim _ =>
    s.core.all fun c => decide (c.lifecyclePhase = .runnable → c.attemptState = .attemptInterrupted → resolved)
  | .promoteDelayed _ =>
    s.core.all fun c => decide (c.lifecyclePhase = .runnable → c.eligibilityState = .notEligibleUntilTime → resolved)
  | .unblock _ => s.core.all fun c => decide (c.lifecyclePhase = .runnable → c.eligibilityState.unblockable → resolved)
  | .resume { resumeDelayMs, .. } | .deliverSignal { resumeDelayMs, .. } =>
    s.core.all fun c => decide (c.lifecyclePhase = .suspended → resumeDelayMs ≤ 0 → resolved)
  | .expireSuspension _ =>
    s.core.all fun c => s.wait.activeSuspension.all fun p =>
      decide (c.lifecyclePhase = .suspended → p.timeoutBehavior.resumes → resolved)
  | .replay a =>
    s.core.all fun c => decide (c.lifecyclePhase = .terminal →
      if c.terminalOutcome = .skipped ∧ c.flowId ≠ "" then s.deps.unresolved ⊆ a.edgeIds.toFinset
      else resolved)
  | _ => true

variable {op : Op} {s t : Store} {c c' : ExecCore} {now : Int}

namespace Store.gated

theorem same (h : s.gated) (hc : t.core = s.core) (hd : t.deps = s.deps) : t.gated := by
  obtain ⟨he,hu,hs⟩ := h
  exact ⟨hd ▸ he,hd ▸ hc ▸ hu,hd ▸ hc ▸ hs⟩

variable (ht : t.core = some c')
include ht

theorem counted (h : t.deps.Counted) (hs : c'.offered → t.deps.unresolved = ∅) : t.gated := by
  refine ⟨h,fun hn => by simp [ht] at hn,fun c hc ho => ?_⟩
  rw [ht] at hc
  cases hc
  exact hs ho

theorem core (h : s.gated) (hd : t.deps = s.deps) (hs : c'.offered → s.deps.unresolved = ∅) : t.gated := by
  rw [← hd] at hs
  exact counted ht (hd ▸ h.edges) hs

theorem busy (h : s.gated) (hd : t.deps = s.deps) (hp : c'.lifecyclePhase ≠ .runnable) : t.gated :=
  core ht h hd fun ho => (hp ho.1).elim

theorem waiting (h : s.gated) (hd : t.deps = s.deps) (he : c'.eligibilityState ≠ .eligibleNow) : t.gated :=
  core ht h hd fun ho => (he ho.2).elim

end Store.gated

theorem resumed_shut {p : Prop} {delayMs : Int} (h : delayMs ≤ 0 → p) : (c.resumed delayMs).offered → p := by
  rintro ⟨-,he⟩
  refine h (not_lt.mp fun hd => ?_)
  simp [ExecCore.resumed,hd] at he

theorem Effect.gated (h : Effect s now op t) (hl : s.lives Life.Sound) (hs : s.gated)
    (hk : op.keepsGate s) : t.gated := by
  cases h with
  | created a priority caps absent => exact .core rfl hs rfl fun _ => hs.unborn absent
  | claimed | claimResumed | grantClaimResumed | reclaimCapped | reclaimed | revoked | completed | failedTerminal
  | suspended | escalated | timedOut => exact .busy rfl hs rfl fun h => by cases h
  | lapsed _ c hc =>
    unfold markExpired
    split
    · exact hs
    · exact .core rfl hs rfl (hs.shut c hc)
  | renewed a c _ _ _ hc | progressed a c _ _ hc
  | prioritized a c _ _ hc | joined a c hc => exact .core rfl hs rfl (hs.shut c hc)
  | failRetried | delayed | moved => exact .waiting rfl hs rfl fun h => by cases h
  | cancelled a c => exact .busy rfl hs (cancelPhase_frame ..).1 fun h => by cases h
  | expired a c => exact .busy rfl hs (expirePhase_frame ..).1 fun h => by cases h
  | promoted a c hc runnable waiting =>
    exact .core rfl hs rfl fun _ => by simpa [keepsGate,hc,runnable,waiting] using hk
  | blocked a c e hc runnable reason =>
    refine .waiting rfl hs rfl ?_
    rintro rfl
    cases hr : a.blockingReason <;> rw [hr] at reason <;> cases reason
  | unblocked a c hc runnable held => exact .core rfl hs rfl fun _ => by simpa [keepsGate,hc,runnable,held] using hk
  | resumed a c p hc suspended =>
    exact .core rfl hs rfl (resumed_shut fun hd => by simpa [keepsGate,hc,suspended,hd] using hk)
  | autoResumed a c p hc suspended hp resumes =>
    exact .core rfl hs rfl fun _ => by simpa [keepsGate,hc,suspended,hp,resumes] using hk
  | signalResumed a c p cond w taken | compositeResumed a c p cond w taken =>
    simp only [plainResume,compositeResume,Store.resumeSuspended]
    split
    · rename_i hp
      exact .core rfl hs rfl (resumed_shut fun hd => by simpa [keepsGate,taken.core,hp,hd] using hk)
    · exact hs.same rfl rfl
  | policySet a g policy =>
    have hg : g.policyVariant = .allOf := policy.trans (of_decide_eq_true hk)
    have edges : DependencyKeys.Counted { s.deps with edgeGroup := some g } :=
      ⟨hs.edges.listed,hs.edges.counted,fun g' hg' => by cases hg'; exact hg⟩
    exact ⟨edges,hs.unborn,hs.shut⟩
  | applied a c hc =>
    unfold Store.blockChild
    split
    · exact .counted rfl (hs.edges.apply a) fun ho => by cases ho.2
    · rename_i hp
      refine .counted hc (hs.edges.apply a) fun ho => ?_
      have hsound := hl c hc
      simp_all [Life.Sound,ExecCore.offered]
  | resolved a d t settles settled =>
    have edges := hs.edges.settles settles
    have shut {c : ExecCore} (hc : s.core = some c) (ho : c.offered) : d.unresolved = ∅ := by
      rw [settles.unresolved,hs.shut c hc ho,erase_empty]
    cases settled with
    | kept =>
      refine ⟨edges,fun hn => ?_,fun c hc ho => shut hc ho⟩
      exact settles.unresolved.trans (by rw [hs.unborn hn,erase_empty])
    | released c hc hw hd =>
      have none_left : d.unresolved.card = 0 := by
        have := edges.counted
        have := hd hs.edges.allOf
        omega
      exact .counted rfl edges fun _ => card_eq_zero.mp none_left
    | skipped c hc ho => exact .counted rfl edges fun ho => by cases ho.1
  | released c hc runnable waiting unfinished resolved => exact .core rfl hs rfl fun _ => resolved
  | replayedSkipped a c hc finished skipped member =>
    have listed : s.deps.unresolved ⊆ a.edgeIds.toFinset := by simpa [keepsGate,hc,finished,skipped,member] using hk
    exact .counted rfl (hs.edges.reopen listed) fun ho => by cases ho.2
  | replayedNormal a c hc finished other =>
    exact .core rfl hs rfl fun _ => by simpa [keepsGate,hc,finished,other] using hk
  | _ => exact hs.same rfl rfl

private theorem run_gated {calls : List Call} (h : Along next (fun s i => i.op.keepsGate s) {} calls) :
    (run calls).gated := by
  have start : Store.gated {} := ⟨⟨by simp [DependencyKeys.isOpen],by simp,by simp⟩,by simp,by simp⟩
  have both := h.invariant (I := fun s => s.lives Life.Sound ∧ s.gated)
    (fun s i hs hi => ⟨sound_next s i hs.1,(next_effect i s).gated hs.1 hs.2 hi⟩)
    ⟨by simp [Store.lives],start⟩
  exact both.2

def Call.grants (i : Call) (s : Store) : Bool :=
  match i.op with
  | .issueClaimGrant _ | .issueGrantAndClaim _ => i.succeeds s
  | _ => false

theorem grants_cases {i : Call} (h : i.grants s) :
    ∃ c, s.core = some c ∧ (c.offered ∨ ∃ a, i.op = .issueGrantAndClaim a ∧
      c.lifecyclePhase = .runnable ∧ c.attemptState = .attemptInterrupted) := by
  obtain ⟨now,op⟩ := i
  cases op with
  | issueClaimGrant =>
    obtain ⟨-,c,hc,hp,he,-⟩ := issueClaimGrant_ok (outcome_of_succeeds h)
    exact ⟨c,hc,.inl ⟨hp,he⟩⟩
  | issueGrantAndClaim a =>
    have hok := outcome_of_succeeds h
    obtain ⟨c,hc,hp,⟨herr,-⟩ | ⟨_,_,-,hi,-⟩ | ⟨_,_,-,ready,-⟩⟩ := issueGrantAndClaim_ok hok
    · have hr : (step ⟨now,.issueGrantAndClaim a⟩ s).1.isError = false := by
        simpa [Call.grants,Call.succeeds] using h
      exact absurd (hr.symm.trans herr) (by decide)
    · exact ⟨c,hc,.inr ⟨a,rfl,hp,hi⟩⟩
    · exact ⟨c,hc,.inl ⟨hp,ready.eligible⟩⟩
  | _ => cases h

/-- In every run of an all-of group whose calls respect the gate, an execution that is
runnable and eligible has no unresolved edge, and none is granted before. -/
theorem children_wait_for_their_edges (calls : List Call) (h : Along next (fun s i => i.op.keepsGate s) {} calls) :
    (∀ c, (run calls).core = some c → c.lifecyclePhase = .runnable → c.eligibilityState = .eligibleNow →
      (run calls).deps.unresolved = ∅ ∧ ∀ e, ¬ (run calls).deps.isOpen e) ∧
    ∀ i : Call, i.op.keepsGate (run calls) → i.grants (run calls) → (run calls).deps.unresolved = ∅ := by
  have gated := run_gated h
  refine ⟨fun c hc hp he => ?_,fun i hi hg => ?_⟩
  · have none_left := gated.shut c hc ⟨hp,he⟩
    refine ⟨none_left,fun e ho => ?_⟩
    rw [← gated.edges.listed,none_left] at ho
    exact notMem_empty e ho
  · obtain ⟨c,hc,ho | ⟨a,ha,hp,hat⟩⟩ := grants_cases hg
    · exact gated.shut c hc ho
    · simpa [keepsGate,ha,hc,hp,hat] using hi

/-- A child whose two upstreams have succeeded, after a pause by its budget. -/
theorem resolved_child_is_granted : let calls : List Call :=
      [Client.create 10,⟨11,.applyDependency { flowId := "f", edgeId := "u" }⟩,
        ⟨12,.applyDependency { flowId := "f", edgeId := "v" }⟩,
        ⟨13,.resolveDependency { edgeId := "u", upstreamOutcome := .success, nowMs := 13 }⟩,
        ⟨14,.resolveDependency { edgeId := "v", upstreamOutcome := .success, nowMs := 14 }⟩,
        ⟨15,.block { executionId := "e", blockingReason := .waitingForBudget, nowMs := 15
                     blockedZset := .blockedBudget }⟩,
        ⟨16,.unblock { executionId := "e", blockedZset := .blockedBudget }⟩]
    (Client.grant 17).grants (run calls) ∧ (run calls).deps.unresolved = ∅ := by
  intro calls
  have granted : (Client.grant 17).grants (run calls) := by decide +kernel
  exact ⟨granted,(children_wait_for_their_edges calls (by decide +kernel)).2 _ (by decide +kernel) granted⟩

/-- A child that waits for an upstream and is paused by its budget is granted once the pause
is over. -/
theorem unblocked_child_is_granted_early :
    let s := run [Client.create 10,⟨11,.applyDependency { flowId := "f", edgeId := "u" }⟩,
      ⟨12,.block { executionId := "e", blockingReason := .waitingForBudget, nowMs := 12
                   blockedZset := .blockedBudget }⟩,
      ⟨13,.unblock { executionId := "e", blockedZset := .blockedBudget }⟩]
    s.core.map (·.lifecyclePhase) = some .runnable ∧
      s.core.map (·.eligibilityState) = some .eligibleNow ∧ s.deps.unresolved = {"u"} ∧
      s.deps.isOpen "u" ∧ (Client.grant 14).grants s := by
  decide +kernel

end FlowFabric
