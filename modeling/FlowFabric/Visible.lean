import FlowFabric.Refinement
import FlowFabric.Refusal

/-! What users see of an execution over a whole run: how it ends, that the end is final,
and whether its label is the derived one. -/
namespace FlowFabric
open Foundation Store

/-- The stored life, if there is one, has the property. -/
def Store.lives (P : Life → Prop) (s : Store) : Prop := ∀ c, s.core = some c → P c.life

variable (e : EligibilityState) (calls : List Call)

theorem Life.born_sound : (Life.born e).Sound := by simp [Life.Sound,Life.born]

theorem lives_next {P : Life → Prop} (born : ∀ e, P (Life.born e)) (s : Store) (i : Call)
    (kept : ∀ ev c l', s.core = some c → i.op.mayCause ev → Life.Step ev c.life l' → P l') : (next i s).lives P := by
  intro c' hc'
  cases hc : s.core with
  | none =>
    rcases next_born i hc with hn | ⟨c,e,hn,he⟩
    · simp [hn] at hc'
    · rw [hn] at hc'
      cases hc'
      rw [he]
      exact born e
  | some c =>
    obtain ⟨ev,c'',hn,cause,hstep⟩ := next_lives i hc
    rw [hn] at hc'
    cases hc'
    exact kept ev c c'.life hc cause hstep

variable (s : Store) (i : Call)

theorem sound_next (h : s.lives Life.Sound) : (next i s).lives Life.Sound :=
  lives_next Life.born_sound s i fun _ c _ hc _ hstep => hstep.sound (h c hc)

theorem run_sound : (run calls).lives Life.Sound := runFrom_invariant sound_next (by simp [lives]) calls

theorem Life.born_honest : (Life.born e).Honest := by
  intro h
  cases e <;> cases h

theorem honest_next (h : s.lives Life.Honest) : (next i s).lives Life.Honest :=
  lives_next Life.born_honest s i fun _ c _ hc _ hstep => hstep.honest (h c hc)

theorem run_honest : (run calls).lives Life.Honest := runFrom_invariant honest_next (by simp [lives]) calls

/-- An execution that exists stays, and whatever is called, it lives on by steps of the abstract
machine. -/
theorem runs_live_on (s : Store) : s.lives fun l => ∃ c, (runFrom next s calls).core = some c ∧
      Relation.ReflTransGen (fun l l' => ∃ ev, Life.Step ev l l') l c.life := by
  intro c hc
  induction calls generalizing s c with
  | nil => exact ⟨c,hc,.refl⟩
  | cons i calls ih =>
    obtain ⟨ev,c',hn,-,step⟩ := next_lives i hc
    obtain ⟨last,hlast,lived⟩ := ih (next i s) c' hn
    exact ⟨last,hlast,lived.head ⟨ev,step⟩⟩

def Call.replays (s : Store) : Bool :=
  match i.op with
  | .replay _ => i.succeeds s
  | _ => false

theorem next_of_refused_replay {i : Call} {s : Store} {a : ReplayArgs} (hop : i.op = .replay a)
    (h : i.replays s = false) : next i s = s := by
  rcases step_cases i s with ⟨-,hs⟩ | ho
  · exact hs
  · rw [hop] at ho
    have hr : (step i s).1.isError = false := replayExecution_reply ho
    simp [Call.replays,hop,Call.succeeds,hr] at h

def Store.EndedAs (l : Life) (s : Store) : Prop :=
  s.lives Life.Sound ∧ ∃ c, s.core = some c ∧ c.lifecyclePhase = .terminal ∧ l.SameEnd c.life

private theorem endedAs_next {l : Life} (s : Store) (i : Call) (h : s.EndedAs l) (hr : i.replays s = false) :
    (next i s).EndedAs l := by
  obtain ⟨hs,c,hc,ht,hl⟩ := h
  by_cases hop : ∃ a, i.op = .replay a
  · obtain ⟨a,hop⟩ := hop
    rw [next_of_refused_replay hop hr]
    exact ⟨hs,c,hc,ht,hl⟩
  · obtain ⟨ev,c',hc',cause,hstep⟩ := next_lives i hc
    have hev : ∀ e, ev ≠ .replay e := by
      rintro e rfl
      exact hop cause
    have he := hstep.absorbing (hs c hc) ht hev
    exact ⟨sound_next s i hs,c',hc',he.1.trans ht,hl.trans he⟩

/-- The end of an execution is final. In every reachable state there is an outcome exactly
when the phase is terminal, and no later calls but a successful replay change the phase, the
outcome, the label or the completion time of a terminal execution. -/
theorem terminal_is_absorbing (calls later : List Call)
    (h : Along next (fun s i => i.replays s = false) (run calls) later) : ∀ c, (run calls).core = some c →
      (c.terminalOutcome ≠ .none ↔ c.lifecyclePhase = .terminal) ∧ (c.lifecyclePhase = .terminal →
          ∃ c', (run (calls ++ later)).core = some c' ∧ c'.lifecyclePhase = .terminal ∧
            c'.terminalOutcome = c.terminalOutcome ∧ c'.publicState = c.publicState ∧
            c'.completedAt = c.completedAt) := by
  intro c hc
  refine ⟨run_sound calls c hc,fun ht => ?_⟩
  have start : (run calls).EndedAs c.life := ⟨run_sound calls,c,hc,ht,Life.SameEnd.refl _⟩
  obtain ⟨-,c',hc',ht',-,ho,hl,hf⟩ := h.invariant endedAs_next start
  rw [run,runFrom_append]
  exact ⟨c',hc',ht',ho,hl,hf⟩

/-- A completed execution stays completed when it is cancelled, expires or is replayed
more often than its policy allows. -/
theorem completed_stays_completed : let policy : JsonText := .doc (.obj [("max_replay_count",.num 0)])
    let calls : List Call :=
      [⟨10,.create { executionId := "e", priority := .number 5, schedulingZset := .eligible
                     policyJson := policy }⟩,
        Client.grant 11,Client.claim 12 "L1" "a1",Client.complete 13 ⟨"L1","1","a1"⟩]
    let later : List Call :=
      [⟨14,.cancel { executionId := "e" }⟩,⟨15,.expire { executionId := "e" }⟩,⟨16,.replay { executionId := "e" }⟩]
    (run calls).core.map (·.terminalOutcome) = some .success ∧
      (run (calls ++ later)).core.map (·.terminalOutcome) = some .success := by
  intro policy calls later
  have completed : (run calls).core.map (·.terminalOutcome) = some .success := by decide +kernel
  obtain ⟨c,hc,ho⟩ := Option.map_eq_some_iff.mp completed
  obtain ⟨hend,hstay⟩ := terminal_is_absorbing calls later (by decide +kernel) c hc
  obtain ⟨c',hc',-,ho',-⟩ := hstay (hend.mp (by simp [ho]))
  exact ⟨completed,by simp [hc',ho',ho]⟩

/-- The label is the derived one. -/
def Store.labelled : Prop := ∀ c, s.core = some c → c.stateVector.isConsistent

private theorem labelled_iff_lives : s.labelled ↔ s.lives Life.Consistent := by
  simp [labelled,lives,Life.Consistent,StateVector.isConsistent,ExecCore.stateVector,StateVector.derivePublicState]

/-- A runnable execution is blocked only for its budget or its quota. -/
def Call.blocksForRate (s : Store) : Prop :=
  ∀ a c, i.op = .block a → s.core = some c → c.lifecyclePhase = .runnable →
    a.blockingReason ≠ .waitingForCapableWorker ∧ a.blockingReason ≠ .pausedByOperator ∧
      a.blockingReason ≠ .pausedByPolicy

theorem blocked_inconsistent {c : ExecCore} {reason : BlockingReason}
    (h : reason = .waitingForCapableWorker ∨ reason = .pausedByOperator ∨ reason = .pausedByPolicy) :
    ∃ e, reason.toEligibility = some e ∧ ¬ (c.blocked e reason).life.Consistent := by
  rcases h with rfl | rfl | rfl <;> exact ⟨_,rfl,by simp [Life.Consistent,ExecCore.blocked,derivePublicState]⟩

theorem consistent_next (h : s.lives Life.Consistent) (hb : i.blocksForRate s) : (next i s).lives Life.Consistent := by
  refine lives_next (fun _ => rfl) s i fun ev c l' hc cause hstep => hstep.consistent (h c hc) ?_
  rintro e rfl
  obtain ⟨a,hop,he⟩ := cause
  obtain ⟨h1,h2,h3⟩ := hb a c hop hc (by cases hstep; assumption)
  cases hr : a.blockingReason <;> simp_all [BlockingReason.toEligibility]

theorem blocksForRate_of_consistent (h : (next i s).lives Life.Consistent) : i.blocksForRate s := by
  intro a c hop hc hp
  obtain ⟨now,op⟩ := i
  cases hop
  by_contra hn
  obtain ⟨e,he,hbad⟩ := @blocked_inconsistent c a.blockingReason (by tauto)
  exact hbad (h _ (by simp [next_block,hc,hp,he]))

/-- The stored label is the derived one in every state of a run exactly when no call of
the run blocks a runnable execution for a reason other than its budget or its quota. -/
theorem labelled_iff_blocksForRate (calls : List Call) :
    Throughout next Store.labelled {} calls ↔ Along next (fun s i => i.blocksForRate s) {} calls := by
  refine throughout_iff_along (fun s i hs => ?_) (by simp [labelled])
  rw [labelled_iff_lives] at hs ⊢
  exact ⟨consistent_next s i hs,blocksForRate_of_consistent s i⟩

/-- An execution that an operator pauses is shown as rate limited. -/
theorem paused_execution_mislabelled : let paused := run [Client.create 10,
      ⟨11,.block { executionId := "e", blockingReason := .pausedByOperator, nowMs := 11
                   blockedZset := .blockedOperator }⟩]
    paused.core.map (·.publicState) = some .rateLimited ∧
      paused.core.map (·.stateVector.derivePublicState) = some .waiting := by
  decide +kernel

end FlowFabric
