import FlowFabric.DueTimes
import FlowFabric.Standing
import FlowFabric.Visible

/-! What a claim has checked. A grant outlives the check made when it was issued, and of the two scripts
that use one only ff_claim_execution looks at the eligibility again. -/
namespace FlowFabric
open Foundation

/-- A runnable execution has no owner. -/
def Store.ownerless (s : Store) : Prop :=
  ∀ c, s.core = some c → c.lifecyclePhase = .runnable → c.ownershipState = .unowned

/-- Over, or waiting for a worker and, when its attempt was interrupted, eligible. -/
def ExecCore.Waits (c : ExecCore) : Prop :=
  c.lifecyclePhase = .runnable ∧ (c.attemptState = .attemptInterrupted → c.eligibilityState = .eligibleNow) ∨
    c.lifecyclePhase = .terminal

def Store.offered (s : Store) : Prop := ∀ c, s.core = some c → c.Waits

def Op.blocks : Op → Bool
  | .block _ | .applyDependency _ => true
  | _ => false

/-- The call neither uses the grant nor blocks the execution. -/
def Call.spares (s : Store) (i : Call) : Prop :=
  ∀ c, (next i s).core = some c → c.lifecyclePhase ≠ .active ∧
    (i.op.blocks → c.lifecyclePhase = .runnable → c.eligibilityState = .eligibleNow)

section
variable {s t : Store} {c c' : ExecCore} {now : Int} {op : Op}

private theorem next_ownerless (s : Store) (i : Call) (h : s.ownerless) : (next i s).ownerless := by
  intro c' hc' runnable
  have stood {c : ExecCore} (hc : s.core = some c) (stands : Stands c c') : c'.ownershipState = .unowned := by
    rcases stands.unowned runnable with hu | ⟨hr,hu⟩
    · exact hu
    · exact hu.trans (h c hc hr)
  cases (next_effect i s).advances with
  | kept core => exact h c' (core ▸ hc') runnable
  | aside hc ht stands | off hc ht stands | scored hc ht stands =>
    cases ht.symm.trans hc'
    exact stood hc stands
  | prioritized a hop hc ht =>
    cases ht.symm.trans hc'
    have unowned := h _ hc
    exact unowned runnable
  | created a hop hc ht =>
    cases ht.symm.trans hc'
    rfl

theorem run_ownerless (calls : List Call) : (run calls).ownerless :=
  runFrom_invariant next_ownerless (fun _ h => by cases h) calls

/-- What is runnable is nobody's, and what is active or suspended is not in the index that is claimed from. -/
theorem busy_is_not_offered (calls : List Call) : (run calls).ownerless ∧ (run calls).unlisted :=
  ⟨run_ownerless calls,run_unlisted calls⟩

theorem ExecCore.Waits.not_active (w : c.Waits) : c.lifecyclePhase ≠ .active := by
  rcases w with w | w <;> simp [w]

theorem ExecCore.Waits.not_suspended (w : c.Waits) : c.lifecyclePhase ≠ .suspended := by
  rcases w with w | w <;> simp [w]

theorem offered_of (ht : t.core = some c) (w : c.Waits) : t.offered := by
  intro c' hc'
  cases ht.symm.trans hc'
  exact w

/-- What a lease holder or a suspension does needs a phase an offered execution is not in. -/
theorem Effect.offered (h : Effect s now op t) (hs : s.offered)
    (spared : ∀ c, t.core = some c → c.lifecyclePhase ≠ .active ∧
      (op.blocks → c.lifecyclePhase = .runnable → c.eligibilityState = .eligibleNow)) : t.offered := by
  cases h with
  | created a priority caps absent => exact offered_of rfl (.inl ⟨rfl,fun h => by cases h⟩)
  | claimed | claimResumed | grantClaimResumed | reclaimed => exact ((spared _ rfl).1 rfl).elim
  | reclaimCapped a c hc lost => exact ((hs c hc).not_active lost.active).elim
  | lapsed _ c hc due => exact ((hs c hc).not_active due.active).elim
  | revoked a c hc active => exact ((hs c hc).not_active active).elim
  | renewed a c _ _ _ hc held | completed a c f hc held | failRetried a c f _ hc held
  | failedTerminal a c f hc held | delayed a c f hc held | moved a c f hc held | suspended a c b w hc held =>
    exact ((hs c hc).not_active held.active).elim
  | resumed a c p hc suspended | autoResumed a c p hc suspended | escalated a c p hc suspended
  | timedOut a c p hc suspended => exact ((hs c hc).not_suspended suspended).elim
  | signalResumed a c p cond w taken | compositeResumed a c p cond w taken =>
    simp only [plainResume,compositeResume,Store.resumeSuspended,if_neg (hs c taken.core).not_suspended]
    exact hs
  | cancelled | expired => exact offered_of rfl (.inr rfl)
  | progressed a c _ _ hc | joined a c hc | prioritized a c _ _ hc => exact offered_of rfl (hs c hc)
  | promoted | unblocked => exact offered_of rfl (.inl ⟨rfl,fun _ => rfl⟩)
  | blocked => exact offered_of rfl (.inl ⟨rfl,fun _ => (spared _ rfl).2 rfl rfl⟩)
  | applied a c hc =>
    intro c' hc'
    unfold Store.blockChild at hc' spared
    split at hc' <;> rename_i waits
    · cases hc'
      exact .inl ⟨waits.1,fun _ => (spared _ (by rw [if_pos waits]; rfl)).2 rfl waits.1⟩
    · exact hs c' hc'
  | released c hc runnable => exact offered_of rfl (.inl ⟨runnable,fun _ => rfl⟩)
  | resolved a d t settles settled =>
    cases settled with
    | kept => exact hs
    | released c hc waiting => exact offered_of rfl (.inl ⟨waiting.1,fun _ => rfl⟩)
    | skipped c hc => exact offered_of rfl (.inr rfl)
  | replayedSkipped a c hc | replayedNormal a c hc => exact offered_of rfl (.inl ⟨rfl,fun h => by cases h⟩)
  | _ => exact hs

theorem issueClaimGrant_offered {a : GrantArgs} (ok : Call.succeeds ⟨now,.issueClaimGrant a⟩ s) :
    (next ⟨now,.issueClaimGrant a⟩ s).offered := by
  obtain ⟨⟨g,ht⟩,c,hc,runnable,eligible,-⟩ := issueClaimGrant_ok (outcome_of_succeeds ok)
  rw [ht]
  exact offered_of hc (.inl ⟨runnable,fun _ => eligible⟩)

end

/-- The two scripts that use a grant. Under ff_claim_execution every claimed execution was eligible. Under
ff_claim_resumed_execution it was when nothing blocked it after its grant. -/
theorem claim_eligible (calls : List Call) (i : Call)
    (claims : (∃ a, i.op = .claim a) ∨ ∃ a, i.op = .claimResumed a) (ok : i.succeeds (run calls)) :
    ∃ c, (run calls).core = some c ∧ c.lifecyclePhase = .runnable ∧ c.ownershipState = .unowned ∧
      ((∃ a, i.op = .claim a) → c.eligibilityState = .eligibleNow) ∧
      ∀ before between now a, calls = before ++ ⟨now,.issueClaimGrant a⟩ :: between →
        Call.succeeds ⟨now,.issueClaimGrant a⟩ (run before) →
        Along next Call.spares (run (before ++ [⟨now,.issueClaimGrant a⟩])) between →
        c.eligibilityState = .eligibleNow := by
  have ownerless := run_ownerless calls
  have ho := outcome_of_succeeds ok
  obtain ⟨at_,op⟩ := i
  rcases claims with ⟨a,rfl⟩ | ⟨a,rfl⟩
  · obtain ⟨c,r,-,-,hc,ready,-⟩ := claimExecution_ok ho
    exact ⟨c,hc,ready.runnable,ready.unowned,fun _ => ready.eligible,fun _ _ _ _ _ _ _ => ready.eligible⟩
  · obtain ⟨c,hc,runnable,interrupted,-⟩ := claimResumedExecution_ok ho
    refine ⟨c,hc,runnable,ownerless c hc runnable,fun other => (by cases other; contradiction),?_⟩
    intro before between now g split issued spared
    have offered : (run calls).offered := by
      rw [split,List.append_cons,run,runFrom_append]
      refine spared.invariant (fun s i hs spared => (next_effect i s).offered hs spared) ?_
      rw [runFrom_append]
      exact issueClaimGrant_offered issued
    rcases offered c hc with ⟨-,eligible⟩ | ended
    · exact eligible interrupted
    · rw [runnable] at ended
      cases ended

namespace Client

def resumable : List Call :=
  [secret 10,create 10,grant 11,claim 12 "L1" "a1",suspend 13 ⟨"L1","1","a1"⟩ "s" "w" "key",resume 14 "w"]

def overBudget (now : Int) : Call :=
  ⟨now,.block { executionId := "e", blockingReason := .waitingForBudget, blockedZset := .blockedBudget, nowMs := now }⟩

/-- Granted, given another priority, and claimed. -/
theorem claim_eligible_granted :
    let urgent : Call := ⟨16,.changePriority { executionId := "e", newPriority := .number 9 }⟩
    let calls := resumable ++ [grant 15,urgent]
    (claimResumed 17 "L2").succeeds (run calls) ∧
      ∃ c, (run calls).core = some c ∧ c.eligibilityState = .eligibleNow := by
  intro urgent calls
  have ok : (claimResumed 17 "L2").succeeds (run calls) := by decide
  have spared : Call.spares (run (resumable ++ [grant 15])) urgent := by
    intro c hc
    have runnable : (next urgent (run (resumable ++ [grant 15]))).core.map (·.lifecyclePhase) = some .runnable := by
      decide
    rw [hc,Option.map_some,Option.some.injEq] at runnable
    exact ⟨by simp [runnable],fun blocks => by cases blocks⟩
  obtain ⟨c,hc,-,-,-,h⟩ := claim_eligible calls (claimResumed 17 "L2") (.inr ⟨_,rfl⟩) ok
  exact ⟨ok,c,hc,h resumable [urgent] 15 _ rfl (by decide) ⟨spared,trivial⟩⟩

/-- Granted, blocked by its budget, and claimed. -/
theorem claimResumed_blocked : let calls := resumable ++ [grant 15,overBudget 16]
    (claimResumed 17 "L2").succeeds (run calls) ∧
      ((run calls).core.map (·.eligibilityState)) = some .blockedByBudget := by
  decide

end Client

end FlowFabric
