import FlowFabric.Effect
import FlowFabric.Lifecycle

/-! The stored executions live the lives of the abstract machine, and what holds of every
run because of it. -/
namespace FlowFabric

@[simps] def ExecCore.life (c : ExecCore) : Life where
  phase := c.lifecyclePhase
  eligibility := c.eligibilityState
  outcome := c.terminalOutcome
  label := c.publicState
  epoch := c.currentLeaseEpoch
  finishedAt := c.completedAt

open ExecCore

def Op.isClaim : Op → Bool
  | .claim _ | .claimResumed _ | .issueGrantAndClaim _ | .reclaim _ => true
  | _ => false

/-- The events that only some scripts bring about. -/
def Op.mayCause (op : Op) : Life.Event → Prop
  | .lease => op.isClaim
  | .admission e => ∃ a, op = .block a ∧ a.blockingReason.toEligibility = some e
  | .replay _ => ∃ a, op = .replay a
  | _ => True

/-- How one operation changes the stored hash, in the terms of the abstract machine. -/
inductive Evolves (op : Op) : Option ExecCore → Option ExecCore → Prop
  | absent : Evolves op none none
  | born (c e) (h : c.life = Life.born e) : Evolves op none (some c)
  | lived (ev c c') (cause : op.mayCause ev) (h : Life.Step ev c.life c'.life) : Evolves op (some c) (some c')

variable {op : Op} {s t : Store} {c c' : ExecCore} {now : Int}

theorem Evolves.same (h : t.core = s.core) : Evolves op s.core t.core := by
  rw [h]
  cases s.core with
  | none => exact .absent
  | some c => exact .lived .touch c c trivial (.touch _)

theorem Evolves.by (ev : Life.Event) (hc : s.core = some c) (ht : t.core = some c') (cause : op.mayCause ev)
    (h : Life.Step ev c.life c'.life) : Evolves op s.core t.core := by
  rw [hc,ht]
  exact .lived ev c c' cause h

theorem may_finish {phase : LifecyclePhase} (hp : c.lifecyclePhase = phase) (h : phase ≠ .terminal) :
    c.life.phase ≠ .terminal ∨ c.life.outcome = .none := by
  left
  rwa [← hp] at h

private theorem newCore_born (a : CreateArgs) (priority now : Int) (caps : String) :
    ∃ e, (newCore a priority now caps).life = Life.born e := by
  refine ⟨(newCore a priority now caps).eligibilityState,?_⟩
  unfold newCore
  dsimp only
  split <;> rfl

theorem resumed_life (c : ExecCore) (delayMs : Int) :
    (c.resumed delayMs).life = c.life.wait (c.resumed delayMs).eligibilityState := by
  unfold resumed
  split <;> rfl

theorem dependenciesMet_life (h : c.lifecyclePhase = .runnable) :
    Life.Step (.reschedule .eligibleNow) c.life c.dependenciesMet.life := by
  have hl : c.dependenciesMet.life = c.life.wait .eligibleNow := by
    simp [life,dependenciesMet,Life.wait,derivePublicState,h]
  rw [hl]
  exact .reschedule _ _ h

private theorem timedOut_life {behavior : TimeoutBehavior} : behavior.outcome.1 ≠ .none ∧
      (c.timedOut behavior now).life = c.life.finished behavior.outcome.1 now := by
  cases behavior <;> exact ⟨by decide,rfl⟩

theorem Effect.evolves (h : Effect s now op t) : Evolves op s.core t.core := by
  cases h with
  | created a priority caps absent =>
    obtain ⟨e,he⟩ := newCore_born a priority now caps
    rw [absent]
    exact .born _ e he
  | claimed _ a c r hop hr hc ready =>
    refine .by .lease hc rfl ?_ (.lease _ (.inl ready.runnable))
    rcases hop with rfl | rfl <;> rfl
  | claimResumed a c r timeout hr hc runnable | grantClaimResumed a c r hr hc runnable =>
    exact .by .lease hc rfl rfl (.lease _ (.inl runnable))
  | reclaimCapped a c hc lost =>
    exact .by (.finish .failed) hc rfl trivial
      (.finish _ _ now (may_finish lost.active (by decide)) (by decide))
  | reclaimed a c r hr hc lost => exact .by .lease hc rfl rfl (.lease _ (.inr lost.active))
  | lapsed _ c hc due =>
    unfold markExpired
    split
    · exact .same rfl
    · exact .by .lapse hc rfl trivial (.lapse _ _ due.active (.inr rfl))
  | renewed a c _ _ _ hc | progressed a c _ _ hc
  | prioritized a c _ _ hc | joined a c hc => exact .by .touch hc rfl trivial (.touch _)
  | revoked a c hc active =>
    refine .by .lapse hc rfl trivial ?_
    have hl : (c.revoked now).life = { c.life with outcome := .none, label := .active } := by
      simp [ExecCore.life,ExecCore.revoked,active]
    rw [hl]
    exact .lapse _ _ active (.inl rfl)
  | completed a c f hc held =>
    exact .by (.finish .success) hc rfl trivial
      (.finish _ _ now (may_finish held.active (by decide)) (by decide))
  | failRetried a c f delayUntil hc held =>
    exact .by (.park .notEligibleUntilTime) hc rfl trivial (.park _ _ held.active)
  | failedTerminal a c f hc held =>
    exact .by (.finish .failed) hc rfl trivial
      (.finish _ _ now (may_finish held.active (by decide)) (by decide))
  | delayed a c f hc held => exact .by (.park .notEligibleUntilTime) hc rfl trivial (.park _ _ held.active)
  | moved a c f hc held => exact .by (.park .blockedByDependencies) hc rfl trivial (.park _ _ held.active)
  | cancelled a c hc unfinished =>
    exact .by (.finish .cancelled) hc rfl trivial (.finish _ _ now (.inl unfinished) (by decide))
  | expired a c hc unfinished =>
    exact .by (.finish .expired) hc rfl trivial (.finish _ _ now (.inl unfinished) (by decide))
  | promoted a c hc runnable | unblocked a c hc runnable =>
    exact .by (.reschedule .eligibleNow) hc rfl trivial (.reschedule _ _ runnable)
  | blocked a c e hc runnable reason => exact .by (.admission e) hc rfl ⟨a,rfl,reason⟩ (.admission _ _ runnable)
  | suspended a c b w hc held => exact .by .suspend hc rfl trivial (.suspend _ held.active)
  | resumed a c p hc suspended =>
    refine .by (.resume (c.resumed a.resumeDelayMs).eligibilityState) hc rfl trivial ?_
    rw [resumed_life]
    exact .resume _ _ suspended
  | autoResumed a c p hc suspended => exact .by (.resume .eligibleNow) hc rfl trivial (.resume _ _ suspended)
  | escalated a c p hc suspended => exact .by .escalate hc rfl trivial (.escalate _ suspended)
  | timedOut a c p hc suspended =>
    obtain ⟨ho,hl⟩ := @timedOut_life c now p.timeoutBehavior
    refine .by (.finish p.timeoutBehavior.outcome.1) hc rfl trivial ?_
    rw [hl]
    exact .finish _ _ now (may_finish suspended (by decide)) ho
  | signalResumed a c p cond w taken | compositeResumed a c p cond w taken =>
    simp only [plainResume,compositeResume,Store.resumeSuspended]
    split
    · rename_i hp
      refine .by (.resume (c.resumed a.resumeDelayMs).eligibilityState) taken.core rfl trivial ?_
      rw [resumed_life]
      exact .resume _ _ hp
    · exact .same rfl
  | applied a c hc =>
    unfold Store.blockChild
    split
    · rename_i h
      refine .by (.reschedule .blockedByDependencies) hc rfl trivial ?_
      have hl : c.blockedByDependencies.life = c.life.wait .blockedByDependencies := by
        simp [life,blockedByDependencies,Life.wait,derivePublicState,h.1]
      rw [hl]
      exact .reschedule _ _ h.1
    · exact .same rfl
  | resolved a d t settles settled =>
    cases settled with
    | kept => exact .same rfl
    | released c hc hw => exact .by (.reschedule .eligibleNow) hc rfl trivial (dependenciesMet_life hw.1)
    | skipped c hc ho => exact .by (.finish .skipped) hc rfl trivial (.finish _ _ a.nowMs (.inr ho) (by decide))
  | released c hc runnable => exact .by (.reschedule .eligibleNow) hc rfl trivial (dependenciesMet_life runnable)
  | replayedSkipped a c hc finished => exact .by (.replay .blockedByDependencies) hc rfl ⟨a,rfl⟩ (.replay _ _ finished)
  | replayedNormal a c hc finished => exact .by (.replay .eligibleNow) hc rfl ⟨a,rfl⟩ (.replay _ _ finished)
  | _ => exact .same rfl

theorem next_lives (i : Call) (hc : s.core = some c) :
    ∃ ev c', (next i s).core = some c' ∧ i.op.mayCause ev ∧ Life.Step ev c.life c'.life := by
  have he := (next_effect i s).evolves
  rw [hc] at he
  generalize (next i s).core = o at he
  cases he with
  | lived ev _ c' cause h => exact ⟨ev,c',rfl,cause,h⟩

theorem next_born (i : Call) (hc : s.core = none) :
    (next i s).core = none ∨ ∃ c e, (next i s).core = some c ∧ c.life = Life.born e := by
  have he := (next_effect i s).evolves
  rw [hc] at he
  generalize (next i s).core = o at he
  cases he with
  | absent => exact .inl rfl
  | born c e h => exact .inr ⟨c,e,rfl,h⟩

end FlowFabric
