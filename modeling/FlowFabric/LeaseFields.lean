import FlowFabric.Refinement

/-! What a call does to the fields of exec_core that identify the current attempt, the current
lease, the flow and the waitpoint. -/
namespace FlowFabric
open Foundation

def ExecCore.begun (c : ExecCore) : Prop :=
  c.lifecyclePhase = .active ∨ c.lifecyclePhase = .suspended ∨ c.attemptState = .attemptInterrupted

/-- The lease that a script hands out: its id and how long it lasts. -/
def Op.newLease : Op → Option (String × Argument)
  | .claim a => some (a.leaseId,a.leaseTtlMs)
  | .claimResumed a => some (a.leaseId,a.leaseTtlMs)
  | .issueGrantAndClaim a => some (a.leaseId,a.leaseTtlMs)
  | .reclaim a => some (a.leaseId,a.leaseTtlMs)
  | _ => none

def Op.newAttemptId : Op → Option String
  | .claim a => some a.attemptId
  | .issueGrantAndClaim a => some a.attemptId
  | .reclaim a => some a.attemptId
  | _ => none

/-- No lease is handed out. What identifies the attempt and the lease is kept or cleared. -/
structure Retold (i : Call) (c c' : ExecCore) : Prop where
  createdAt : c'.createdAt = c.createdAt := by rfl
  totalAttemptCount : c'.totalAttemptCount = c.totalAttemptCount := by rfl
  currentAttemptIndex : c'.currentAttemptIndex = c.currentAttemptIndex := by rfl
  currentLeaseEpoch : c'.currentLeaseEpoch = c.currentLeaseEpoch := by rfl
  attemptId : c'.currentAttemptId = c.currentAttemptId ∨ c'.currentAttemptId = "" := by exact .inl rfl
  flowId : c'.flowId = c.flowId ∨ ∃ a, i.op = .addToFlow a ∧ c'.flowId = a.flowId := by exact .inl rfl
  waitpointId : c'.currentWaitpointId = c.currentWaitpointId ∨ c'.currentWaitpointId = "" ∨
    ∃ a, i.op = .suspend a ∧ c'.currentWaitpointId = a.waitpointId := by exact .inl rfl
  lease : c'.currentWorkerInstanceId = "" ∨ (c'.currentWorkerInstanceId = c.currentWorkerInstanceId ∧
    c'.currentLeaseId = c.currentLeaseId) := by exact .inr ⟨rfl,rfl⟩
  expires : c'.leaseExpiresAt = none ∨ c'.leaseExpiresAt = c.leaseExpiresAt ∨
    ∃ a ttl, i.op = .renewLease a ∧ a.leaseTtlMs = .number ttl ∧
      c'.leaseExpiresAt = some (i.now + ttl) := by exact .inr (.inl rfl)
  begun : c'.begun → c.begun

/-- A lease is handed out, for a new attempt or for the one that was interrupted. -/
structure Leased (i : Call) (c c' : ExecCore) : Prop where
  createdAt : c'.createdAt = c.createdAt := by rfl
  flowId : c'.flowId = c.flowId := by rfl
  waitpointId : c'.currentWaitpointId = c.currentWaitpointId := by rfl
  currentLeaseEpoch : c'.currentLeaseEpoch = c.currentLeaseEpoch + 1 := by rfl
  lease : ∃ ttl, i.op.newLease = some (c'.currentLeaseId,.number ttl) ∧ c'.leaseExpiresAt = some (i.now + ttl)
  attempt : (c'.currentAttemptIndex = some c.totalAttemptCount ∧
      c'.totalAttemptCount = c.totalAttemptCount + 1 ∧ i.op.newAttemptId = some c'.currentAttemptId) ∨
    (c'.currentAttemptIndex = c.currentAttemptIndex ∧ c'.totalAttemptCount = c.totalAttemptCount ∧
      c'.currentAttemptId = c.currentAttemptId ∧ c.begun)

inductive Tells (i : Call) : Option ExecCore → Option ExecCore → Prop
  | absent : Tells i none none
  | created (a priority caps) (op : i.op = .create a) : Tells i none (some (newCore a priority i.now caps))
  | retold (c c') (h : Retold i c c') : Tells i (some c) (some c')
  | leased (c c') (h : Leased i c c') : Tells i (some c) (some c')

section
variable {i : Call} {s t : Store} {c c' : ExecCore} {now : Int} {reply : Reply}

theorem Retold.refl (i : Call) (c : ExecCore) : Retold i c c :=
  ⟨rfl,rfl,rfl,rfl,.inl rfl,.inl rfl,.inl rfl,.inr ⟨rfl,rfl⟩,.inr (.inl rfl),id⟩

theorem Tells.same (h : t.core = s.core) : Tells i s.core t.core := by
  rw [h]
  cases s.core with
  | none => exact .absent
  | some c => exact .retold c c (.refl i c)

theorem Tells.by_retold (hc : s.core = some c) (ht : t.core = some c') (h : Retold i c c') : Tells i s.core t.core := by
  rw [hc,ht]
  exact .retold c c' h

theorem Tells.by_leased (hc : s.core = some c) (ht : t.core = some c') (h : Leased i c c') : Tells i s.core t.core := by
  rw [hc,ht]
  exact .leased c c' h

private theorem claim_tells {a : ClaimArgs} (h : claimExecution a now s = .ok (reply,t)) :
    Tells ⟨now,.claim a⟩ s.core t.core := by
  simp only [claimExecution,bind_ok,requireNumber_ok,demand_ok,ensure_ok,pure_ok] at h
  obtain ⟨ttl,httl,_,-,c,hc,_,h1,_,h2,_,h3,_,h4,_,h5,_,h6,_,-,_,-,_,-,h⟩ := h
  unfold freshClaim at h
  split at h <;> cases h
  · exact .by_leased hc rfl ⟨rfl,rfl,rfl,rfl,⟨ttl,by rw [← httl]; rfl,rfl⟩,.inl ⟨rfl,rfl,rfl⟩⟩
  · exact .same rfl

private theorem claimResumed_tells {a : ClaimResumedArgs} (h : claimResumedExecution a now s = .ok (reply,t)) :
    Tells ⟨now,.claimResumed a⟩ s.core t.core := by
  simp only [claimResumedExecution,bind_ok,requireNumber_ok,demand_ok,ensure_ok] at h
  obtain ⟨ttl,httl,c,hc,_,-,_,interrupted,_,-,_,-,h⟩ := h
  split at h <;> cases h
  · exact .same rfl
  · exact .by_leased hc rfl ⟨rfl,rfl,rfl,rfl,⟨ttl,by rw [← httl]; rfl,rfl⟩,.inr ⟨rfl,rfl,rfl,.inr (.inr interrupted)⟩⟩

private theorem issueGrantAndClaim_tells {a : ClaimArgs} (h : issueGrantAndClaim a now s = .ok (reply,t)) :
    Tells ⟨now,.issueGrantAndClaim a⟩ s.core t.core := by
  simp only [issueGrantAndClaim,bind_ok,requireNumber_ok,demand_ok,ensure_ok] at h
  obtain ⟨ttl,httl,c,hc,_,-,_,-,_,-,_,-,_,-,h⟩ := h
  split at h
  · rename_i interrupted
    cases h
    exact .by_leased hc rfl ⟨rfl,rfl,rfl,rfl,⟨ttl,by rw [← httl]; rfl,rfl⟩,.inr ⟨rfl,rfl,rfl,.inr (.inr interrupted)⟩⟩
  · split at h
    · cases h
      exact .same rfl
    · split at h
      · cases h
        exact .same rfl
      · unfold freshClaim at h
        split at h <;> cases h
        · exact .by_leased hc rfl ⟨rfl,rfl,rfl,rfl,⟨ttl,by rw [← httl]; rfl,rfl⟩,.inl ⟨rfl,rfl,rfl⟩⟩
        · exact .same rfl

open Retold

private theorem reclaim_tells {a : ReclaimArgs} (h : reclaimExecution a now s = .ok (reply,t)) :
    Tells ⟨now,.reclaim a⟩ s.core t.core := by
  simp only [reclaimExecution,bind_ok,requireNumber_ok,demand_ok,ensure_ok] at h
  obtain ⟨ttl,httl,c,hc,_,active,_,-,default,-,limit,-,h⟩ := h
  split at h
  · cases h
    exact .by_retold hc rfl { refl _ c with lease := .inl rfl, begun := fun _ => .inl active }
  · simp only [bind_ok,demand_ok,ensure_ok] at h
    obtain ⟨_,-,_,-,h⟩ := h
    cases h
    exact .by_leased hc rfl ⟨rfl,rfl,rfl,rfl,⟨ttl,by rw [← httl]; rfl,rfl⟩,.inl ⟨rfl,rfl,rfl⟩⟩

theorem markExpired_tells (hc : s.core = some c) (active : c.lifecyclePhase = .active) :
    Tells i s.core (markExpired c now s).core := by
  unfold markExpired
  split
  · exact .same rfl
  · exact .by_retold hc rfl { refl _ c with begun := fun _ => .inl active }

theorem renew_tells {a : RenewArgs} (h : renewLease a now s = .ok (reply,t)) :
    Tells ⟨now,.renewLease a⟩ s.core t.core := by
  simp only [renewLease,bind_ok,requireNumber_ok,demand_ok,ensure_ok] at h
  obtain ⟨ttl,httl,_,-,c,hc,fence,-,_,active,_,-,old,-,h⟩ := h
  split at h
  · cases h
    exact markExpired_tells hc active
  · simp only [bind_ok,ensure_ok] at h
    obtain ⟨_,-,_,-,h⟩ := h
    cases h
    exact .by_retold hc rfl
      { refl _ c with expires := .inr (.inr ⟨a,ttl,rfl,httl,rfl⟩), begun := id }

theorem begun_of_idle (phase : LifecyclePhase) (hp : c'.lifecyclePhase = phase)
    (idle : phase ≠ .active ∧ phase ≠ .suspended)
    (interrupted : c'.attemptState = .attemptInterrupted → c.attemptState = .attemptInterrupted) :
    c'.begun → c.begun := by
  rintro (h | h | h)
  · exact absurd (hp.symm.trans h) idle.1
  · exact absurd (hp.symm.trans h) idle.2
  · exact .inr (.inr (interrupted h))

theorem dependenciesMet_retold (runnable : c.lifecyclePhase = .runnable) : Retold i c c.dependenciesMet := by
  refine { refl i c with begun := begun_of_idle .runnable runnable (by decide) fun h => ?_ }
  simp only [ExecCore.dependenciesMet] at h
  split at h
  · cases h
  · exact h

theorem skipped_retold (nowMs : Int) : Retold i c (c.skipped nowMs) := by
  refine { refl i c with begun := begun_of_idle .terminal rfl (by decide) fun h => ?_ }
  simp only [ExecCore.skipped] at h
  split at h <;> cases h

theorem Effect.tells {op : Op} (h : Effect s now op t) (hl : op.newLease = none) (hr : ∀ a, op ≠ .renewLease a) :
    Tells ⟨now,op⟩ s.core t.core := by
  cases h with
  | created a priority caps absent =>
    rw [absent]
    exact .created a priority caps rfl
  | claimed _ a c r hop => rcases hop with rfl | rfl <;> cases hl
  | claimResumed | grantClaimResumed | reclaimCapped | reclaimed => cases hl
  | renewed a => exact absurd rfl (hr a)
  | lapsed _ c hc due => exact markExpired_tells hc due.active
  | revoked a c hc active => exact .by_retold hc rfl { refl _ c with begun := fun _ => .inl active }
  | progressed a c _ _ hc | prioritized a c _ _ hc => exact .by_retold hc rfl { refl _ c with begun := id }
  | completed a c f hc held | failedTerminal a c f hc held | delayed a c f hc held | moved a c f hc held =>
    exact .by_retold hc rfl
      { refl _ c with lease := .inl rfl, expires := .inl rfl, begun := fun _ => .inl held.active }
  | failRetried a c f delayUntil hc held =>
    exact .by_retold hc rfl
      { refl _ c with
        attemptId := .inr rfl, lease := .inl rfl, expires := .inl rfl, begun := fun _ => .inl held.active }
  | cancelled a c hc | expired a c hc =>
    refine .by_retold hc rfl
      { refl _ c with waitpointId := .inr (.inl rfl), lease := .inl rfl, expires := .inl rfl, begun := ?_ }
    refine begun_of_idle .terminal rfl (by decide) fun h => ?_
    simp only [ExecCore.cancelled,ExecCore.expired] at h
    split at h
    · cases h
    · exact h
  | promoted a c hc runnable | blocked a c e hc runnable | unblocked a c hc runnable =>
    exact .by_retold hc rfl { refl _ c with begun := begun_of_idle .runnable rfl (by decide) id }
  | suspended a c b w hc held =>
    exact .by_retold hc rfl
      { refl _ c with
        waitpointId := .inr (.inr ⟨a,rfl,rfl⟩), lease := .inl rfl, expires := .inl rfl, begun := fun _ => .inl held.active }
  | resumed a c p hc suspended | autoResumed a c p hc suspended | timedOut a c p hc suspended =>
    exact .by_retold hc rfl
      { refl _ c with waitpointId := .inr (.inl rfl), begun := fun _ => .inr (.inl suspended) }
  | escalated a c p hc suspended => exact .by_retold hc rfl { refl _ c with begun := fun _ => .inr (.inl suspended) }
  | signalResumed a c p cond w taken | compositeResumed a c p cond w taken =>
    simp only [plainResume,compositeResume,Store.resumeSuspended]
    split
    · rename_i suspended
      exact .by_retold taken.core rfl
        { refl _ c with waitpointId := .inr (.inl rfl), begun := fun _ => .inr (.inl suspended) }
    · exact .same rfl
  | joined a c hc => exact .by_retold hc rfl { refl _ c with flowId := .inr ⟨a,rfl,rfl⟩, begun := id }
  | applied a c hc =>
    unfold Store.blockChild
    split
    · exact .by_retold hc rfl { refl _ c with begun := id }
    · exact .same rfl
  | resolved a d t settles settled =>
    cases settled with
    | kept => exact .same rfl
    | released c hc hw => exact .by_retold hc rfl (dependenciesMet_retold hw.1)
    | skipped c hc => exact .by_retold hc rfl (skipped_retold a.nowMs)
  | released c hc runnable => exact .by_retold hc rfl (dependenciesMet_retold runnable)
  | replayedSkipped a c hc | replayedNormal a c hc =>
    exact .by_retold hc rfl
      { refl _ c with begun := begun_of_idle .runnable rfl (by decide) (by simp [ExecCore.replayed]) }
  | _ => exact .same rfl

theorem next_tells (i : Call) (s : Store) : Tells i s.core (next i s).core := by
  obtain ⟨now,op⟩ := i
  refine commit_induction (P := fun t : Store => Tells ⟨now,op⟩ s.core t.core) (.same rfl) fun reply t h => ?_
  cases op with
  | claim => exact claim_tells h
  | claimResumed => exact claimResumed_tells h
  | issueGrantAndClaim => exact issueGrantAndClaim_tells h
  | reclaim => exact reclaim_tells h
  | renewLease => exact renew_tells h
  | _ => exact (outcome_effect h).tells rfl fun a => by simp

/-- Where the core of an execution comes from. -/
theorem next_core {i : Call} {s : Store} {c' : ExecCore} (h : (next i s).core = some c') :
    (s.core = none ∧ ∃ a priority caps, i.op = .create a ∧ c' = newCore a priority i.now caps) ∨
      ∃ c, s.core = some c ∧ (Retold i c c' ∨ Leased i c c') := by
  have tells := next_tells i s
  rw [h] at tells
  generalize s.core = core at tells ⊢
  cases tells with
  | created a priority caps op => exact .inl ⟨rfl,a,priority,caps,op,rfl⟩
  | retold c _ r => exact .inr ⟨c,rfl,.inl r⟩
  | leased c _ r => exact .inr ⟨c,rfl,.inr r⟩

end

/-- Every attempt has had an epoch of its own, and what has begun has a current attempt. -/
def Store.numbered (s : Store) : Prop :=
  ∀ c, s.core = some c → c.totalAttemptCount ≤ c.currentLeaseEpoch ∧
    (∀ k ∈ c.currentAttemptIndex, k < c.totalAttemptCount) ∧ (c.begun → c.currentAttemptIndex.isSome)

theorem next_numbered (s : Store) (i : Call) (h : s.numbered) : (next i s).numbered := by
  intro c' hc'
  obtain ⟨-,a,priority,caps,-,rfl⟩ | ⟨c,hc,told | leased⟩ := next_core hc'
  · simp [newCore,ExecCore.begun]
  · obtain ⟨epochs,counted,has⟩ := h c hc
    rw [told.totalAttemptCount,told.currentAttemptIndex,told.currentLeaseEpoch]
    exact ⟨epochs,counted,fun begun => has (told.begun begun)⟩
  · obtain ⟨epochs,counted,has⟩ := h c hc
    rw [leased.currentLeaseEpoch]
    obtain ⟨index,total,-⟩ | ⟨index,total,-,begun⟩ := leased.attempt
    · simp [index,total,epochs]
    · rw [index,total]
      exact ⟨by omega,counted,fun _ => has begun⟩

theorem attempts_are_numbered (calls : List Call) : (run calls).numbered :=
  runFrom_invariant next_numbered (by simp [Store.numbered]) calls

end FlowFabric
