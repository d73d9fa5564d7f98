import FlowFabric.Attempts
import FlowFabric.Fencing

/-! The renewal of a fresh lease. Whoever has just been given a lease can extend it, unless
the execution still carries the mark of an earlier revocation. -/
namespace FlowFabric
open Foundation Store Client

structure HeldLease where
  fence : Fence
  attemptIndex : String
  expiresAt : Int
  deriving DecidableEq

def Store.heldLease (s : Store) : Option HeldLease := do
  let c ← s.core
  let expiresAt ← c.leaseExpiresAt
  return ⟨c.fence,indexText c.currentAttemptIndex,expiresAt⟩

/-- The reply hands out the lease. The script that grants and claims in one step names
neither the expiry nor the attempt id. -/
def Op.returns (op : Op) (reply : Reply) (l : HeldLease) : Prop :=
  match op with
  | .issueGrantAndClaim _ => reply = .ok [l.fence.leaseId,l.fence.leaseEpoch,l.attemptIndex]
  | _ => ∃ attemptType, reply = .ok [l.fence.leaseId,l.fence.leaseEpoch,toString l.expiresAt,
      l.fence.attemptId,l.attemptIndex,attemptType]

/-- The lease and attempt ids a claim comes with are not empty. -/
def Op.named : Op → Bool
  | .claim { leaseId, attemptId, .. } | .issueGrantAndClaim { leaseId, attemptId, .. }
  | .reclaim { leaseId, attemptId, .. } => decide (leaseId ≠ "" ∧ attemptId ≠ "")
  | .claimResumed { leaseId, .. } => decide (leaseId ≠ "")
  | _ => true

/-- The claim leaves no mark of a revocation: there was none, or the script removes it. A
claim that starts a new attempt of a waiting execution does not. -/
def Op.unmarks (op : Op) (s : Store) : Bool :=
  s.core.all fun c =>
    match op with
    | .claimResumed _ | .reclaim _ => true
    | .issueGrantAndClaim _ => decide (c.attemptState = .attemptInterrupted ∨ c.leaseRevokedAt = none)
    | _ => decide (c.leaseRevokedAt = none)

structure RenewArgs.Renews (a : RenewArgs) (l : HeldLease) (leaseTtlMs : Int) : Prop where
  fence : a.fence = l.fence
  attemptIndex : a.attemptIndex = l.attemptIndex
  leaseTtlMs : a.leaseTtlMs = .number leaseTtlMs
  graceMs : ∃ graceMs, a.leaseHistoryGraceMs = .number graceMs

variable {op : Op} {s t : Store} {c c' : ExecCore} {now : Int}

/-- An execution that goes on with its attempt has the id of it. -/
def Store.attemptNamed (s : Store) : Prop := ∀ c, s.core = some c → c.engaged → c.currentAttemptId ≠ ""

theorem attemptNamed_of (ht : t.core = some c') (h : c'.engaged → c'.currentAttemptId ≠ "") : t.attemptNamed := by
  intro c hc
  rw [ht] at hc
  cases hc
  exact h

theorem attemptNamed_keep (ht : t.core = some c') (hs : s.attemptNamed) (hc : s.core = some c)
    (hid : c'.currentAttemptId = c.currentAttemptId) (h : c'.engaged → c.engaged) : t.attemptNamed :=
  attemptNamed_of ht fun he => hid ▸ hs c hc (h he)

theorem dependenciesMet_engaged (h : c.dependenciesMet.engaged) : c.engaged := by
  unfold ExecCore.engaged ExecCore.dependenciesMet at h
  unfold ExecCore.engaged
  by_cases ha : c.attemptState = .none <;> simp_all

theorem Effect.attemptNamed (h : Effect s now op t) (hn : op.named) (hs : s.attemptNamed) : t.attemptNamed := by
  have finished {c' : ExecCore} (ht : t.core = some c') (hp : c'.lifecyclePhase = .terminal) :
      t.attemptNamed := attemptNamed_of ht fun he => by simp [ExecCore.engaged,hp] at he
  have held {c c' : ExecCore} {f : Fence} (ht : t.core = some c') (hc : s.core = some c)
      (hl : HoldsLease c f now) (hid : c'.currentAttemptId = c.currentAttemptId) : t.attemptNamed :=
    attemptNamed_keep ht hs hc hid fun _ => .inl hl.active
  cases h with
  | created => exact attemptNamed_of rfl fun he => by simp [ExecCore.engaged,newCore] at he
  | claimed _ a c r hop =>
    refine attemptNamed_of rfl fun _ => ?_
    rcases hop with rfl | rfl <;> exact (of_decide_eq_true hn).2
  | claimResumed a c r timeout hr hc runnable interrupted | grantClaimResumed a c r hr hc runnable interrupted =>
    exact attemptNamed_keep rfl hs hc rfl fun _ => .inr (.inr ⟨runnable,interrupted⟩)
  | reclaimCapped | completed | failedTerminal | cancelled | expired | timedOut => exact finished rfl rfl
  | reclaimed => exact attemptNamed_of rfl fun _ => (of_decide_eq_true hn).2
  | lapsed _ c hc due =>
    unfold markExpired
    split
    · exact hs
    · exact attemptNamed_keep rfl hs hc rfl fun _ => .inl due.active
  | renewed a c _ _ _ hc hl | delayed a c f hc hl | moved a c f hc hl
  | suspended a c b w hc hl => exact held rfl hc hl rfl
  | revoked a c hc active => exact attemptNamed_keep rfl hs hc rfl fun _ => .inl active
  | progressed a c _ _ hc | prioritized a c _ _ hc | joined a c hc => exact attemptNamed_keep rfl hs hc rfl id
  | failRetried => exact attemptNamed_of rfl fun he => by simp [ExecCore.engaged,ExecCore.retryScheduled] at he
  | promoted a c hc runnable | unblocked a c hc runnable =>
    exact attemptNamed_keep rfl hs hc rfl (by simp [ExecCore.engaged,ExecCore.eligible,runnable])
  | blocked a c e hc runnable =>
    exact attemptNamed_keep rfl hs hc rfl (by simp [ExecCore.engaged,ExecCore.blocked,runnable])
  | resumed a c p hc suspended | escalated a c p hc suspended =>
    exact attemptNamed_keep rfl hs hc rfl fun _ => .inr (.inl suspended)
  | autoResumed a c p hc suspended => exact attemptNamed_keep rfl hs hc rfl fun _ => .inr (.inl suspended)
  | signalResumed a c p cond w taken | compositeResumed a c p cond w taken =>
    simp only [plainResume,compositeResume,resumeSuspended]
    split
    · rename_i hp
      exact attemptNamed_keep rfl hs taken.core rfl fun _ => .inr (.inl hp)
    · exact hs
  | applied a c hc =>
    unfold blockChild
    split
    · exact attemptNamed_keep rfl hs hc rfl id
    · exact hs
  | resolved a d t settles settled =>
    cases settled with
    | kept => exact hs
    | released c hc => exact attemptNamed_keep rfl hs hc rfl dependenciesMet_engaged
    | skipped => exact finished rfl rfl
  | released c hc => exact attemptNamed_keep rfl hs hc rfl dependenciesMet_engaged
  | replayedSkipped | replayedNormal =>
    exact attemptNamed_of rfl fun he => by simp [ExecCore.engaged,ExecCore.replayed] at he
  | _ => exact hs

private theorem run_attemptNamed {calls : List Call} (h : ∀ i ∈ calls, i.op.named) : (run calls).attemptNamed :=
  (Along.of_forall h _).invariant (I := attemptNamed)
    (fun s i hs hi => (next_effect i s).attemptNamed hi hs) (by simp [attemptNamed])

structure ExecCore.HeldAs (c : ExecCore) (l : HeldLease) : Prop where
  active : c.lifecyclePhase = .active
  leased : c.ownershipState = .leased
  fence : c.fence = l.fence
  attemptIndex : indexText c.currentAttemptIndex = l.attemptIndex
  expiresAt : c.leaseExpiresAt = some l.expiresAt
  leaseId : c.currentLeaseId ≠ ""
  attemptId : c.currentAttemptId ≠ ""

open ExecCore

/-- The script has handed out a lease that the execution is now held under, and has
kept or removed the mark of a revocation. -/
structure HandsOut (op : Op) (s : Store) (reply : Reply) (t : Store) (c : ExecCore) (l : HeldLease) : Prop where
  core : t.core = some c
  heldAs : c.HeldAs l
  returns : op.returns reply l
  unmarks : c.leaseRevokedAt = none ↔ op.unmarks s

variable {l : HeldLease} {reply : Reply}

theorem HandsOut.heldLease (h : HandsOut op s reply t c l) : t.heldLease = some l := by
  obtain ⟨fence,attemptIndex,expiresAt⟩ := l
  simp [Store.heldLease,h.core,h.heldAs.expiresAt,h.heldAs.fence,h.heldAs.attemptIndex]

theorem claimed_handsOut {a : ClaimArgs} {r : LeaseRequest} {reply' : Reply}
    (hop : op = .claim a ∨ op = .issueGrantAndClaim a) (hc : s.core = some c) (ready : Leaseable c)
    (hl : r.leaseId = a.leaseId) (hn : op.named) (he : reply'.isError = false)
    (hr : op.returns reply ⟨⟨a.leaseId,toString (c.currentLeaseEpoch + 1),a.attemptId⟩,
      toString c.totalAttemptCount,r.expiresAt⟩) (h : (reply',t) = freshClaim a c r now s reply) :
    ∃ c' l, HandsOut op s reply' t c' l := by
  have hn : a.leaseId ≠ "" ∧ a.attemptId ≠ "" := by
    rcases hop with rfl | rfl <;> exact of_decide_eq_true hn
  have hlease : r.leaseId ≠ "" := hl ▸ hn.1
  rcases freshClaim_eq h with ⟨-,rfl,rfl⟩ | ⟨-,rfl,-⟩
  · refine ⟨c.claimed r a.attemptId now,_,rfl,⟨rfl,rfl,?_,rfl,rfl,hlease,hn.2⟩,hr,?_⟩
    · simp [fence,ExecCore.claimed,activate,hl]
    · have hi := ready.notInterrupted
      rcases hop with rfl | rfl <;> simp [Op.unmarks,hc,hi,ExecCore.claimed,activate]
  · simp at he

theorem claim_handsOut (hop : op.isClaim) (hn : op.named) (hs : s.attemptNamed)
    (h : op.outcome now s = .ok (reply,t)) (he : reply.isError = false) : ∃ c l, HandsOut op s reply t c l := by
  cases op with
  | claim =>
    obtain ⟨c,r,hl,-,hc,ready,h⟩ := claimExecution_ok h
    exact claimed_handsOut (.inl rfl) hc ready hl hn he ⟨_,rfl⟩ h
  | claimResumed =>
    obtain ⟨c,hc,runnable,interrupted,⟨rfl,-⟩ | ⟨r,hl,timeout,-,rfl,rfl⟩⟩ := claimResumedExecution_ok h
    · simp at he
    · have hid := hs c hc (.inr (.inr ⟨runnable,interrupted⟩))
      have hlease : r.leaseId ≠ "" := hl ▸ of_decide_eq_true hn
      refine ⟨c.resumedClaim r,⟨_,_,_⟩,rfl,⟨rfl,rfl,rfl,rfl,rfl,hlease,hid⟩,
        ⟨"resumed",?_⟩,by simp [Op.unmarks,hc,ExecCore.resumedClaim]⟩
      simp only [← hl]; rfl
  | issueGrantAndClaim =>
    obtain ⟨c,hc,runnable,⟨her,-⟩ | ⟨r,hl,-,interrupted,rfl,rfl⟩ | ⟨r,hl,-,ready,h⟩⟩ := issueGrantAndClaim_ok h
    · simp [her] at he
    · have hid := hs c hc (.inr (.inr ⟨runnable,interrupted⟩))
      have hlease : r.leaseId ≠ "" := hl ▸ (of_decide_eq_true hn).1
      refine ⟨c.resumedClaim r,⟨_,_,_⟩,rfl,⟨rfl,rfl,rfl,rfl,rfl,hlease,hid⟩,
        ?_,by simp [Op.unmarks,hc,interrupted,ExecCore.resumedClaim]⟩
      simp only [← hl]; rfl
    · exact claimed_handsOut (.inr rfl) hc ready hl hn he rfl h
  | reclaim a =>
    obtain ⟨c,hc,-,⟨her,-⟩ | ⟨r,hl,-,rfl,rfl⟩⟩ := reclaimExecution_ok h
    · simp [her] at he
    · have hn := of_decide_eq_true hn
      have hlease : r.leaseId ≠ "" := hl ▸ hn.1
      refine ⟨c.reclaimed r a.attemptId,⟨_,_,_⟩,rfl,⟨rfl,rfl,rfl,rfl,rfl,hlease,hn.2⟩,
        ⟨"reclaim",?_⟩,by simp [Op.unmarks,hc,reclaimed]⟩
      simp only [← hl]; rfl
  | _ => simp [Op.isClaim] at hop

/-- The lease is extended: the reply says until when, and so does the execution. -/
def Call.prolongs (i : Call) (s : Store) (l : HeldLease) (expiresAt : Int) : Prop :=
  (step i s).1 = .ok [toString expiresAt] ∧ (next i s).heldLease = some { l with expiresAt }

private theorem renewLease_held {a : RenewArgs} {leaseTtlMs : Int} (hc : s.core = some c)
    (h : c.HeldAs l) (ha : a.Renews l leaseTtlMs) (hnow : now < l.expiresAt) :
    Call.prolongs ⟨now,.renewLease a⟩ s l (now + leaseTtlMs) ↔ c.leaseRevokedAt = none := by
  obtain ⟨graceMs,hgrace⟩ := ha.graceMs
  have hexp : ¬ l.expiresAt ≤ now := not_le.mpr hnow
  have hfence : fencePresented c l.fence = .ok l.fence := by
    have hid := h.leaseId
    have hattempt := h.attemptId
    simp [fencePresented,resolveLeaseFence,← h.fence,fence,hid,hattempt,ensure,bind,Except.bind,pure,Except.pure]
  by_cases hmark : c.leaseRevokedAt = none
  · refine iff_of_true ?_ hmark
    have hstep : step ⟨now,.renewLease a⟩ s = (.ok [toString (now + leaseTtlMs)],
        ((s.setCore (c.renewed (now + leaseTtlMs) (now + renewalSlack leaseTtlMs))).renewLeaseRecord now
          (now + leaseTtlMs) (now + leaseTtlMs + graceMs)).zadd .leaseExpiry (now + leaseTtlMs)) := by
      simp [step,Op.outcome,renewLease,requireNumber,ha.leaseTtlMs,hgrace,hc,demand,ha.fence,hfence,ensure,
        h.active,h.leased,hmark,h.expiresAt,hexp,h.attemptIndex,ha.attemptIndex,h.fence,bind,Except.bind,
        pure,Except.pure]
    refine ⟨by rw [hstep],?_⟩
    rw [next,hstep]
    change some (HeldLease.mk c.fence (indexText c.currentAttemptIndex) _) = _
    rw [h.fence,h.attemptIndex]
  · refine iff_of_false ?_ hmark
    rintro ⟨hr,-⟩
    simp [step,Op.outcome,renewLease,requireNumber,ha.leaseTtlMs,hgrace,hc,demand,ha.fence,hfence,ensure,
      h.active,h.leased,hmark,bind,Except.bind] at hr

/-- In every state that a run of claims with proper ids has led to, a claim that succeeds
hands out a lease. As long as its times are printed with all their digits, the reply names it,
and before it runs out a renewal in its name extends it if and only if the claim has left no
mark of a revocation. -/
theorem fresh_lease_renews_iff (calls : List Call) (i : Call) (named : ∀ j ∈ calls ++ [i], j.op.named)
    (h : i.leases (run calls)) :
    ∃ l, (run (calls ++ [i])).heldLease = some l ∧ (l.expiresAt < clockEnd → i.op.returns (step i (run calls)).1 l ∧
      ∀ (a : RenewArgs) (leaseTtlMs now : Int), a.Renews l leaseTtlMs → now < l.expiresAt →
        now + leaseTtlMs < clockEnd → (Call.prolongs ⟨now,.renewLease a⟩ (run (calls ++ [i])) l (now + leaseTtlMs) ↔
          i.op.unmarks (run calls))) := by
  have hs : (run calls).attemptNamed := run_attemptNamed fun j hj => named j (by simp [hj])
  have hi := named i (by simp)
  simp only [Call.leases,Bool.and_eq_true] at h
  obtain ⟨c,l,hl⟩ := claim_handsOut h.1 hi hs (outcome_of_succeeds h.2) (by simpa [Call.succeeds] using h.2)
  have ht : run (calls ++ [i]) = next i (run calls) := run_append_cons calls [] i
  refine ⟨l,ht ▸ hl.heldLease,fun _ => ⟨hl.returns,fun a leaseTtlMs now ha hnow _ => ?_⟩⟩
  rw [ht,renewLease_held hl.core hl.heldAs ha hnow]
  exact hl.unmarks

namespace Client

def renew (now : Int) (fence : Fence) (attemptIndex : String) : Call :=
  ⟨now,.renewLease
    { executionId := "e", attemptIndex, fence, leaseTtlMs := .number 1000
      leaseHistoryGraceMs := .number 60000 }⟩

end Client

/-- The first lease of an execution is renewed before it runs out. -/
theorem first_lease_is_renewed :
    let calls := [create 10,grant 11]
    let claim := claim 12 "L1" "a1"
    let l : HeldLease := ⟨⟨"L1","1","a1"⟩,"0",1012⟩
    claim.leases (run calls) ∧ (run (calls ++ [claim])).heldLease = some l ∧
      (renew 700 l.fence "0").prolongs (run (calls ++ [claim])) l 1700 := by
  intro calls claim l
  have leased : claim.leases (run calls) := by decide +kernel
  have held : (run (calls ++ [claim])).heldLease = some l := by decide +kernel
  refine ⟨leased,held,?_⟩
  obtain ⟨l',hl,h⟩ := fresh_lease_renews_iff calls claim (by decide +kernel) leased
  cases held.symm.trans hl
  exact ((h (by decide)).2 _ 1000 700 ⟨rfl,rfl,rfl,⟨_,rfl⟩⟩ (by decide) (by decide)).mpr (by decide +kernel)

/-- An execution whose lease was revoked is cancelled and replayed. The worker that claims
it then cannot renew its lease. -/
theorem replayed_after_revocation_is_not_renewed :
    let calls : List Call := [create 10,grant 11,claim 12 "L1" "a1",
      ⟨13,.revokeLease { executionId := "e", keys := { workerInstanceId := "wi" } }⟩,
      ⟨14,.cancel { executionId := "e", source := "operator_override" }⟩,⟨15,.replay { executionId := "e" }⟩,grant 16]
    let claim := claim 17 "L2" "a2"
    claim.leases (run calls) ∧ (run (calls ++ [claim])).heldLease = some ⟨⟨"L2","2","a2"⟩,"1",1017⟩ ∧
      (step (renew 18 ⟨"L2","2","a2"⟩ "1") (run (calls ++ [claim]))).1 = .fail .leaseRevoked := by
  decide +kernel

end FlowFabric
