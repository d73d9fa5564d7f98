import FlowFabric.Foundation.Label
import FlowFabric.Refinement
import FlowFabric.Refusal

/-! Leases fence: the epoch of an execution only grows, every lease opens a new one, and
whoever presents an older lease is turned away. -/
namespace FlowFabric
open Foundation Client

/-- The epoch of the last lease. Before the first one it is zero. -/
def Store.epoch (s : Store) : Nat := (s.core.map (·.currentLeaseEpoch)).getD 0

private theorem epoch_le_next (s : Store) (i : Call) : s.epoch ≤ (next i s).epoch := by
  unfold Store.epoch
  cases hc : s.core with
  | none => simp
  | some =>
    obtain ⟨ev,c',hc',-,h⟩ := next_lives i hc
    simpa [hc'] using h.epoch_le

theorem epoch_le_runFrom (s : Store) (calls : List Call) : s.epoch ≤ (runFrom next s calls).epoch :=
  runFrom_related (R := fun s t => s.epoch ≤ t.epoch) (fun _ => le_rfl) (fun _ _ _ => le_trans)
    epoch_le_next s calls

variable {s : Store}

theorem epoch_of_core {c : ExecCore} (hc : s.core = some c) : s.epoch = c.currentLeaseEpoch := by simp [Store.epoch,hc]

/-- The reply returns the lease that the store now holds, under the next epoch. -/
def OpensEpoch (s t : Store) (reply : Reply) : Prop :=
  t.epoch = s.epoch + 1 ∧ ∃ leaseId rest, reply = .ok (leaseId :: toString t.epoch :: rest)

variable {t : Store}

theorem opensEpoch_activate {c c' : ExecCore} (leaseId : String) (rest : List String)
    (hc : s.core = some c) (ht : t.core = some c') (he : c'.currentLeaseEpoch = c.currentLeaseEpoch + 1) :
    OpensEpoch s t (c.leaseReply leaseId rest) := by
  rw [OpensEpoch,epoch_of_core hc,epoch_of_core ht,he]
  exact ⟨rfl,leaseId,rest,rfl⟩

theorem opensEpoch_freshClaim {a : ClaimArgs} {c : ExecCore} {r : LeaseRequest} {now : Int}
    {reply : Reply} {rest : List String} (hc : s.core = some c) (hr : reply.isError = false)
    (h : (reply,t) = freshClaim a c r now s (c.leaseReply a.leaseId rest)) : OpensEpoch s t reply := by
  rcases freshClaim_eq h with ⟨-,rfl,rfl⟩ | ⟨-,rfl,-⟩
  · exact opensEpoch_activate _ _ hc rfl rfl
  · simp at hr

private theorem claim_opensEpoch {op : Op} {now : Int} {reply : Reply} (hop : op.isClaim)
    (h : op.outcome now s = .ok (reply,t)) (hr : reply.isError = false) : OpensEpoch s t reply := by
  cases op with
  | claim =>
    obtain ⟨c,r,-,-,hc,-,h⟩ := claimExecution_ok h
    exact opensEpoch_freshClaim hc hr h
  | claimResumed =>
    obtain ⟨c,hc,-,-,⟨rfl,-⟩ | ⟨r,-,timeout,-,rfl,rfl⟩⟩ := claimResumedExecution_ok h
    · simp at hr
    · exact opensEpoch_activate _ _ hc rfl rfl
  | issueGrantAndClaim =>
    obtain ⟨c,hc,-,⟨he,-⟩ | ⟨r,-,-,-,rfl,rfl⟩ | ⟨r,-,-,-,h⟩⟩ := issueGrantAndClaim_ok h
    · simp [he] at hr
    · exact opensEpoch_activate _ _ hc rfl rfl
    · exact opensEpoch_freshClaim hc hr h
  | reclaim =>
    obtain ⟨c,hc,-,⟨he,-⟩ | ⟨r,-,-,rfl,rfl⟩⟩ := reclaimExecution_ok h
    · simp [he] at hr
    · exact opensEpoch_activate _ _ hc rfl rfl
  | _ => simp [Op.isClaim] at hop

def Call.leases (i : Call) (s : Store) : Bool := i.op.isClaim && i.succeeds s

theorem step_opensEpoch {i : Call} (h : i.leases s) : OpensEpoch s (next i s) (step i s).1 := by
  simp only [Call.leases,Bool.and_eq_true] at h
  refine claim_opensEpoch h.1 (outcome_of_succeeds h.2) ?_
  simpa [Call.succeeds] using h.2

/-- The lease id and the epoch a lease holder's call presents. A suspension that replays
an earlier outcome presents nothing, and neither does a call without a fence. -/
def Call.presents (i : Call) (s : Store) (leaseId epoch : String) : Prop :=
  match i.op with
  | .complete a => a.fence.leaseId = leaseId ∧ a.fence.leaseEpoch = epoch
  | .fail a => a.fence.leaseId = leaseId ∧ a.fence.leaseEpoch = epoch
  | .delay a => a.fence.leaseId = leaseId ∧ a.fence.leaseEpoch = epoch
  | .moveToWaitingChildren a => a.fence.leaseId = leaseId ∧ a.fence.leaseEpoch = epoch
  | .suspend a => suspendReplay a i.now s.wait = none ∧ a.fence.leaseId = leaseId ∧ a.fence.leaseEpoch = epoch
  | .renewLease a => a.fence.leaseId = leaseId ∧ a.fence.leaseEpoch = epoch
  | .appendFrame a => a.leaseId = leaseId ∧ a.leaseEpoch = epoch
  | .updateProgress a => a.leaseId = leaseId ∧ a.leaseEpoch = epoch
  | _ => False

/-- An error that leaves the store as it is, unless the current lease has run out: that
is then recorded, whoever asked. -/
def Call.turnedAway (i : Call) (s : Store) : Prop :=
  (step i s).1.isError ∧ (next i s = s ∨ ∃ c, s.core = some c ∧ LeaseLapsed c i.now ∧ next i s = markExpired c i.now s)

section stale
variable {c : ExecCore} {f : Fence} {epoch : Nat} {now : Int}

theorem not_holdsLease (hlt : epoch < c.currentLeaseEpoch) (hf : f.leaseEpoch = toString epoch) :
    ¬ HoldsLease c f now := by
  intro h
  have same := toString_injective ((congrArg Fence.leaseEpoch h.fence).trans hf)
  omega

private theorem fence_checked {g : Fence} {source : String} (hf : f.leaseEpoch = toString epoch)
    (h : fenceOrOverride c f source = .ok g) : g = f := by
  rcases fenceOrOverride_ok h with h | ⟨rfl,-,-⟩
  · exact h
  · exact (Nat.repr_ne_empty hf.symm).elim

private theorem stale_turnedAway {i : Call} {s : Store} {leaseId : String} {epoch : Nat} (hlt : epoch < s.epoch)
    (h : i.presents s leaseId (toString epoch)) : i.turnedAway s := by
  rcases step_cases i s with ⟨he,hs⟩ | ho
  · exact ⟨he,.inl hs⟩
  have current {c : ExecCore} (hc : s.core = some c) : epoch < c.currentLeaseEpoch := epoch_of_core hc ▸ hlt
  have lapsed {c : ExecCore} (hc : s.core = some c)
      (hl : LeaseLapsed c i.now ∧ (step i s).1 = .fail .leaseExpired ∧ next i s = markExpired c i.now s) :
      i.turnedAway s := ⟨hl.2.1 ▸ rfl,.inr ⟨c,hc,hl.1,hl.2.2⟩⟩
  have answered {f : Fence} {source : String} {done : ExecCore → Prop} (hf : f.leaseEpoch = toString epoch)
      (ha : HolderAnswer f source i.now s (step i s).1 (next i s) done) : i.turnedAway s := by
    obtain ⟨c,g,hc,hg,hl | ⟨hl,-⟩⟩ := ha
    · exact lapsed hc hl
    · exact (not_holdsLease (current hc) hf (fence_checked hf hg ▸ hl)).elim
  obtain ⟨now,op⟩ := i
  cases op with
  | complete => exact answered h.2 (completeExecution_ok ho)
  | fail => exact answered h.2 (failExecution_ok ho)
  | delay => exact answered h.2 (delayExecution_ok ho)
  | moveToWaitingChildren => exact answered h.2 (moveToWaitingChildren_ok ho)
  | suspend =>
    rcases suspendExecution_ok ho with ⟨hr,-⟩ | ⟨c,hc,-,hl | ⟨hl,-⟩⟩
    · simp [h.1] at hr
    · exact lapsed hc hl
    · exact (not_holdsLease (current hc) h.2.2 hl.held).elim
  | renewLease =>
    obtain ⟨c,hc,hl | ⟨hl,-⟩⟩ := renewLease_ok ho
    · exact lapsed hc hl
    · exact (not_holdsLease (current hc) h.2 hl).elim
  | appendFrame =>
    obtain ⟨c,_,hc,he,-⟩ := appendFrame_ok ho
    have := toString_injective (he.trans h.2)
    have := current hc
    omega
  | updateProgress =>
    obtain ⟨c,_,_,hc,he,-⟩ := updateProgress_ok ho
    have := toString_injective (he.trans h.2)
    have := current hc
    omega
  | _ => exact h.elim

end stale

theorem run_append_cons (calls later : List Call) (i : Call) :
    run (calls ++ i :: later) = runFrom next (next i (run calls)) later :=
  runFrom_append _ _ _

/-- Along every run the epoch never decreases, every lease handed out opens the next one,
and once a lease has been superseded by another, whoever presents its id and epoch is
turned away. -/
theorem superseded_leases_are_fenced (calls : List Call) : (∀ later, (run calls).epoch ≤ (run (calls ++ later)).epoch) ∧
      (∀ i, i.leases (run calls) → (run (calls ++ [i])).epoch = (run calls).epoch + 1) ∧
      ∀ (claim reclaim stale : Call) (between later : List Call) (leaseId epoch : String)
        (rest : List String), claim.leases (run calls) → (step claim (run calls)).1 = .ok (leaseId :: epoch :: rest) →
        reclaim.leases (run (calls ++ claim :: between)) →
        stale.presents (run (calls ++ claim :: between ++ reclaim :: later)) leaseId epoch →
        stale.turnedAway (run (calls ++ claim :: between ++ reclaim :: later)) := by
  refine ⟨fun later => ?_,fun i hi => ?_,?_⟩
  · rw [run,run,runFrom_append]
    exact epoch_le_runFrom _ _
  · rw [run_append_cons]
    exact (step_opensEpoch hi).1
  · intro claim reclaim stale between later leaseId epoch rest hclaim hreply hreclaim hstale
    obtain ⟨-,_,_,he⟩ := step_opensEpoch hclaim
    rw [hreply] at he
    cases he
    refine stale_turnedAway ?_ hstale
    -- the presented epoch is that of the first lease, and the second lease has opened a later one
    have h1 : (next claim (run calls)).epoch ≤ (run (calls ++ claim :: between)).epoch := by
      rw [run_append_cons]
      exact epoch_le_runFrom _ _
    have h2 := (step_opensEpoch hreclaim).1
    have h3 := epoch_le_runFrom (next reclaim (run (calls ++ claim :: between))) later
    rw [run_append_cons]
    omega

/-- A worker whose lease ran out and was taken over cannot complete the execution. -/
theorem late_completion_is_fenced :
    let calls := [create 10,grant 11]
    let between := [⟨2000,.markLeaseExpiredIfDue⟩,reclaimGrant 2001]
    (claim 12 "L1" "a1").leases (run calls) ∧
      (reclaim 2002 "L2" "a2").leases (run (calls ++ claim 12 "L1" "a1" :: between)) ∧
      (complete 2003 ⟨"L1","1","a1"⟩).turnedAway
        (run (calls ++ claim 12 "L1" "a1" :: between ++ [reclaim 2002 "L2" "a2"])) :=
  ⟨by decide +kernel,by decide +kernel,
    (superseded_leases_are_fenced _).2.2 _ _ _ _ [] "L1" "1" ["1012","a1","0","initial"]
      (by decide +kernel) (by decide +kernel) (by decide +kernel) ⟨rfl,rfl⟩⟩

end FlowFabric
