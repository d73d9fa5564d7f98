import FlowFabric.Reply

/-! The lease check shared by the scripts that a lease holder calls. -/
namespace FlowFabric
open Foundation

structure Fence where
  (leaseId leaseEpoch attemptId : String := "")
  deriving DecidableEq

def ExecCore.fence (c : ExecCore) : Fence := ⟨c.currentLeaseId,toString c.currentLeaseEpoch,c.currentAttemptId⟩

/-- The details tell a caller who replays a finished request what became of it. -/
def ExecCore.notActive (c : ExecCore) : Reply :=
  .err .executionNotActive
    [c.terminalOutcome.text,toString c.currentLeaseEpoch,c.lifecyclePhase.text,c.currentAttemptId]

/-- The fence to check, and whether the caller presented it. Without one the stored
triple stands in. -/
def resolveLeaseFence (c : ExecCore) (f : Fence) : Except Reply (Fence × Bool) :=
  let hasId := f.leaseId ≠ ""
  let hasEpoch := f.leaseEpoch ≠ ""
  let hasAttempt := f.attemptId ≠ ""
  if hasId ∨ hasEpoch ∨ hasAttempt then
    if hasId ∧ hasEpoch ∧ hasAttempt then .ok (f,true) else .error (.fail .partialFenceTriple)
  else .ok (c.fence,false)

/-- Without a fence only an operator override goes on. -/
def fenceOrOverride (c : ExecCore) (f : Fence) (source : String) : Except Reply Fence := do
  let (fence,presented) ← resolveLeaseFence c f
  ensure (presented = true ∨ source = "operator_override") (.fail .fenceRequired)
  return fence

def fencePresented (c : ExecCore) (f : Fence) : Except Reply Fence := do
  let (fence,presented) ← resolveLeaseFence c f
  ensure (presented = true) (.fail .fenceRequired)
  return fence

@[simps] def Store.expireStream (s : Store) (attemptIndex : Option Nat) (now : Int) : Store :=
  { s with stream := fun j =>
      if attemptIndex = some j then
        (s.stream j).map fun m =>
          if m.closedAt = none then { m with closedAt := some now, closedReason := "lease_expired" } else m
      else s.stream j }

/-- Record that the lease has lapsed. The phase, the eligibility and the outcome stay. -/
def markExpired (c : ExecCore) (now : Int) (s : Store) : Store :=
  if c.ownershipState = .leaseExpiredReclaimable then s
  else
    (s.setCore { c with
      ownershipState := .leaseExpiredReclaimable, blockingReason := .waitingForWorker
      attemptState := .attemptInterrupted, publicState := .active }).expireStream c.currentAttemptIndex now

inductive LeaseCheck where
  | valid
  | lapsed
  | rejected (reply : Reply)

/-- The checks in their order. Reading an expiry that is not there raises. -/
def checkLease (c : ExecCore) (f : Fence) (now : Int) : LeaseCheck :=
  if c.lifecyclePhase ≠ .active then .rejected c.notActive
  else if c.ownershipState = .leaseRevoked then .rejected (.fail .leaseRevoked)
  else
    match c.leaseExpiresAt with
    | none => .rejected .raised
    | some expiresAt =>
      if expiresAt ≤ now then .lapsed
      else if c.fence = f then .valid
      else .rejected (.fail .staleLease)

/-- Run the rest of the script under a valid lease; mark a lapsed one expired. -/
def validateLeaseAndMarkExpired (c : ExecCore) (f : Fence) (now : Int) (s : Store) (rest : Outcome) : Outcome :=
  match checkLease c f now with
  | .rejected reply => .error reply
  | .lapsed => .ok (.fail .leaseExpired,markExpired c now s)
  | .valid => rest

/-- The lease is the presented one and has neither lapsed nor been revoked. -/
structure HoldsLease (c : ExecCore) (f : Fence) (now : Int) : Prop where
  active : c.lifecyclePhase = .active
  notRevoked : c.ownershipState ≠ .leaseRevoked
  unexpired : ∃ expiresAt, c.leaseExpiresAt = some expiresAt ∧ now < expiresAt
  fence : c.fence = f

structure LeaseLapsed (c : ExecCore) (now : Int) : Prop where
  active : c.lifecyclePhase = .active
  notRevoked : c.ownershipState ≠ .leaseRevoked
  expired : ∃ expiresAt, c.leaseExpiresAt = some expiresAt ∧ expiresAt ≤ now

variable {now : Int} {f : Fence} {c : ExecCore}

theorem checkLease_valid (h : checkLease c f now = .valid) : HoldsLease c f now := by
  unfold checkLease at h
  split at h
  · cases h
  · split at h
    · cases h
    · split at h
      · cases h
      · split at h
        · cases h
        · split at h
          · refine ⟨by simp_all,by assumption,⟨_,by assumption,by omega⟩,by assumption⟩
          · cases h

theorem HoldsLease.checkLease (h : HoldsLease c f now) : checkLease c f now = .valid := by
  obtain ⟨expiresAt,he,live⟩ := h.unexpired
  simp [FlowFabric.checkLease,h.active,h.notRevoked,h.fence,he,live]

theorem checkLease_lapsed (h : checkLease c f now = .lapsed) : LeaseLapsed c now := by
  unfold checkLease at h
  split at h
  · cases h
  · split at h
    · cases h
    · split at h
      · cases h
      · split at h
        · exact ⟨by simp_all,by assumption,_,by assumption,by assumption⟩
        · split at h <;> cases h

theorem validateLease_ok {s t : Store} {rest : Outcome}
    {reply : Reply} (h : validateLeaseAndMarkExpired c f now s rest = .ok (reply,t)) :
    (LeaseLapsed c now ∧ reply = .fail .leaseExpired ∧ t = markExpired c now s) ∨
      (HoldsLease c f now ∧ rest = .ok (reply,t)) := by
  unfold validateLeaseAndMarkExpired at h
  split at h
  · cases h
  · injection h with h
    injection h with hr ht
    exact .inl ⟨checkLease_lapsed ‹_›,hr.symm,ht.symm⟩
  · exact .inr ⟨checkLease_valid ‹_›,h⟩

variable {g : Fence}

theorem fencePresented_ok (h : fencePresented c f = .ok g) : g = f := by
  simp only [fencePresented,resolveLeaseFence,bind_ok,ensure_ok,pure_ok] at h
  obtain ⟨⟨fence,presented⟩,h,_,hp,rfl⟩ := h
  split at h
  · split at h <;> simp_all
  · simp_all

theorem fenceOrOverride_ok {source : String} (h : fenceOrOverride c f source = .ok g) :
    g = f ∨ (f = {} ∧ g = c.fence ∧ source = "operator_override") := by
  simp only [fenceOrOverride,resolveLeaseFence,bind_ok,ensure_ok,pure_ok] at h
  obtain ⟨⟨fence,presented⟩,h,_,hp,rfl⟩ := h
  split at h
  · split at h <;> simp_all
  · right
    rename_i hf
    cases f
    simp_all

end FlowFabric
