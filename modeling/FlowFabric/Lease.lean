import FlowFabric.Claim
import FlowFabric.Fence

/-! The scripts around a running lease: ff_renew_lease, ff_mark_lease_expired_if_due,
ff_revoke_lease, ff_update_progress and ff_append_frame. -/
namespace FlowFabric
open Foundation

structure RenewArgs where
  (executionId attemptIndex : String)
  fence : Fence
  (leaseTtlMs leaseHistoryGraceMs : Argument)

/-- Extend the lease record and the expiry of its key. The other fields of a record
that is gone stay empty. -/
@[simps] def Store.renewLeaseRecord (s : Store) (now expiresAt keyExpiresAt : Int) : Store :=
  let visible := s.lease.filter fun l => l.keyExpiresAt.all fun t => decide (now ≤ t)
  { s with
    lease := if now < keyExpiresAt then
        some { visible.getD { expiresAt } with expiresAt, keyExpiresAt := some keyExpiresAt }
      else none }

def ExecCore.renewed (c : ExecCore) (expiresAt renewalDeadline : Int) : ExecCore :=
  { c with leaseExpiresAt := some expiresAt, leaseRenewalDeadline := some renewalDeadline }

/-- The times are the numbers that are printed, which are the ones meant below `clockEnd`. -/
def renewLease (a : RenewArgs) (now : Int) (s : Store) : Outcome := do
  let leaseTtlMs ← requireNumber "lease_ttl_ms" a.leaseTtlMs
  let graceMs ← requireNumber "lease_history_grace_ms" a.leaseHistoryGraceMs
  let c ← demand s.core (.fail .executionNotFound)
  let fence ← fencePresented c a.fence
  ensure (c.lifecyclePhase = .active) c.notActive
  ensure (c.ownershipState ≠ .leaseRevoked ∧ c.leaseRevokedAt = none) (.fail .leaseRevoked)
  let oldExpiresAt ← demand c.leaseExpiresAt .raised
  if oldExpiresAt ≤ now then return (.fail .leaseExpired,markExpired c now s)
  else
    ensure (indexText c.currentAttemptIndex = a.attemptIndex) (.fail .staleLease)
    ensure (c.fence = fence) (.fail .staleLease)
    let expiresAt := now + leaseTtlMs
    let s := s.setCore (c.renewed expiresAt (now + renewalSlack leaseTtlMs))
    return (.ok [toString expiresAt],
      (s.renewLeaseRecord now expiresAt (expiresAt + graceMs)).zadd .leaseExpiry expiresAt)

/-- The scanner's call. Every way out that is not the last one reports that there was
nothing to do. -/
def markLeaseExpiredIfDue (now : Int) (s : Store) : Outcome :=
  match s.core with
  | none => .ok (.alreadySatisfied ["execution_not_found"],s.zrem .leaseExpiry)
  | some c =>
    if c.lifecyclePhase ≠ .active then .ok (.alreadySatisfied ["not_active"],s.zrem .leaseExpiry)
    else
      match c.ownershipState with
      | .leaseExpiredReclaimable => .ok (.alreadySatisfied ["already_expired"],s)
      | .leaseRevoked => .ok (.alreadySatisfied ["already_revoked"],s)
      | .unowned => .ok (.alreadySatisfied ["unowned"],s.zrem .leaseExpiry)
      | .leased =>
        match c.leaseExpiresAt with
        | none => .error .raised
        | some expiresAt =>
          if now < expiresAt then .ok (.alreadySatisfied ["not_yet_expired"],s)
          else .ok (.ok ["marked_expired"],markExpired c now s)

structure RevokeArgs where
  executionId : String
  expectedLeaseId : String := ""
  keys : Keys := {}

def ExecCore.revoked (c : ExecCore) (now : Int) : ExecCore :=
  { c with
    lifecyclePhase := .active, ownershipState := .leaseRevoked, blockingReason := .waitingForWorker
    terminalOutcome := .none, attemptState := .attemptInterrupted, publicState := .active, leaseRevokedAt := some now }

def revokeLease (a : RevokeArgs) (now : Int) (s : Store) : Outcome := do
  let c ← demand s.core (.fail .executionNotFound)
  ensure (c.lifecyclePhase = .active) c.notActive
  match c.ownershipState with
  | .leaseRevoked => return (.alreadySatisfied ["already_revoked"],s)
  | .leaseExpiredReclaimable => return (.alreadySatisfied ["already_expired"],s)
  | .unowned => .error (.fail .noActiveLease)
  | .leased =>
    ensure (a.expectedLeaseId = "" ∨ c.currentLeaseId = a.expectedLeaseId)
      (.err .staleLease ["expected " ++ a.expectedLeaseId ++ " but current is " ++ c.currentLeaseId])
    return (.ok ["revoked",c.currentLeaseId,toString c.currentLeaseEpoch],
      (((s.setCore (c.revoked now)).delLease).zrem .leaseExpiry).sremWorker a.keys.workerInstanceId)

structure ProgressArgs where
  (executionId leaseId leaseEpoch : String)
  (progressPct progressMessage : String := "")

/-- Progress needs the lease and the epoch; the attempt is not asked for. -/
def updateProgress (a : ProgressArgs) (now : Int) (s : Store) : Outcome := do
  let c ← demand s.core (.fail .executionNotFound)
  ensure (c.lifecyclePhase = .active) c.notActive
  ensure (c.ownershipState ≠ .leaseRevoked) (.fail .leaseRevoked)
  let expiresAt ← demand c.leaseExpiresAt .raised
  ensure (now < expiresAt) (.fail .leaseExpired)
  ensure (c.currentLeaseId = a.leaseId) (.fail .staleLease)
  ensure (toString c.currentLeaseEpoch = a.leaseEpoch) (.fail .staleLease)
  return (.ok [],s.setCore { c with
    progressPct := if a.progressPct ≠ "" then a.progressPct else c.progressPct
    progressMessage := if a.progressMessage ≠ "" then a.progressMessage else c.progressMessage })

structure AppendArgs where
  (executionId attemptIndex leaseId leaseEpoch payload : String)
  maxPayloadBytes : Int := 65536
  entryId : String
  keys : Keys := {}

/-- Frames are taken from the current lease holder until the stream is closed. The
metadata of the stream are created by the first frame. -/
def appendFrame (a : AppendArgs) (now : Int) (s : Store) : Outcome := do
  ensure (a.payload.utf8ByteSize ≤ a.maxPayloadBytes) (.fail .retentionLimitExceeded)
  let c ← demand s.core (.fail .streamClosed)
  ensure (c.lifecyclePhase = .active) (.fail .streamClosed)
  ensure (c.ownershipState ≠ .leaseExpiredReclaimable ∧ c.ownershipState ≠ .leaseRevoked)
    (.fail .staleOwnerCannotAppend)
  let expiresAt ← demand c.leaseExpiresAt .raised
  ensure (now < expiresAt) (.fail .staleOwnerCannotAppend)
  ensure (indexText c.currentAttemptIndex = a.attemptIndex) (.fail .staleOwnerCannotAppend)
  ensure (c.currentLeaseId = a.leaseId ∧ toString c.currentLeaseEpoch = a.leaseEpoch) (.fail .staleOwnerCannotAppend)
  let stream := (s.stream a.keys.attemptIndex).getD {}
  ensure (stream.closedAt = none) (.fail .streamClosed)
  return (.ok [a.entryId,toString (stream.frameCount + 1),""],
    s.setStream a.keys.attemptIndex { stream with frameCount := stream.frameCount + 1 })

variable {reply : Reply} {s t : Store} {now : Int}

theorem renewLease_ok {a : RenewArgs} (h : renewLease a now s = .ok (reply,t)) : ∃ c, s.core = some c ∧
      ((LeaseLapsed c now ∧ reply = .fail .leaseExpired ∧ t = markExpired c now s) ∨
        (HoldsLease c a.fence now ∧ ∃ expiresAt deadline keyExpiresAt,
          t = ((s.setCore (c.renewed expiresAt deadline)).renewLeaseRecord now expiresAt
            keyExpiresAt).zadd .leaseExpiry expiresAt)) := by
  simp only [renewLease,bind_ok,requireNumber_ok,demand_ok,ensure_ok] at h
  obtain ⟨_,-,_,-,c,hc,fence,hf,_,hp,_,hr,old,ho,h⟩ := h
  cases fencePresented_ok hf
  refine ⟨c,hc,?_⟩
  split at h
  · rename_i hx
    cases h; exact .inl ⟨⟨hp,hr.1,old,ho,hx⟩,rfl,rfl⟩
  · rename_i hx
    simp only [bind_ok,ensure_ok] at h
    obtain ⟨_,-,_,he,h⟩ := h
    cases h; exact .inr ⟨⟨hp,hr.1,⟨old,ho,by omega⟩,he⟩,_,_,_,rfl⟩

theorem markLeaseExpiredIfDue_ok (h : markLeaseExpiredIfDue now s = .ok (reply,t)) : t = s ∨ (t = s.zrem .leaseExpiry ∧
        ∀ c, s.core = some c → c.lifecyclePhase = .active → c.ownershipState = .unowned) ∨
      ∃ c, s.core = some c ∧ LeaseLapsed c now ∧ t = markExpired c now s := by
  unfold markLeaseExpiredIfDue at h
  split at h
  · rename_i hc
    cases h; exact .inr (.inl ⟨rfl,by simp [hc]⟩)
  · rename_i c hc
    split at h
    · rename_i hp
      cases h; exact .inr (.inl ⟨rfl,by simp_all⟩)
    · rename_i hp
      split at h
      · cases h; exact .inl rfl
      · cases h; exact .inl rfl
      · rename_i ho
        cases h; exact .inr (.inl ⟨rfl,by simp_all⟩)
      · rename_i ho
        split at h
        · cases h
        · rename_i expiresAt hx
          split at h
          · cases h; exact .inl rfl
          · cases h
            exact .inr (.inr ⟨c,hc,⟨by simpa using hp,by simp [ho],expiresAt,hx,by omega⟩,rfl⟩)

theorem revokeLease_ok {a : RevokeArgs} (h : revokeLease a now s = .ok (reply,t)) :
    t = s ∨ ∃ c, s.core = some c ∧ c.lifecyclePhase = .active ∧ c.ownershipState = .leased ∧
      t = (((s.setCore (c.revoked now)).delLease).zrem .leaseExpiry).sremWorker a.keys.workerInstanceId := by
  simp only [revokeLease,bind_ok,demand_ok,ensure_ok] at h
  obtain ⟨c,hc,_,hp,h⟩ := h
  split at h
  · cases h; exact .inl rfl
  · cases h; exact .inl rfl
  · cases h
  · rename_i ho
    simp only [bind_ok,ensure_ok] at h
    obtain ⟨_,-,h⟩ := h
    cases h; exact .inr ⟨c,hc,hp,ho,rfl⟩

theorem updateProgress_ok {a : ProgressArgs} (h : updateProgress a now s = .ok (reply,t)) :
    ∃ c progressPct progressMessage, s.core = some c ∧ toString c.currentLeaseEpoch = a.leaseEpoch ∧
      t = s.setCore { c with progressPct, progressMessage } := by
  simp only [updateProgress,bind_ok,demand_ok,ensure_ok] at h
  obtain ⟨c,hc,_,-,_,-,_,-,_,-,_,-,_,he,h⟩ := h
  cases h; exact ⟨c,_,_,hc,he,rfl⟩

theorem appendFrame_ok {a : AppendArgs} (h : appendFrame a now s = .ok (reply,t)) :
    ∃ c stream, s.core = some c ∧ toString c.currentLeaseEpoch = a.leaseEpoch ∧
      t = s.setStream a.keys.attemptIndex stream := by
  simp only [appendFrame,bind_ok,demand_ok,ensure_ok] at h
  obtain ⟨_,-,c,hc,_,-,_,-,_,-,_,-,_,-,_,he,_,-,h⟩ := h
  cases h; exact ⟨c,_,hc,he.2,rfl⟩

end FlowFabric
