import FlowFabric.Postgres.Attempt

/-! Grants. The scheduler hands out claim grants, and an execution whose lease has run out is given
to another worker under a reclaim grant. -/
namespace FlowFabric.Postgres
open Foundation Option Transaction

def GrantRow.sameId (g g' : GrantRow) : Prop :=
  g.kind = g'.kind ∧ g.workerId = g'.workerId ∧ g.workerInstanceId = g'.workerInstanceId ∧
    g.expiresAtMs = g'.expiresAtMs ∧ g.kid = g'.kid

instance (g g' : GrantRow) : Decidable (g.sameId g') := inferInstanceAs (Decidable (_ ∧ _ ∧ _ ∧ _ ∧ _))

/-- Insert the grant, or write the one with its grant_id. -/
def writeClaimGrant (g : GrantRow) (grants : List GrantRow) : List GrantRow :=
  grants.filter (fun g' => ¬ g'.sameId g) ++ [g]

structure GrantRequest where
  worker : Worker
  grantTtlMs : Nat
  /-- The active key of the keystore. -/
  kid : Option String

variable (a : GrantRequest)

def GrantRequest.row (kind : GrantKind) (kid : String) (now : Int) : GrantRow :=
  ⟨kind,a.worker.workerId,a.worker.workerInstanceId,now,saturatingAdd now a.grantTtlMs,kid⟩

def Rows.claimGranted (g : GrantRow) (r : Rows) : Rows :=
  { r with
    core := { r.core with eligibilityState := .pendingClaim }, grants := writeClaimGrant g r.grants }

/-- The scheduler when it looks at this row. Whether the budgets of the execution let it through is
read from other tables. -/
def claimForWorker (lane : String) (capabilities : List String) (budgetsAdmit : Bool)
    (now : Int) (r : Rows) : Transaction := do
  let kid ← demand a.kid (.unavailable "claim_for_worker: ff_waitpoint_hmac keystore empty")
  if r.core.claimable lane ∧ capsMatch r.core.requiredCapabilities capabilities = true ∧ budgetsAdmit = true then
    return { reply := .granted (saturatingAdd now a.grantTtlMs), rows := r.claimGranted (a.row .claim kid now) }
  else return { reply := .nothing, rows := r }

theorem claimForWorker_rows (lane : String) (capabilities : List String) (budgetsAdmit : Bool) (now : Int) (r : Rows) :
    (claimForWorker a lane capabilities budgetsAdmit now r).rows r = r ∨ r.core.claimable lane ∧ ∃ g, g.kind = .claim ∧
        (claimForWorker a lane capabilities budgetsAdmit now r).rows r = r.claimGranted g := by
  rw [claimForWorker,rows_demand]
  cases a.kid with
  | none => exact .inl rfl
  | some kid =>
    by_cases hc : r.core.claimable lane ∧ capsMatch r.core.requiredCapabilities capabilities = true ∧
        budgetsAdmit = true
    · refine .inr ⟨hc.1,a.row .claim kid now,rfl,?_⟩
      rw [map_some,if_pos hc]
      rfl
    · rw [map_some,if_neg hc]
      exact .inl rfl

def defaultMaxReclaimCount : Nat := 1000

/-- The lease of the attempt that was joined to the core row. No row counts as an ended lease. -/
def leaseExpired (a : Option AttemptRow) (now : Int) : Prop :=
  match a.bind AttemptRow.leaseExpiresAtMs with
  | some expires => expires ≤ now
  | none => ∀ instanceId ∈ a.bind AttemptRow.workerInstanceId, instanceId = ""

instance (a : Option AttemptRow) (now : Int) : Decidable (leaseExpired a now) := by
  unfold leaseExpired
  split <;> infer_instance

def Rows.reclaimable (r : Rows) (now : Int) : Prop :=
  r.core.lifecyclePhase = .active ∧
    (r.core.ownershipState = .leaseExpiredReclaimable ∨ r.core.ownershipState = .leaseRevoked ∨
      leaseExpired r.current now)

instance (r : Rows) (now : Int) : Decidable (r.reclaimable now) := inferInstanceAs (Decidable (_ ∧ (_ ∨ _ ∨ _)))

def issueReclaimGrant (now : Int) (r : Rows) : Transaction := do
  let kid ← demand a.kid (.unavailable "issue_reclaim_grant: ff_waitpoint_hmac keystore empty")
  if defaultMaxReclaimCount ≤ r.core.leaseReclaimCount then
    return { reply := .reclaimCapExceeded r.core.leaseReclaimCount, rows := r }
  else if r.reclaimable now then do
    ensure (∀ g ∈ r.grants, ¬ g.sameId (a.row .reclaim kid now)) .transport
    return {
      reply := .granted (saturatingAdd now a.grantTtlMs)
      rows := { r with grants := r.grants ++ [a.row .reclaim kid now] } }
  else return { reply := .notReclaimable r.core.lifecyclePhase, rows := r }

theorem issueReclaimGrant_rows (now : Int) (r : Rows) : (issueReclaimGrant a now r).rows r = r ∨
      r.reclaimable now ∧ ∃ g, (issueReclaimGrant a now r).rows r = { r with grants := r.grants ++ [g] } := by
  rw [issueReclaimGrant,rows_demand]
  cases a.kid with
  | none => exact .inl rfl
  | some kid =>
    rw [map_some,getD_some]
    by_cases hk : defaultMaxReclaimCount ≤ r.core.leaseReclaimCount
    · rw [if_pos hk]
      exact .inl rfl
    · rw [if_neg hk]
      by_cases hr : r.reclaimable now
      · rw [if_pos hr,rows_ensure]
        by_cases hg : ∀ g ∈ r.grants, ¬ g.sameId (a.row .reclaim kid now)
        · rw [if_pos hg]
          exact .inr ⟨hr,a.row .reclaim kid now,rfl⟩
        · rw [if_neg hg]
          exact .inl rfl
      · rw [if_neg hr]
        exact .inl rfl

def latestGrant : List GrantRow → Option GrantRow
  | [] => none
  | g :: grants =>
    match latestGrant grants with
    | some g' => if g.issuedAtMs < g'.issuedAtMs then some g' else some g
    | none => some g

def Rows.reclaimGrant (r : Rows) : Option GrantRow := latestGrant (r.grants.filter (·.kind = .reclaim))

structure ReclaimArgs where
  worker : Worker
  leaseTtlMs : Nat
  maxReclaimCount : Option Nat := none

def Rows.reclaimCapped (g : GrantRow) (now : Int) (r : Rows) : Rows :=
  { r with
    core := { r.core with
      lifecyclePhase := .terminal, ownershipState := .unowned, eligibilityState := .notApplicable
      publicState := .failed, attemptState := .terminalFailed, terminalAtMs := r.core.terminalAtMs.or (some now)
      leaseReclaimCount := min (r.core.leaseReclaimCount + 1) i32Max
      cancellationReason := r.core.cancellationReason.or (some "reclaim_cap_exceeded") }
    grants := r.grants.filter (fun g' => ¬ g'.sameId g) }

/-- A new attempt under the epoch after that of the last one, whose lease is left as it is. -/
def Rows.reclaimed (a : ReclaimArgs) (g : GrantRow) (now : Int) (r : Rows) : Rows :=
  let i := r.core.attemptIndex
  let prior := r.updateAttempt i fun row =>
    { row with outcome := some .interruptedReclaimed, terminalAtMs := row.terminalAtMs.or (some now) }
  { prior with
    core := { r.core.startedNow now with
      attemptIndex := i + 1, leaseReclaimCount := min (r.core.leaseReclaimCount + 1) i32Max }
    attempts := prior.attempts.insert (i + 1)
      (.first a.worker (r.epochAt i + 1) (saturatingAdd now a.leaseTtlMs) now)
    grants := r.grants.filter (fun g' => ¬ g'.sameId g) }

/-- That the lease has ended is not looked at again. -/
def reclaimExecution (a : ReclaimArgs) (now : Int) (r : Rows) : Transaction :=
  match r.reclaimGrant with
  | none => .ok { reply := .grantNotFound, rows := r }
  | some g => do
    ensure (g.workerId = a.worker.workerId) (.invalidInput
      ("reclaim_execution: grant.worker_id=" ++ g.workerId ++ " != args.worker_id=" ++ a.worker.workerId))
    if g.expiresAtMs ≤ now then return { reply := .grantNotFound, rows := r }
    else if r.core.isEnded then return { reply := .notReclaimable r.core.lifecyclePhase, rows := r }
    else if a.maxReclaimCount.getD defaultMaxReclaimCount < r.core.leaseReclaimCount + 1 then
      return {
        reply := .reclaimCapExceeded (r.core.leaseReclaimCount + 1), rows := r.reclaimCapped g now
        events := [r.completion .failed now] }
    else do
      -- the insert fails on a row that is there already, and past the last index
      ensure (r.core.attemptIndex < i32Max ∧ r.attempt (r.core.attemptIndex + 1) = none) .transport
      return {
        reply := .handle ⟨r.core.attemptIndex + 1,r.epochAt r.core.attemptIndex + 1,min a.leaseTtlMs (2 ^ 32 - 1)⟩
        rows := r.reclaimed a g now }

theorem reclaimExecution_ok {a : ReclaimArgs} {now : Int} {r : Rows} {done : Committed}
    (h : reclaimExecution a now r = .ok done) :
    (done.rows = r ∧ ∀ lease, done.reply ≠ .handle lease) ∨ ¬ r.core.isEnded ∧ ∃ g, r.reclaimGrant = some g ∧
        ((done.rows = r.reclaimCapped g now ∧ ∀ lease, done.reply ≠ .handle lease) ∨
          r.attempt (r.core.attemptIndex + 1) = none ∧ done = {
              reply := .handle ⟨r.core.attemptIndex + 1,r.epochAt r.core.attemptIndex + 1,
                min a.leaseTtlMs (2 ^ 32 - 1)⟩
              rows := r.reclaimed a g now }) := by
  unfold reclaimExecution at h
  split at h
  · cases h
    exact .inl ⟨rfl,by simp⟩
  · rename_i g hg
    obtain ⟨-,-,h⟩ := (bind_ok _ _ _).mp h
    split at h
    · cases h
      exact .inl ⟨rfl,by simp⟩
    · split at h
      · cases h
        exact .inl ⟨rfl,by simp⟩
      · rename_i hn
        refine .inr ⟨hn,g,hg,?_⟩
        split at h
        · cases h
          exact .inl ⟨rfl,by simp⟩
        · simp only [bind_ok,ensure_ok,pure_ok] at h
          obtain ⟨-,hi,hd⟩ := h
          exact .inr ⟨hi.2,hd.symm⟩

end FlowFabric.Postgres
