import FlowFabric.Postgres.Rows

/-! The claims and the worker's operations of attempt.rs, and append_frame. Each of them is one
transaction on the rows of the execution. -/
namespace FlowFabric.Postgres
open Foundation Transaction

/-! ### Claims -/

/-- The row is one that claim looks for. -/
def CoreRow.claimable (c : CoreRow) (lane : String) : Prop :=
  c.laneId = lane ∧ c.lifecyclePhase = .runnable ∧ c.eligibilityState = .eligibleNow

instance (c : CoreRow) (lane : String) : Decidable (c.claimable lane) := inferInstanceAs (Decidable (_ ∧ _ ∧ _))

/-- Every capability the execution asks for is one of the worker's. Empty tokens do not count. -/
def capsMatch (required worker : List String) : Bool := (required.filter (· ≠ "")).all (· ∈ worker)

structure ClaimPolicy where
  lane : String
  capabilities : List String := []
  worker : Worker
  leaseTtlMs : Nat

variable (p : ClaimPolicy) (now : Int)

/-- The rows after a claim that inserts the attempt or takes its lease over. -/
def Rows.claimed (r : Rows) : Rows :=
  (r.upsertAttempt r.core.attemptIndex (.first p.worker 1 (saturatingAdd now p.leaseTtlMs) now)
    (.relet p.worker (saturatingAdd now p.leaseTtlMs) now)).updateCore (.startedNow now)

/-- The claim when it looks at this row. Which row of the lane it looks at is up to the order of
priority and creation. -/
def claim (r : Rows) : Transaction :=
  if r.core.claimable p.lane ∧ capsMatch r.core.requiredCapabilities p.capabilities = true then
    .ok { reply := .handle ⟨r.core.attemptIndex,(r.claimed p now).epochAt r.core.attemptIndex,p.leaseTtlMs⟩
          rows := r.claimed p now }
  else .ok { reply := .nothing, rows := r }

theorem claim_rows (r : Rows) : (claim p now r).rows r =
      if r.core.claimable p.lane ∧ capsMatch r.core.requiredCapabilities p.capabilities = true then
        r.claimed p now
      else r := by
  unfold claim
  split <;> rfl

def AttemptRow.live (a : AttemptRow) (now : Int) : Bool := a.leaseExpiresAtMs.any (now < ·)

structure ResumeToken where
  worker : Worker
  leaseTtlMs : Nat

variable (t : ResumeToken)

def Rows.takenOver (i : Nat) (now : Int) (r : Rows) : Rows :=
  (r.updateAttempt i (.relet t.worker (saturatingAdd now t.leaseTtlMs) now)).updateCore CoreRow.activated

/-- The newest attempt is taken over, in whatever phase the execution is. -/
def claimFromResumeGrant (now : Int) (r : Rows) : Transaction :=
  match r.attempts.newest with
  | none => .error (.notFound "attempt")
  | some (i,row) =>
    if row.live now = true then .ok { reply := .nothing, rows := r }
    else .ok { reply := .handle ⟨i,row.leaseEpoch + 1,t.leaseTtlMs⟩, rows := r.takenOver t i now }

def Rows.newestFree (r : Rows) : Option Nat :=
  r.attempts.newest.bind fun e => if e.2.live now = true then none else some e.1

theorem claimFromResumeGrant_rows (now : Int) (r : Rows) :
    (claimFromResumeGrant t now r).rows r = ((r.newestFree now).map fun i => r.takenOver t i now).getD r := by
  unfold claimFromResumeGrant Rows.newestFree
  cases r.attempts.newest with
  | none => rfl
  | some e => by_cases hl : e.2.live now = true <;> simp [hl]

/-! ### Operations under a handle -/

/-- The epoch of the handle against the row of its own attempt index, and nothing else. -/
def fenceCheck (h : Handle) (r : Rows) : Except EngineError Unit := do
  let a ← demand (r.attempt h.attemptIndex) (.notFound "attempt")
  ensure (a.leaseEpoch = h.leaseEpoch) (.contention .leaseConflict)

def Rows.fences (r : Rows) (h : Handle) : Prop :=
  (r.attempt h.attemptIndex).map AttemptRow.leaseEpoch = some h.leaseEpoch

instance (r : Rows) (h : Handle) : Decidable (r.fences h) := inferInstanceAs (Decidable (_ = _))

variable {r : Rows} {h : Handle}

theorem fenceCheck_of (hf : r.fences h) : fenceCheck h r = .ok () := by
  obtain ⟨a,ha,he⟩ := Option.map_eq_some_iff.mp hf
  simp [fenceCheck,ha,demand,ensure,he]

theorem fenceCheck_of_not (hf : ¬ r.fences h) : ∃ e, fenceCheck h r = .error e := by
  cases he : fenceCheck h r with
  | error e => exact ⟨e,rfl⟩
  | ok =>
    refine absurd ?_ hf
    obtain ⟨a,ha,hu⟩ := (bind_ok _ _ _).mp he
    rw [demand_ok] at ha
    rw [ensure_ok] at hu
    rw [Rows.fences,ha,Option.map_some,hu]

def fenced (h : Handle) (done : Rows → Committed) (r : Rows) : Transaction := do
  fenceCheck h r
  return done r

theorem fenced_of (hf : r.fences h) (done : Rows → Committed) : fenced h done r = .ok (done r) := by
  rw [fenced,fenceCheck_of hf]
  rfl

theorem fenced_of_not (hf : ¬ r.fences h) (done : Rows → Committed) : ∃ e, fenced h done r = .error e := by
  obtain ⟨e,he⟩ := fenceCheck_of_not hf
  exact ⟨e,by rw [fenced,he]; rfl⟩

theorem fenced_rows (h : Handle) (done : Rows → Committed) (r : Rows) :
    (fenced h done r).rows r = if r.fences h then (done r).rows else r := by
  by_cases hf : r.fences h
  · rw [fenced_of hf,if_pos hf,rows_ok]
  · obtain ⟨e,he⟩ := fenced_of_not hf done
    rw [he,if_neg hf,rows_error]

/-- A time to live that the column cannot hold counts as none. -/
def ttlOrZero (ttlMs : Nat) : Nat := if ttlMs < 2 ^ 63 then ttlMs else 0

def AttemptRow.renewedTo (expires : Int) (a : AttemptRow) : AttemptRow :=
  { a with leaseExpiresAtMs := some expires }

def renew (h : Handle) (now : Int) : Rows → Transaction :=
  fenced h fun r =>
    { reply := .renewed (saturatingAdd now (ttlOrZero h.leaseTtlMs)) h.leaseEpoch
      rows := r.updateAttempt h.attemptIndex (.renewedTo (saturatingAdd now (ttlOrZero h.leaseTtlMs))) }

def CoreRow.progressed (percent : Option Nat) (message : Option String) (c : CoreRow) : CoreRow :=
  { c with rawFields :=
    { c.rawFields with
      progressPct := percent.or c.rawFields.progressPct, progressMessage := message.or c.rawFields.progressMessage } }

def progress (h : Handle) (percent : Option Nat) (message : Option String) : Rows → Transaction :=
  fenced h fun r => { reply := .done, rows := r.updateCore (.progressed percent message) }

def AttemptRow.closed (outcome : Outcome) (now : Int) (a : AttemptRow) : AttemptRow :=
  { a with terminalAtMs := some now, outcome := some outcome, leaseExpiresAtMs := none }

/-- The public state is left as it is. -/
def complete (h : Handle) (payload : Option String) (now : Int) : Rows → Transaction :=
  fenced h fun r =>
    { reply := .done
      rows := (r.updateAttempt h.attemptIndex (.closed .success now)).updateCore fun c =>
        { c.ended now with result := payload }
      events := [r.completion .success now] }

inductive FailureClass where
  | transient | permanent | infraCrash | timeout | cancelled

def FailureClass.retryable : FailureClass → Bool
  | .transient | .infraCrash => true
  | .permanent | .timeout | .cancelled => false

def CoreRow.retried (c : CoreRow) : CoreRow :=
  { c.requeued .eligibleNow .pendingRetryAttempt with attemptIndex := c.attemptIndex + 1 }

def failRetry (h : Handle) (now : Int) (r : Rows) : Transaction := do
  fenceCheck h r
  ensure (r.core.attemptIndex < i32Max) .transport
  return {
    reply := .retryScheduled, rows := (r.updateAttempt h.attemptIndex (.closed .retry now)).updateCore CoreRow.retried }

theorem failRetry_rows (h : Handle) (now : Int) (r : Rows) : (failRetry h now r).rows r =
      if r.fences h ∧ r.core.attemptIndex < i32Max then
        (r.updateAttempt h.attemptIndex (.closed .retry now)).updateCore CoreRow.retried
      else r := by
  by_cases hf : r.fences h
  · rw [failRetry,fenceCheck_of hf,ite_and,if_pos hf]
    exact rows_ensure r _ _ _
  · obtain ⟨e,he⟩ := fenceCheck_of_not hf
    rw [failRetry,he,if_neg fun h => hf h.1]
    rfl

def failTerminal (h : Handle) (now : Int) : Rows → Transaction :=
  fenced h fun r =>
    { reply := .terminalFailed
      rows := (r.updateAttempt h.attemptIndex (.closed .failed now)).updateCore (.ended now)
      events := [r.completion .failed now] }

def fail (h : Handle) (classification : FailureClass) (now : Int) (r : Rows) : Transaction :=
  if classification.retryable = true then failRetry h now r else failTerminal h now r

def AttemptRow.interrupted (outcome : Outcome) (a : AttemptRow) : AttemptRow :=
  { a with outcome := some outcome, leaseExpiresAtMs := none }

def delay (h : Handle) (delayUntil : Int) : Rows → Transaction :=
  fenced h fun r =>
    { reply := .done
      rows := (r.updateAttempt h.attemptIndex (.interrupted .interrupted)).updateCore fun c =>
        { c.requeued .notEligibleUntilTime .attemptInterrupted with deadlineAtMs := some delayUntil } }

def waitChildren (h : Handle) : Rows → Transaction :=
  fenced h fun r =>
    { reply := .done
      rows := (r.updateAttempt h.attemptIndex (.interrupted .waitingChildren)).updateCore fun c =>
        { c.requeued .blockedByDependencies .attemptInterrupted with
          blockingReason := some .waitingForChildren } }

/-! ### Frames -/

/-- A summary patch that is not JSON is refused. -/
inductive StreamMode where
  | durable
  | durableSummary (patchParses : Bool)
  | bestEffortLive

def StreamMode.accepted : StreamMode → Bool
  | .durableSummary patchParses => patchParses
  | .durable | .bestEffortLive => true

/-- The epoch of the handle is not looked at. -/
def appendFrame (h : Handle) (mode : StreamMode) (fields : String) (now : Int) (r : Rows) : Transaction := do
  ensure (mode.accepted = true) (.invalidInput "summary patch not valid JSON")
  return { reply := .done, rows := { r with frames := r.frames ++ [⟨h.attemptIndex,now,fields⟩] } }

theorem appendFrame_rows (h : Handle) (mode : StreamMode) (fields : String) (now : Int) (r : Rows) :
    (appendFrame h mode fields now r).rows r =
      if mode.accepted = true then { r with frames := r.frames ++ [⟨h.attemptIndex,now,fields⟩] } else r :=
  rows_ensure r _ _ _

end FlowFabric.Postgres
