import FlowFabric.Foundation.Table
import FlowFabric.ResumeCondition

/-! The rows of one execution in the Postgres schema. The state columns are free text there, so each
of them has the alphabet of the literals that the statements write or compare with. A lease epoch is
a bigint and does not run over. -/
namespace FlowFabric.Postgres
open Foundation

abbrev Uuid := Nat

/-! ### Columns -/

/-- The last six literals occur in filters only. -/
inductive Phase where
  | submitted | runnable | active | suspended | terminal | cancelled
  | pending | blocked | eligible | completed | failed | expired
  deriving DecidableEq

inductive Ownership where
  | unowned | leased | released | leaseExpiredReclaimable | leaseRevoked
  deriving DecidableEq

inductive Eligibility where
  | eligibleNow | notEligibleUntilTime | blockedByDependencies | pendingClaim | notApplicable | cancelled
  deriving DecidableEq

inductive Public where
  | waiting | delayed | waitingChildren | running | active | suspended | resumable
  | completed | failed | cancelled | skipped
  deriving DecidableEq

inductive Attempt where
  | pending | pendingFirstAttempt | initial | runningAttempt | attemptInterrupted | pendingRetryAttempt
  | pendingReplayAttempt | attemptTerminal | cancelled | terminalFailed
  deriving DecidableEq

inductive Outcome where
  | success | failed | failure | retry | interrupted | waitingChildren | attemptInterrupted
  | leaseExpiredReclaimable | interruptedReclaimed | cancelled | expired | skipped | resumable
  deriving DecidableEq

def Phase.text : Phase → String
  | .submitted => "submitted"
  | .runnable => "runnable"
  | .active => "active"
  | .suspended => "suspended"
  | .terminal => "terminal"
  | .cancelled => "cancelled"
  | .pending => "pending"
  | .blocked => "blocked"
  | .eligible => "eligible"
  | .completed => "completed"
  | .failed => "failed"
  | .expired => "expired"

def Public.text : Public → String
  | .waiting => "waiting"
  | .delayed => "delayed"
  | .waitingChildren => "waiting_children"
  | .running => "running"
  | .active => "active"
  | .suspended => "suspended"
  | .resumable => "resumable"
  | .completed => "completed"
  | .failed => "failed"
  | .cancelled => "cancelled"
  | .skipped => "skipped"

def Attempt.text : Attempt → String
  | .pending => "pending"
  | .pendingFirstAttempt => "pending_first_attempt"
  | .initial => "initial"
  | .runningAttempt => "running_attempt"
  | .attemptInterrupted => "attempt_interrupted"
  | .pendingRetryAttempt => "pending_retry_attempt"
  | .pendingReplayAttempt => "pending_replay_attempt"
  | .attemptTerminal => "attempt_terminal"
  | .cancelled => "cancelled"
  | .terminalFailed => "terminal_failed"

def i32Max : Nat := 2 ^ 31 - 1

def i64Max : Int := 2 ^ 63 - 1

def saturatingAdd (now : Int) (ttlMs : Nat) : Int := min (now + min (ttlMs : Int) i64Max) i64Max

/-- The successor of an attempt index, which the column holds as an integer of 32 bits. -/
def saturatingSucc (i : Nat) : Nat := min (i + 1) i32Max

/-! ### Rows -/

/-- The entries of raw_fields that some statement reads. -/
structure RawFields where
  (fieldNamespace instanceTag : Option String := none)
  lastMutationAt : Option Int := none
  totalAttemptCount : Option Nat := none
  currentAttemptId : Option String := none
  currentAttemptIndex : Option Nat := none
  retryCount : Nat := 0
  terminalOutcome : TerminalOutcome := .none
  progressPct : Option Nat := none
  (progressMessage budgetIds : Option String := none)

/-- The ff_exec_core row. The policy is its retry_policy.max_retries. -/
structure CoreRow where
  flowId : Option Uuid := none
  laneId : String := "default"
  requiredCapabilities : List String := []
  attemptIndex : Nat := 0
  lifecyclePhase : Phase
  ownershipState : Ownership
  eligibilityState : Eligibility
  publicState : Public
  attemptState : Attempt
  blockingReason : Option BlockingReason := none
  (cancellationReason cancelledBy : Option String := none)
  (priority createdAtMs : Int := 0)
  (startedAtMs terminalAtMs deadlineAtMs : Option Int := none)
  result : Option String := none
  (maxRetries leaseReclaimCount : Nat := 0)
  rawFields : RawFields := {}

/-- An ff_attempt row, kept under its attempt index. -/
structure AttemptRow where
  (workerId workerInstanceId : Option String)
  leaseEpoch : Nat
  (leaseExpiresAtMs startedAtMs : Option Int)
  terminalAtMs : Option Int := none
  outcome : Option Outcome := none

/-- The synthetic entry of a timeout has no signal id. -/
inductive MemberEntry where
  | signal (s : Signal)
  | timeout (deliveredAtMs : Int)

/-- What member_map holds under one key. -/
inductive MemberSlot where
  | array (entries : List MemberEntry)
  | neverCommitted (closedAtMs : Int)

/-- The ff_suspension_current row. -/
structure SuspensionRow where
  suspensionId : Uuid
  timeoutAtMs : Option Int
  condition : ResumeCondition
  memberMap : String → Option MemberSlot
  timeoutBehavior : TimeoutBehavior

inductive GrantKind where
  | claim | reclaim
  deriving DecidableEq

/-- An ff_claim_grant row. Its grant_id is a digest of the columns but the time of issue, signed
with a key of the keystore. -/
structure GrantRow where
  kind : GrantKind
  (workerId workerInstanceId : String)
  (issuedAtMs expiresAtMs : Int)
  kid : String

structure FrameRow where
  attemptIndex : Nat
  tsMs : Int
  fields : String

structure Rows where
  core : CoreRow
  attempts : Table Nat AttemptRow := ∅
  suspension : Option SuspensionRow := none
  grants : List GrantRow := []
  frames : List FrameRow := []

/-! ### Calls -/

structure Worker where
  (workerId workerInstanceId : String)

structure Handle where
  (attemptIndex leaseEpoch leaseTtlMs : Nat)
  deriving DecidableEq

inductive ContentionKind where
  | leaseConflict | executionNotLeaseable | invalidClaimGrant | claimGrantExpired
  | notAResumedExecution | executionNotEligible | staleGraphRevision | retryExhausted
  | executionNotActive (terminalOutcome : Option TerminalOutcome) (leaseEpoch : Option Nat)
      (lifecyclePhase : Phase) (attemptId : Option String)

inductive StateKind where
  | staleLease | leaseExpired | leaseRevoked | executionNotSuspended | executionNotTerminal

inductive EngineError where
  | notFound (entity : String)
  | invalidInput (detail : String)
  | corruption (detail : String)
  | contention (kind : ContentionKind)
  | state (kind : StateKind)
  | activeAttemptExists
  | dependencyAlreadyExists
  | rotationConflict (detail : String)
  | unavailable (op : String)
  | transport
  /-- The call panics, and its transaction is rolled back. -/
  | panicked

inductive Reply where
  | done
  | nothing
  | handle (h : Handle)
  | suspended (h : Handle)
  | cached
  | renewed (expiresAt : Int) (leaseEpoch : Nat)
  | retryScheduled
  | terminalFailed
  | granted (expiresAt : Int)
  | grantNotFound
  | notReclaimable (lifecyclePhase : Phase)
  | reclaimCapExceeded (reclaimCount : Nat)
  | revoked (leaseEpoch : Nat)
  | alreadySatisfied (reason : String)
  | publicly (state : Public)
  | accepted (effect : SignalEffect)
  deriving DecidableEq

/-- An ff_completion_event row as it is inserted. -/
structure Completion where
  flowId : Option Uuid
  outcome : Outcome
  occurredAtMs : Int
  (eventNamespace instanceTag : Option String := none)

/-- What a transaction on the rows of one execution leaves when it commits. -/
structure Committed where
  reply : Reply
  rows : Rows
  events : List Completion := []

/-- An error rolls the transaction back. -/
abbrev Transaction := Except EngineError Committed

variable (r : Rows)

def Transaction.rows : Transaction → Rows
  | .ok done => done.rows
  | .error _ => r

@[simp] theorem Transaction.rows_ok (done : Committed) : Transaction.rows r (.ok done) = done.rows := rfl

@[simp] theorem Transaction.rows_error (e : EngineError) : Transaction.rows r (.error e) = r := rfl

@[simp] theorem Transaction.rows_pure (done : Committed) : Transaction.rows r (pure done) = done.rows := rfl

@[simp] theorem Transaction.rows_ensure (p : Prop) [Decidable p] (e : EngineError) (k : Unit → Transaction) :
    Transaction.rows r (ensure p e >>= k) = if p then Transaction.rows r (k ()) else r := by
  by_cases h : p
  · rw [ensure_of h,if_pos h]
    rfl
  · rw [ensure_of_not h,if_neg h]
    rfl

@[simp] theorem Transaction.rows_demand {α : Type} (r : Rows) (o : Option α) (e : EngineError) (k : α → Transaction) :
    Transaction.rows r (demand o e >>= k) = (o.map fun a => Transaction.rows r (k a)).getD r := by
  cases o <;> rfl

/-! ### Statements -/

namespace Rows
variable (r : Rows)

def attempt (i : Nat) : Option AttemptRow := r.attempts.lookup i

def current : Option AttemptRow := r.attempt r.core.attemptIndex

/-- The lease epoch of an attempt. The first epoch is one, so zero stands for no row. -/
def epochAt (i : Nat) : Nat := ((r.attempt i).map AttemptRow.leaseEpoch).getD 0

@[simps]
def updateCore (f : CoreRow → CoreRow) : Rows := { r with core := f r.core }

def updateAttempt (i : Nat) (f : AttemptRow → AttemptRow) : Rows :=
  { r with attempts := r.attempts.update i f }

def upsertAttempt (i : Nat) (new : AttemptRow) (f : AttemptRow → AttemptRow) : Rows :=
  { r with attempts := r.attempts.upsert i new f }

def completion (outcome : Outcome) (now : Int) : Completion := ⟨r.core.flowId,outcome,now,none,none⟩

end Rows

namespace AttemptRow

def first (w : Worker) (epoch : Nat) (expires now : Int) : AttemptRow :=
  ⟨some w.workerId,some w.workerInstanceId,epoch,some expires,some now,none,none⟩

def relet (w : Worker) (expires now : Int) (a : AttemptRow) : AttemptRow :=
  { a with
    workerId := some w.workerId, workerInstanceId := some w.workerInstanceId, leaseEpoch := a.leaseEpoch + 1
    leaseExpiresAtMs := some expires, startedAtMs := some now, outcome := none }

/-- The same for the two claims that keep when the attempt was first started. -/
def reopened (w : Worker) (expires now : Int) (a : AttemptRow) : AttemptRow :=
  { a.relet w expires now with startedAtMs := a.startedAtMs.or (some now), terminalAtMs := none }

end AttemptRow

namespace CoreRow

/-- The execution has ended, in one of the two spellings. -/
def isEnded (c : CoreRow) : Prop := c.lifecyclePhase = .terminal ∨ c.lifecyclePhase = .cancelled

instance (c : CoreRow) : Decidable c.isEnded := inferInstanceAs (Decidable (_ ∨ _))

def activated (c : CoreRow) : CoreRow :=
  { c with
    lifecyclePhase := .active, ownershipState := .leased, eligibilityState := .notApplicable
    attemptState := .runningAttempt }

def startedNow (now : Int) (c : CoreRow) : CoreRow :=
  { c.activated with publicState := .running, startedAtMs := c.startedAtMs.or (some now) }

def ended (now : Int) (c : CoreRow) : CoreRow :=
  { c with
    lifecyclePhase := .terminal, ownershipState := .unowned, eligibilityState := .notApplicable
    attemptState := .attemptTerminal, terminalAtMs := some now }

def requeued (eligibility : Eligibility) (attempt : Attempt) (c : CoreRow) : CoreRow :=
  { c with
    lifecyclePhase := .runnable, ownershipState := .unowned, eligibilityState := eligibility, attemptState := attempt }

def mutatedAt (now : Int) (c : CoreRow) : CoreRow :=
  { c with rawFields := { c.rawFields with lastMutationAt := some now } }

/-- The error of the methods that need an active execution. -/
def notActive (c : CoreRow) (leaseEpoch : Option Nat) : EngineError :=
  .contention (.executionNotActive (some c.rawFields.terminalOutcome) leaseEpoch c.lifecyclePhase
    c.rawFields.currentAttemptId)

end CoreRow
end FlowFabric.Postgres
