import Mathlib.Data.List.Sort
import FlowFabric.Reply

/-! ff_create_execution. -/
namespace FlowFabric
open Foundation

def capsMaxBytes : Nat := 4096
def capsMaxTokens : Nat := 256

def badCapability (detail : String) : Reply := .err .invalidCapabilities [detail]

/-- One required capability: a text without commas, blanks and control characters. -/
def checkCapability : Json → Except Reply String
  | .str cap => do
    ensure (cap ≠ "") (badCapability "required:empty_token")
    ensure (',' ∉ cap.toList) (badCapability "required:comma_in_token")
    ensure (cap.toList.all fun c => decide (0x20 < c.toNat ∧ c.toNat ≠ 0x7F))
      (badCapability "required:control_or_whitespace")
    return cap
  | _ => .error (badCapability "required:non_string_token")

/-- The sorted list of required capabilities a policy asks for, joined by commas. -/
def requiredCapabilitiesCsv : JsonText → Except Reply String
  | .empty => .ok ""
  | .malformed => .error (.err .invalidPolicyJson ["malformed"])
  | .doc policy =>
    match policy.field "routing_requirements" with
    | none => .ok ""
    | some routing => do
      ensure (routing.isTable = true) (.err .invalidPolicyJson ["routing_requirements:not_object"])
      match routing.field "required_capabilities" with
      | none => return ""
      | some caps =>
        ensure (caps.isTable = true) (badCapability "required:not_array")
        let list ← caps.items.mapM checkCapability
        ensure (list.length ≤ capsMaxTokens) (badCapability "required:too_many_tokens")
        let csv := ",".intercalate (list.insertionSort (· ≤ ·))
        ensure (csv.utf8ByteSize ≤ capsMaxBytes) (badCapability "required:too_many_bytes")
        return csv

/-- The arguments, the sorted set the caller put into the scheduling key, and what
the deduplication key holds. -/
structure CreateArgs where
  executionId : String
  priority : Argument
  policyJson : JsonText := .empty
  (delayUntil executionDeadlineAt : Option Int := none)
  schedulingZset : Index
  idempotencyHit : Option String := none

variable (a : CreateArgs)

/-- The typed wrapper chooses the scheduling key by the presence of a delay. -/
def CreateArgs.Keyed : Prop := a.schedulingZset = if a.delayUntil.isSome then .delayed else .eligible

/-- Priorities are clamped so that the score stays exact in a double. -/
def clampPriority (priority : Int) : Int := max 0 (min priority 9000)

/-- The hash a new execution starts with. A due time in the past is no delay. -/
def newCore (priority now : Int) (requiredCapabilities : String) : ExecCore :=
  let delay := a.delayUntil.filter fun due => decide (now < due)
  { executionId := a.executionId
    priority
    lifecyclePhase := .runnable, ownershipState := .unowned
    eligibilityState := if delay.isSome then .notEligibleUntilTime else .eligibleNow
    blockingReason := if delay.isSome then .waitingForDelay else .waitingForWorker, terminalOutcome := .none
    attemptState := .pendingFirstAttempt, publicState := if delay.isSome then .delayed else .waiting, createdAt := now
    delayUntil := delay
    requiredCapabilities }

def createdStore (c : ExecCore) (s : Store) : Store :=
  let s := (s.setCore c).setPolicy (if a.policyJson.isEmpty then s.policy else a.policyJson)
  let s := s.zadd a.schedulingZset (c.delayUntil.getD c.eligibleScore)
  s.zaddSome .executionDeadline a.executionDeadlineAt

def createExecution (now : Int) (s : Store) : Outcome := do
  let priority ← requireNumber "priority" a.priority
  match a.idempotencyHit with
  | some existing => return (.duplicate [existing],s)
  | none =>
    match s.core with
    | some _ => return (.duplicate [a.executionId],s)
    | none =>
      let requiredCapabilities ← requiredCapabilitiesCsv a.policyJson
      let c := newCore a (clampPriority priority) now requiredCapabilities
      return (.ok [a.executionId,c.publicState.text],createdStore a c s)

theorem createExecution_ok {a : CreateArgs} {now : Int} {s t : Store} {reply : Reply}
    (h : createExecution a now s = .ok (reply,t)) :
    ((∃ fields, reply = .duplicate fields) ∧ t = s) ∨ s.core = none ∧ ∃ priority requiredCapabilities,
      t = createdStore a (newCore a priority now requiredCapabilities) s := by
  simp only [createExecution,bind_ok,requireNumber_ok] at h
  obtain ⟨priority,-,h⟩ := h
  split at h
  · left; cases h; exact ⟨⟨_,rfl⟩,rfl⟩
  · split at h
    · left; cases h; exact ⟨⟨_,rfl⟩,rfl⟩
    · rename_i hc
      simp only [bind_ok] at h
      obtain ⟨caps,-,h⟩ := h
      right; cases h; exact ⟨hc,_,_,rfl⟩

end FlowFabric
