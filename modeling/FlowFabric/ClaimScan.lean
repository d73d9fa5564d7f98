import FlowFabric.FlowGraph
import FlowFabric.LaneIndex
import FlowFabric.TerminalOps

/-! The scan for work, claim_impl: one look at the lane's eligible index of every partition, a
grant and a claim for the first entry that fits the worker. -/
namespace FlowFabric
open Foundation Option

inductive ErrorClass where
  | terminal | retryable | cooperative | informational | bug

/-- The class of an error as the engine's own type has it, which is not always the class of the
script's. The code of no known error has none. -/
def ErrorCode.class : ErrorCode → Option ErrorClass
  | .useClaimResumedExecution | .notAResumedExecution | .executionNotLeaseable | .leaseConflict
  | .invalidClaimGrant | .claimGrantExpired | .waitpointNotFound | .waitpointPendingUseBufferScript
  | .staleGraphRevision | .executionNotActive | .executionNotEligible | .executionNotInEligibleSet
  | .executionNotReclaimable | .noActiveLease => some .retryable
  | .executionNotSuspended | .alreadySuspended | .waitpointClosed | .grantAlreadyExists
  | .waitpointNotOpen | .waitpointNotPending | .pendingWaitpointExpired | .notBlockedByDeps
  | .depsNotSatisfied => some .informational
  | .additionalWaitpointBindingMalformed | .usePendingWithExtrasUnsupported
  | .hmacSecretNotInitialized | .invalidSecret | .missingToken | .tokenExpired
  | .alreadyMemberOfDifferentFlow | .invariantViolation => none
  | _ => some .terminal

/-- An answer after which the scan goes on with the next partition. -/
def ErrorClass.goesOn : ErrorClass → Bool
  | .retryable | .informational => true
  | .terminal | .cooperative | .bug => false

def EngineError.class : EngineError → ErrorClass
  | .executionNotActive .. => .retryable
  | .script code _ => code.class.getD .terminal
  | .parse _ | .transport => .terminal

def CapabilityRequirement.fromCsv (csv : String) : List String :=
  ((csv.toList.splitOn ',').filter fun t => !t.isEmpty).map String.ofList

structure CapabilitySet where
  tokens : List String

namespace CapabilitySet
variable (caps : CapabilitySet)

def csv : String := ",".intercalate (caps.tokens.insertionSort (· ≤ ·)).dedup

/-- The tokens the execution asks for. One without a hash asks for none. -/
def requirement (s : Store) : List String :=
  match s.core with
  | some c => CapabilityRequirement.fromCsv c.requiredCapabilities
  | none => []

def Matches (s : Store) : Prop := ∀ token ∈ requirement s, token ∈ caps.tokens

instance (s : Store) : Decidable (caps.Matches s) :=
  inferInstanceAs (Decidable (∀ token ∈ requirement s, token ∈ caps.tokens))

end CapabilitySet

structure ClaimPolicy where
  (workerId workerInstanceId : String)
  leaseTtlMs : Nat

/-- What the scan brings to one partition: the server's clock at its two scripts, and the fresh
ids of the lease and the attempt. -/
structure ClaimCall where
  (grantedAt claimedAt : Int)
  (leaseId attemptId : String)

def grantTtlMs : Int := 5000

namespace ClaimPolicy
variable (policy : ClaimPolicy)

def grantArgs (caps : CapabilitySet) (executionId : String) : GrantArgs where
  executionId
  workerId := policy.workerId
  workerInstanceId := policy.workerInstanceId
  grantTtlMs := .number FlowFabric.grantTtlMs
  workerCapabilitiesCsv := caps.csv

/-- The attempt's keys are derived from the count that was read before the call. -/
def claimArgs (call : ClaimCall) (executionId : String) (totalAttemptCount : Nat) : ClaimArgs where
  executionId
  workerId := policy.workerId
  workerInstanceId := policy.workerInstanceId
  leaseId := call.leaseId
  leaseTtlMs := .number policy.leaseTtlMs
  renewBeforeMs := .number (policy.leaseTtlMs * 2 / 3)
  attemptId := call.attemptId
  attemptPolicyJson := .doc (.obj [])
  keys := { attemptIndex := totalAttemptCount, workerInstanceId := policy.workerInstanceId }

end ClaimPolicy

def LanePartition.eligible (p : LanePartition) : List String := p.index .eligible

inductive ScanAnswer where
  | goOn
  | stop (result : Except EngineError HandleFields)

def ScanAnswer.ofError (error : EngineError) : ScanAnswer :=
  if error.class.goesOn then .goOn else .stop (.error error)

def parseBelow (bound : Nat) (message text : String) : Except EngineError Nat :=
  match text.toNat? with
  | some n => if n < bound then .ok n else .error (.parse message)
  | none => .error (.parse message)

section
variable (caps : CapabilitySet) (policy : ClaimPolicy) (call : ClaimCall)

def claimHandle (e : String) (fields : List String) : Except EngineError HandleFields := do
  let leaseEpoch ← parseBelow (2 ^ 64) "bad epoch" (fields.getD 1 "")
  let attemptIndex ← parseBelow (2 ^ 32) "bad attempt_index" (fields.getD 4 "")
  return ⟨e,attemptIndex,call.attemptId,call.leaseId,leaseEpoch,policy.workerInstanceId⟩

def claimGranted (e : String) (s : Store) : ScanAnswer × Store :=
  let count := (s.core.map ExecCore.totalAttemptCount).getD 0
  let r := commit s (claimExecution (policy.claimArgs call e count) call.claimedAt s)
  match r.1.intoSuccess >>= claimHandle policy call e with
  | .ok handle => (.stop (.ok handle),r.2)
  | .error error => (.ofError error,r.2)

/-- A grant that is refused with an unknown code lets the scan go on. -/
def grantAndClaim (e : String) (s : Store) : ScanAnswer × Store :=
  let r := commit s (issueClaimGrant (policy.grantArgs caps e) call.grantedAt s)
  match r.1 with
  | .err code _ =>
    match code.class with
    | some _ => (.ofError (.fromCodeWithDetail code ""),r.2)
    | none => (.goOn,r.2)
  | .raised => (.stop (.error .transport),r.2)
  | .ok _ | .alreadySatisfied _ | .duplicate _ => claimGranted policy call e r.2

/-- Only the first entry of the index is looked at. -/
def visitPartition (p : LanePartition) : ScanAnswer × LanePartition :=
  match p.eligible.head? with
  | none => (.goOn,p)
  | some e =>
    match ExecutionId.parse e with
    | none => (.stop (.error (.parse "bad execution_id in eligible set")),p)
    | some _ =>
      if caps.Matches (p.store e) then
        let r := grantAndClaim caps policy call e (p.store e)
        (r.1,p.put e r.2)
      else (.goOn,p)

end

def claimFrom (caps : CapabilitySet) (policy : ClaimPolicy) (calls : Nat → ClaimCall) :
    Nat → List LanePartition → Except EngineError (Option HandleFields) × List LanePartition
  | _,[] => (.ok none,[])
  | i,p :: ps =>
    match visitPartition caps policy (calls i) p with
    | (.goOn,p) =>
      let rest := claimFrom caps policy calls (i + 1) ps
      (rest.1,p :: rest.2)
    | (.stop (.ok handle),p) => (.ok (some handle),p :: ps)
    | (.stop (.error error),p) => (.error error,p :: ps)

def claimImpl (caps : CapabilitySet) (policy : ClaimPolicy) (calls : Nat → ClaimCall)
    (ps : List LanePartition) : Except EngineError (Option HandleFields) × List LanePartition :=
  claimFrom caps policy calls 0 ps

/-- The execution is there and no grant is issued for it now. -/
def RefusesGrant (s : Store) (c : ExecCore) (now : Int) : Prop :=
  c.lifecyclePhase ≠ .runnable ∨ c.eligibilityState ≠ .eligibleNow ∨ (s.grantAt now).isSome

/-- The execution has been granted and is not given out, without this being an error: a lease or an
outcome that its other fields deny, an attempt to be resumed, or a grant that has run out. -/
def RefusesClaim (c : ExecCore) (call : ClaimCall) : Prop :=
  c.ownershipState ≠ .unowned ∨ c.terminalOutcome ≠ .none ∨ c.attemptState ≠ .runningAttempt ∧
      (c.attemptState = .attemptInterrupted ∨ call.grantedAt + grantTtlMs < call.claimedAt)

section
variable {caps : CapabilitySet} {policy : ClaimPolicy} {call : ClaimCall} {e : String} {s : Store} {c : ExecCore}

private theorem parseBelow_refuses (bound : Nat) (message text : String) :
    Refuses (fun error : EngineError => error.class.goesOn = false) (parseBelow bound message text) := by
  unfold parseBelow
  split
  · split
    · exact refuses_ok _
    · exact (refuses_error _).mpr rfl
  · exact (refuses_error _).mpr rfl

theorem ofError_goesOn (error : EngineError) : ScanAnswer.ofError error = .goOn ↔ error.class.goesOn = true := by
  unfold ScanAnswer.ofError
  split <;> simp_all

variable {code : ErrorCode} {fields : List String}

theorem claimGranted_of_refused (hc : s.core = some c)
    (h : claimExecution (policy.claimArgs call e c.totalAttemptCount) call.claimedAt s = .error (.fail code)) :
    (claimGranted policy call e s).1 = .ofError (.fromCodeWithDetail code "") := by
  simp only [claimGranted,hc,map_some,getD_some,h]
  rfl

private theorem claimGranted_of_reply {t : Store} (hc : s.core = some c)
    (h : claimExecution (policy.claimArgs call e c.totalAttemptCount) call.claimedAt s = .ok (.ok fields,t)) :
    (claimGranted policy call e s).1 ≠ .goOn := by
  simp only [claimGranted,hc,map_some,getD_some,h,commit_ok,Reply.intoSuccess]
  cases hh : claimHandle policy call e fields with
  | ok => simp [bind,Except.bind,hh]
  | error error =>
    have hf : error.class.goesOn = false := (by simp [claimHandle,parseBelow_refuses] :
      Refuses (fun error => error.class.goesOn = false) (claimHandle policy call e fields)) error hh
    simp [bind,Except.bind,hh,ofError_goesOn,hf]

variable (policy call e) in
private theorem claimGranted_goesOn {g : Grant} (hc : s.core = some c) (hp : c.lifecyclePhase = .runnable)
    (he : c.eligibilityState = .eligibleNow) (hg : s.grant = some g) (hw : g.workerId = policy.workerId)
    (hx : g.grantExpiresAt = call.grantedAt + grantTtlMs) :
    (claimGranted policy call e s).1 = .goOn ↔ RefusesClaim c call := by
  obtain ⟨answer,whole⟩ : ∃ answer, claimExecution (policy.claimArgs call e c.totalAttemptCount) call.claimedAt s =
    answer := ⟨_,rfl⟩
  have run := whole.symm
  simp only [claimExecution,ClaimPolicy.claimArgs,requireNumber,hc,demand,bind,Except.bind,ensure_of hp,
    ensure_of he] at run
  unfold RefusesClaim
  by_cases hown : c.ownershipState = .unowned
  swap
  · rw [ensure_of_not hown] at run
    rw [claimGranted_of_refused hc (whole.trans run)]
    exact iff_of_true rfl (.inl hown)
  by_cases hterm : c.terminalOutcome = .none
  swap
  · rw [ensure_of hown,ensure_of_not hterm] at run
    rw [claimGranted_of_refused hc (whole.trans run)]
    exact iff_of_true rfl (.inr (.inl hterm))
  by_cases hrun : c.attemptState = .runningAttempt
  · rw [ensure_of hown,ensure_of hterm,ensure_of_not (not_not.mpr hrun)] at run
    rw [claimGranted_of_refused hc (whole.trans run),ofError_goesOn]
    simp [hown,hterm,hrun,EngineError.fromCodeWithDetail,EngineError.fromCodeWithDetails,EngineError.class,
      ErrorCode.class,ErrorClass.goesOn]
  by_cases hint : c.attemptState = .attemptInterrupted
  · rw [ensure_of hown,ensure_of hterm,ensure_of hrun,ensure_of_not (not_not.mpr hint)] at run
    rw [claimGranted_of_refused hc (whole.trans run)]
    exact iff_of_true rfl (.inr (.inr ⟨hrun,.inl hint⟩))
  rw [ensure_of hown,ensure_of hterm,ensure_of hrun,ensure_of hint] at run
  by_cases hnow : call.claimedAt ≤ call.grantedAt + grantTtlMs
  · have live : call.claimedAt ≤ g.grantExpiresAt := hx ▸ hnow
    simp only [Store.grantAt,hg,filter_some,decide_eq_true live,if_true,hw,ensure,if_pos live] at run
    refine iff_of_false (claimGranted_of_reply hc (whole.trans run)) ?_
    rintro (h | h | ⟨-,h | h⟩)
    · exact h hown
    · exact h hterm
    · exact hint h
    · omega
  · simp only [Store.grantAt,hg,filter_some,hx,hnow,decide_false,Bool.false_eq_true,if_false] at run
    rw [claimGranted_of_refused hc (whole.trans run)]
    exact iff_of_true rfl (.inr (.inr ⟨hrun,.inr (not_le.mp hnow)⟩))

theorem grantAndClaim_of_refused {details : List String} {k : ErrorClass} (hk : code.class = some k)
    (h : issueClaimGrant (policy.grantArgs caps e) call.grantedAt s = .error (.err code details)) :
    (grantAndClaim caps policy call e s).1 = .ofError (.fromCodeWithDetail code "") := by
  simp only [grantAndClaim,h,commit_error,hk]

private theorem grantAndClaim_goesOn_of_core (hc : s.core = some c) (hs : (s.zset .eligible).isSome) :
    (grantAndClaim caps policy call e s).1 = .goOn ↔ RefusesGrant s c call.grantedAt ∨
      matchCapabilities c caps.csv = .ok () ∧ RefusesClaim c call := by
  obtain ⟨answer,whole⟩ : ∃ answer, issueClaimGrant (policy.grantArgs caps e) call.grantedAt s = answer := ⟨_,rfl⟩
  have run := whole.symm
  simp only [issueClaimGrant,ClaimPolicy.grantArgs,requireNumber,hc,demand,bind,Except.bind,ensure_of hs] at run
  unfold RefusesGrant
  by_cases hp : c.lifecyclePhase = .runnable
  swap
  · rw [ensure_of_not hp] at run
    rw [grantAndClaim_of_refused rfl (whole.trans run)]
    exact iff_of_true rfl (.inl (.inl hp))
  by_cases he : c.eligibilityState = .eligibleNow
  swap
  · rw [ensure_of hp,ensure_of_not he] at run
    rw [grantAndClaim_of_refused rfl (whole.trans run)]
    exact iff_of_true rfl (.inl (.inr (.inl he)))
  by_cases hg : s.grantAt call.grantedAt = none
  swap
  · rw [ensure_of hp,ensure_of he,ensure_of_not hg] at run
    rw [grantAndClaim_of_refused rfl (whole.trans run)]
    exact iff_of_true rfl (.inl (.inr (.inr (isSome_iff_ne_none.mpr hg))))
  rw [ensure_of hp,ensure_of he,ensure_of hg] at run
  have asked : ¬ (c.lifecyclePhase ≠ .runnable ∨ c.eligibilityState ≠ .eligibleNow ∨
      (s.grantAt call.grantedAt).isSome) := by simp [hp,he,hg]
  cases hm : matchCapabilities c caps.csv with
  | error reply =>
    obtain ⟨code,details,rfl,hk⟩ := (by simp [matchCapabilities,parseCapabilityCsv,ErrorCode.class] :
      Refuses (fun reply => ∃ code details, reply = .err code details ∧ code.class = some .terminal)
        (matchCapabilities c caps.csv)) reply hm
    rw [hm] at run
    rw [grantAndClaim_of_refused hk (whole.trans run),ofError_goesOn]
    refine iff_of_false ?_ (by simp [asked])
    cases code <;> cases hk <;> decide
  | ok u =>
    rw [hm] at run
    rw [grantAndClaim,whole.trans run,or_iff_right asked]
    have later : call.grantedAt < call.grantedAt + grantTtlMs := by simp [grantTtlMs]
    have goes := claimGranted_goesOn policy call e (s := s.writeGrant
      ⟨policy.workerId,policy.workerInstanceId,call.grantedAt + grantTtlMs⟩ call.grantedAt)
      hc hp he (if_pos later) rfl rfl
    exact goes.trans (and_iff_right rfl).symm

theorem grantAndClaim_goesOn (hs : (s.zset .eligible).isSome) : (grantAndClaim caps policy call e s).1 = .goOn ↔
      ∃ c, s.core = some c ∧ (RefusesGrant s c call.grantedAt ∨
        matchCapabilities c caps.csv = .ok () ∧ RefusesClaim c call) := by
  cases hc : s.core with
  | none =>
    have run : issueClaimGrant (policy.grantArgs caps e) call.grantedAt s = .error (.fail .executionNotFound) := by
      simp only [issueClaimGrant,ClaimPolicy.grantArgs,requireNumber,hc]
      rfl
    rw [grantAndClaim_of_refused rfl run,ofError_goesOn]
    exact iff_of_false (by decide) (by simp)
  | some =>
    rw [grantAndClaim_goesOn_of_core hc hs]
    simp only [Option.some.injEq,exists_eq_left']

/-- The scan goes past the partition: nothing is listed there, or the first entry is out of the worker's
reach or is refused in a way that is no error. -/
def PassesOver (caps : CapabilitySet) (call : ClaimCall) (p : LanePartition) : Prop :=
  ∀ e, p.eligible.head? = some e → e ≠ "" ∧ (¬ caps.Matches (p.store e) ∨
    ∃ c, (p.store e).core = some c ∧ (RefusesGrant (p.store e) c call.grantedAt ∨
      matchCapabilities c caps.csv = .ok () ∧ RefusesClaim c call))

variable (caps policy)

theorem visitPartition_goesOn (call : ClaimCall) (p : LanePartition) :
    (visitPartition caps policy call p).1 = .goOn ↔ PassesOver caps call p := by
  unfold visitPartition PassesOver
  cases hh : p.eligible.head? with
  | none => simp
  | some e =>
    have listed : ((p.store e).zset .eligible).isSome := LanePartition.mem_index.mp (List.mem_of_mem_head? hh)
    simp only [ExecutionId.parse,Option.some.injEq,forall_eq']
    by_cases he : e = ""
    · simp [he]
    · rw [dif_pos he]
      by_cases hm : caps.Matches (p.store e)
      · simp [he,hm,grantAndClaim_goesOn listed]
      · simp [he,hm]

theorem claimFrom_none (calls : Nat → ClaimCall) (i : Nat) (ps : List LanePartition) :
    (claimFrom caps policy calls i ps).1 = .ok none ↔ ∀ j p, ps[j]? = some p → PassesOver caps (calls (i + j)) p := by
  induction ps generalizing i with
  | nil => simp [claimFrom]
  | cons p ps ih =>
    have here := visitPartition_goesOn caps policy (calls i) p
    have split : (∀ j q, (p :: ps)[j]? = some q → PassesOver caps (calls (i + j)) q) ↔
        PassesOver caps (calls i) p ∧ ∀ j q, ps[j]? = some q → PassesOver caps (calls (i + 1 + j)) q := by
      constructor
      · intro h
        refine ⟨h 0 p rfl,fun j q hq => ?_⟩
        have hj := h (j + 1) q hq
        rwa [show i + (j + 1) = i + 1 + j by omega] at hj
      · rintro ⟨h0,h⟩ j q hq
        cases j with
        | zero =>
          cases hq
          exact h0
        | succ j =>
          rw [show i + (j + 1) = i + 1 + j by omega]
          exact h j q hq
    rw [split,← here,claimFrom]
    cases visitPartition caps policy (calls i) p with
    | mk v =>
      cases v with
      | goOn => simp [ih]
      | stop result => cases result <;> simp

end

namespace Client

/-- An execution as it is created at the given time. -/
def job (executionId requiredCapabilities : String) (now : Int) : Store :=
  let a : CreateArgs := { executionId, priority := .number 0, schedulingZset := .eligible }
  createdStore a (newCore a 0 now requiredCapabilities) (run [])

def lanePartition : LanePartition := ⟨AList.insert "a" (job "a" "gpu" 0) (AList.insert "b" (job "b" "" 1) ∅)⟩

end Client

end FlowFabric
