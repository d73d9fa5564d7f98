import FlowFabric.Postgres.TypedOps

/-! Suspending, delivering signals and resuming, as far as the rows of the execution go. The
waitpoints are in a table of their own. -/
namespace FlowFabric.Postgres
open Foundation Transaction Option

structure SuspendArgs where
  suspensionId : Uuid
  waitpoints : List WaitpointBinding
  condition : ResumeCondition
  timeoutAt : Option Int := none
  timeoutBehavior : TimeoutBehavior := .fail
  idempotencyKey : Option String := none

/-- The rows of a suspended execution. Its attempt gives the lease up under a new epoch, the handle
that comes back is still of the old one. -/
def Rows.suspendedBy (h : Handle) (a : SuspendArgs) (r : Rows) : Rows :=
  let released := r.updateAttempt h.attemptIndex fun row =>
    { row with
      workerId := none, workerInstanceId := none, leaseExpiresAtMs := none, leaseEpoch := row.leaseEpoch + 1
      outcome := some .attemptInterrupted }
  { released with
    core := { r.core with
      lifecyclePhase := .suspended, ownershipState := .released, eligibilityState := .notApplicable
      publicState := .suspended, attemptState := .attemptInterrupted }
    suspension := some ⟨a.suspensionId,a.timeoutAt,a.condition,fun _ => none,a.timeoutBehavior⟩ }

/-- There is a key to sign with, and a waitpoint to sign for. -/
def SuspendArgs.signs (a : SuspendArgs) (kid : Option String) : Bool := kid.isSome && !a.waitpoints.isEmpty

/-- A call whose idempotency key is on record is answered from the record. A fence that fails is
tried again until the budget of retries is used up. The outcome is made of the first waitpoint. -/
def suspend (h : Handle) (a : SuspendArgs) (cached : Bool) (kid : Option String) (r : Rows) : Transaction :=
  if cached = true then .ok { reply := .cached, rows := r }
  else do
    let row ← demand (r.attempt h.attemptIndex) (.notFound "attempt")
    ensure (row.leaseEpoch = h.leaseEpoch) (.contention .retryExhausted)
    let _ ← demand kid (.invalidInput "ff_waitpoint_hmac empty — rotate a kid before suspend")
    ensure (a.waitpoints ≠ []) .panicked
    return { reply := .suspended h, rows := r.suspendedBy h a }

theorem suspend_rows (h : Handle) (a : SuspendArgs) (cached : Bool) (kid : Option String) (r : Rows) :
    (suspend h a cached kid r).rows r =
      if cached = false ∧ r.fences h ∧ a.signs kid = true then r.suspendedBy h a else r := by
  unfold suspend
  cases cached with
  | true => simp
  | false =>
    simp only [Bool.false_eq_true,if_false,rows_demand,rows_ensure,rows_pure,true_and,Rows.fences,ite_and]
    cases r.attempt h.attemptIndex with
    | none => simp
    | some =>
      simp only [map_some,getD_some,Option.some.injEq,SuspendArgs.signs]
      cases kid <;> simp

/-! ### Signals -/

def MemberEntry.signal? : MemberEntry → Option Signal
  | .signal s => some s
  | .timeout _ => none

/-- The signals of a slot. What is no array has none. -/
def MemberSlot.signals : MemberSlot → List Signal
  | .array entries => entries.filterMap MemberEntry.signal?
  | .neverCommitted _ => []

def signalsByWp (memberMap : String → Option MemberSlot) : SignalsByWaitpoint :=
  fun key => ((memberMap key).map MemberSlot.signals).getD []

def slotEntries (memberMap : String → Option MemberSlot) (key : String) : Except EngineError (List MemberEntry) :=
  match memberMap key with
  | none => .ok []
  | some (.array entries) => .ok entries
  | some (.neverCommitted _) => .error (.corruption "member_map[wp_key] not a JSON array")

variable (key : String)

def SuspensionRow.record (s : Signal) (row : SuspensionRow) : Except EngineError SuspensionRow := do
  let entries ← slotEntries row.memberMap key
  return { row with
    memberMap := Function.update row.memberMap key (some (.array (entries ++ [.signal s]))) }

def SuspensionRow.satisfied (row : SuspensionRow) : Bool := evaluate (signalsByWp row.memberMap) row.condition

/-- A satisfied condition makes the execution resumable in whatever phase it is. The suspension row
stays. -/
def CoreRow.resumed (c : CoreRow) : CoreRow :=
  { c with publicState := .resumable, lifecyclePhase := .runnable, eligibilityState := .eligibleNow }

def Rows.signalled (recorded : SuspensionRow) (r : Rows) : Rows :=
  { r with
    suspension := some recorded, core := if recorded.satisfied = true then r.core.resumed else r.core }

def deliverUnder (s : Signal) (now : Int) (r : Rows) : Transaction := do
  let row ← demand r.suspension (.notFound "suspension")
  let recorded ← row.record key s
  if recorded.satisfied = true then
    return {
      reply := .accepted .resumeConditionSatisfied, rows := r.signalled recorded
      events := [⟨none,.resumable,now,none,none⟩] }
  else return { reply := .accepted .appendedToWaitpoint, rows := r.signalled recorded }

def Rows.recorded (s : Signal) (r : Rows) : Option SuspensionRow :=
  r.suspension.bind fun row => (row.record key s).toOption

theorem deliverUnder_rows (s : Signal) (now : Int) (r : Rows) :
    (deliverUnder key s now r).rows r = ((r.recorded key s).map r.signalled).getD r := by
  rw [deliverUnder,rows_demand,Rows.recorded]
  cases r.suspension with
  | none => rfl
  | some row =>
    rw [map_some,getD_some,bind_some]
    cases row.record key s with
    | error => rfl
    | ok recorded =>
      change rows r (if recorded.satisfied = true then _ else _) = _
      split <;> rfl

/-- The public state is all that is looked at. -/
def claimResumedExecution (t : ResumeToken) (now : Int) (r : Rows) : Transaction := do
  ensure (r.core.publicState = .resumable) (.contention .notAResumedExecution)
  reletting t.worker t.leaseTtlMs (saturatingAdd now (ttlOrZero t.leaseTtlMs)) now r

theorem claimResumedExecution_rows (t : ResumeToken) (now : Int) (r : Rows) : (claimResumedExecution t now r).rows r =
      if r.core.publicState = .resumable ∧ r.current.isSome = true then
        r.reletCurrent t.worker (saturatingAdd now (ttlOrZero t.leaseTtlMs)) now
      else r := by
  rw [claimResumedExecution,rows_ensure,reletting_rows,ite_and]

/-! ### Reconcilers -/

variable (now : Int)

/-- The entry of a timeout goes into a slot that is an array, and is dropped otherwise. -/
def pushTimeout (memberMap : String → Option MemberSlot) : String → Option MemberSlot :=
  match memberMap "__timeout__" with
  | none => Function.update memberMap "__timeout__" (some (.array [.timeout now]))
  | some (.array entries) => Function.update memberMap "__timeout__" (some (.array (entries ++ [.timeout now])))
  | some (.neverCommitted _) => memberMap

def timeoutReason : TimeoutBehavior → String
  | .cancel => "suspension_timeout_cancel"
  | .expire => "suspension_timeout_expire"
  | .escalate => "suspension_timeout_escalate"
  | .fail | .autoResume | .autoResumeWithTimeoutSignal | .unset => "suspension_timeout_fail"

def SuspensionRow.due (row : SuspensionRow) (now : Int) : Bool := row.timeoutAtMs.any (· < now)

def SuspensionRow.timedOut (row : SuspensionRow) : SuspensionRow :=
  { row with memberMap := pushTimeout now row.memberMap, timeoutAtMs := none }

def Rows.endedByTimeout (behavior : TimeoutBehavior) (now : Int) (r : Rows) : Rows :=
  { r with
    core := { r.core.ended now with cancellationReason := some (timeoutReason behavior) }, suspension := none }

/-- The suspension row and its time are all that is looked at. -/
def expireSuspension (r : Rows) : Transaction :=
  match r.suspension with
  | none => .ok { reply := .nothing, rows := r }
  | some row =>
    if row.due now = true then
      if row.timeoutBehavior = .autoResumeWithTimeoutSignal then
        .ok { reply := .done, rows := { r with suspension := some (row.timedOut now) } }
      else
        .ok {
          reply := .done, rows := r.endedByTimeout row.timeoutBehavior now
          events := [r.completion (if row.timeoutBehavior = .cancel then .cancelled else .expired) now] }
    else .ok { reply := .nothing, rows := r }

theorem expireSuspension_rows (r : Rows) : (expireSuspension now r).rows r = r ∨
      ∃ row, r.suspension = some row ∧ row.due now = true ∧ (row.timeoutBehavior = .autoResumeWithTimeoutSignal ∧
            (expireSuspension now r).rows r = { r with suspension := some (row.timedOut now) } ∨
          row.timeoutBehavior ≠ .autoResumeWithTimeoutSignal ∧
            (expireSuspension now r).rows r = r.endedByTimeout row.timeoutBehavior now) := by
  unfold expireSuspension
  cases hs : r.suspension with
  | none => exact .inl rfl
  | some row =>
    dsimp only
    split
    · rename_i hd
      refine .inr ⟨row,rfl,hd,?_⟩
      split
      · rename_i hb
        exact .inl ⟨hb,rfl⟩
      · rename_i hb
        exact .inr ⟨hb,rfl⟩
    · exact .inl rfl

theorem expireSuspension_ends {now : Int} {r : Rows} {row : SuspensionRow} (hs : r.suspension = some row)
    (hd : row.due now = true) (hb : row.timeoutBehavior ≠ .autoResumeWithTimeoutSignal) :
    (expireSuspension now r).rows r = r.endedByTimeout row.timeoutBehavior now := by
  rw [expireSuspension,hs]
  dsimp only
  rw [if_pos hd,if_neg hb,rows_ok]

/-- The marker of a closed waitpoint goes under its key, whatever is there. -/
def SuspensionRow.closedUnder (row : SuspensionRow) : SuspensionRow :=
  { row with memberMap := Function.update row.memberMap key (some (.neverCommitted now)) }

def closeUnder (r : Rows) : Rows :=
  { r with suspension := r.suspension.map (.closedUnder key now) }

end FlowFabric.Postgres
