import FlowFabric.Foundation.Run
import FlowFabric.Postgres.Operator

/-! The rows of one execution under the calls of workers, operators, flows and reconcilers. Every
call is one transaction. -/
namespace FlowFabric.Postgres
open Transaction

inductive WorkerOp where
  | renew
  | progress (percent : Option Nat) (message : Option String)
  | complete (payload : Option String)
  | fail (classification : FailureClass)
  | delay (delayUntil : Int)
  | waitChildren
  | suspend (a : SuspendArgs) (cached : Bool) (kid : Option String)
  | appendFrame (mode : StreamMode) (fields : String)

def WorkerOp.run (h : Handle) (now : Int) : WorkerOp → Rows → Transaction
  | .renew => Postgres.renew h now
  | .progress percent message => Postgres.progress h percent message
  | .complete payload => Postgres.complete h payload now
  | .fail classification => Postgres.fail h classification now
  | .delay delayUntil => Postgres.delay h delayUntil
  | .waitChildren => Postgres.waitChildren h
  | .suspend a cached kid => Postgres.suspend h a cached kid
  | .appendFrame mode fields => Postgres.appendFrame h mode fields now

inductive Op where
  | claim (p : ClaimPolicy)
  | claimExecution (a : ClaimExecutionArgs)
  | issueGrantAndClaim (leaseDurationMs : Nat) (attemptId : String)
  | claimFromResumeGrant (t : ResumeToken)
  | claimResumedExecution (t : ResumeToken)
  | reclaimExecution (a : ReclaimArgs)
  | worker (h : Handle) (op : WorkerOp)
  | claimForWorker (a : GrantRequest) (lane : String) (capabilities : List String) (budgetsAdmit : Bool)
  | issueReclaimGrant (a : GrantRequest)
  | renewLease (a : RenewLeaseArgs)
  | completeExecution (a : EndArgs) (payload : Option String)
  | failExecution (a : EndArgs) (maxRetries : Nat)
  | resumeExecution (resumeDelayMs : Nat)
  | deliver (key : String) (s : Signal)
  | expireSuspension
  | close (key : String)
  | cancel (reason : String)
  | cancelExecution (a : CancelExecutionArgs)
  | revokeLease (a : RevokeArgs)
  | changePriority (newPriority : Int)
  | replayExecution
  | joinFlow (flowId : Uuid)
  | cancelMember (policy : CancelFlowPolicy)
  | cancelHeader (reason : String)
  | unblock
  | skip (flowId : Uuid)
  | cancelSibling
  | releaseOne (attemptIndex : Nat)
  | expireAttempt (attemptIndex : Nat)
  | expireExecution
  | promoteDelayed

def Op.isClaim : Op → Bool
  | .claim _ | .claimExecution _ | .issueGrantAndClaim .. | .claimFromResumeGrant _
  | .claimResumedExecution _ | .reclaimExecution _ => true
  | _ => false

structure Call where
  op : Op
  now : Int

def writes (f : CoreRow → CoreRow) (r : Rows) : Transaction := .ok { reply := .done, rows := r.updateCore f }

/-- The write of a skipped execution, with an event for the flow unless it had ended before. -/
def skip (flowId : Uuid) (now : Int) (r : Rows) : Transaction :=
  .ok {
    reply := .done, rows := r.updateCore (.skipped now)
    events := if r.core.isEnded then [] else [⟨some flowId,.skipped,now,none,none⟩] }

def step (c : Call) : Rows → Transaction :=
  match c.op with
  | .claim p => claim p c.now
  | .claimExecution a => claimExecution a c.now
  | .issueGrantAndClaim leaseDurationMs attemptId => issueGrantAndClaim leaseDurationMs attemptId c.now
  | .claimFromResumeGrant t => claimFromResumeGrant t c.now
  | .claimResumedExecution t => claimResumedExecution t c.now
  | .reclaimExecution a => reclaimExecution a c.now
  | .worker h op => op.run h c.now
  | .claimForWorker a lane capabilities budgetsAdmit => claimForWorker a lane capabilities budgetsAdmit c.now
  | .issueReclaimGrant a => issueReclaimGrant a c.now
  | .renewLease a => renewLease a c.now
  | .completeExecution a payload => completeExecution a payload c.now
  | .failExecution a maxRetries => failExecution a maxRetries c.now
  | .resumeExecution resumeDelayMs => resumeExecution resumeDelayMs
  | .deliver key s => deliverUnder key s c.now
  | .expireSuspension => expireSuspension c.now
  | .close key => fun r => .ok { reply := .done, rows := closeUnder key c.now r }
  | .cancel reason => cancel reason c.now
  | .cancelExecution a => cancelExecution a c.now
  | .revokeLease a => revokeLease a c.now
  | .changePriority newPriority => changePriority newPriority c.now
  | .replayExecution => replayExecution c.now
  | .joinFlow flowId => writes fun core => { core with flowId := some flowId }
  | .cancelMember policy => cancelMember policy c.now
  | .cancelHeader reason => writes (.headerCancelled reason c.now)
  | .unblock => writes CoreRow.unblocked
  | .skip flowId => skip flowId c.now
  | .cancelSibling => writes (.siblingCancelled c.now)
  | .releaseOne i => releaseOne i c.now
  | .expireAttempt i => expireAttempt i c.now
  | .expireExecution => expireExecution c.now
  | .promoteDelayed => promoteDelayed c.now

def next (c : Call) (r : Rows) : Rows := (step c r).rows r

variable {r : Rows} {now : Int}

theorem next_of_error {c : Call} {e : EngineError} (h : step c r = .error e) : next c r = r := by rw [next,h,rows_error]

theorem next_of_ok {c : Call} {done : Committed} (h : step c r = .ok done) : next c r = done.rows := by
  rw [next,h,rows_ok]

structure Rows.Fresh (r : Rows) : Prop where
  runnable : r.core.lifecyclePhase = .runnable
  unowned : r.core.ownershipState = .unowned
  eligible : r.core.eligibilityState = .eligibleNow
  first : r.core.attemptIndex = 0
  noAttempts : r.attempts = ∅

open Rows

namespace Client

def waiting : CoreRow :=
  { lifecyclePhase := .runnable
    ownershipState := .unowned, eligibilityState := .eligibleNow, publicState := .waiting
    attemptState := .pendingFirstAttempt }

def fresh : Rows := { core := waiting }

theorem fresh_fresh : fresh.Fresh := ⟨rfl,rfl,rfl,rfl,rfl⟩

def alice : Worker := ⟨"alice","alice-1"⟩

def bob : Worker := ⟨"bob","bob-1"⟩

def claims (w : Worker) (now : Int) : Call := ⟨.claim { lane := "default", worker := w, leaseTtlMs := 10 },now⟩

def does (attemptIndex leaseEpoch : Nat) (op : WorkerOp) (now : Int) : Call :=
  ⟨.worker ⟨attemptIndex,leaseEpoch,10⟩ op,now⟩

end Client

/-! ### What a call can leave -/

inductive WorkerWrites (h : Handle) (now : Int) (r : Rows) : WorkerOp → Rows → Prop
  | renew (hf : r.fences h) : WorkerWrites h now r .renew
      (r.updateAttempt h.attemptIndex (.renewedTo (saturatingAdd now (ttlOrZero h.leaseTtlMs))))
  | progress (percent message) (hf : r.fences h) : WorkerWrites h now r (.progress percent message)
      (r.updateCore (.progressed percent message))
  | complete (payload) (hf : r.fences h) : WorkerWrites h now r (.complete payload)
      ((r.updateAttempt h.attemptIndex (.closed .success now)).updateCore fun c =>
        { c.ended now with result := payload })
  | retry (classification : FailureClass) (hf : r.fences h) (hc : classification.retryable = true)
      (hi : r.core.attemptIndex < i32Max) : WorkerWrites h now r (.fail classification)
      ((r.updateAttempt h.attemptIndex (.closed .retry now)).updateCore CoreRow.retried)
  | fail (classification : FailureClass) (hc : ¬ classification.retryable = true) (hf : r.fences h) :
      WorkerWrites h now r (.fail classification)
      ((r.updateAttempt h.attemptIndex (.closed .failed now)).updateCore (.ended now))
  | delay (delayUntil) (hf : r.fences h) : WorkerWrites h now r (.delay delayUntil)
      ((r.updateAttempt h.attemptIndex (.interrupted .interrupted)).updateCore fun c =>
        { c.requeued .notEligibleUntilTime .attemptInterrupted with deadlineAtMs := some delayUntil })
  | waitChildren (hf : r.fences h) : WorkerWrites h now r .waitChildren
      ((r.updateAttempt h.attemptIndex (.interrupted .waitingChildren)).updateCore fun c =>
        { c.requeued .blockedByDependencies .attemptInterrupted with
          blockingReason := some .waitingForChildren })
  | suspend (a cached kid) (hf : r.fences h) (hc : cached = false) (hk : a.signs kid = true) :
      WorkerWrites h now r (.suspend a cached kid) (r.suspendedBy h a)
  | appendFrame (mode fields) : WorkerWrites h now r (.appendFrame mode fields)
      { r with frames := r.frames ++ [⟨h.attemptIndex,now,fields⟩] }

open WorkerWrites

theorem WorkerWrites.of_fenced {h : Handle} {op : WorkerOp} {done : Rows → Committed}
    (hw : r.fences h → WorkerWrites h now r op (done r).rows) :
    (fenced h done r).rows r = r ∨ WorkerWrites h now r op ((fenced h done r).rows r) := by
  rw [fenced_rows]
  split
  · rename_i hf
    exact .inr (hw hf)
  · exact .inl rfl

theorem WorkerOp.run_rows (h : Handle) (now : Int) (op : WorkerOp) (r : Rows) :
    (op.run h now r).rows r = r ∨ WorkerWrites h now r op ((op.run h now r).rows r) := by
  cases op with
  | renew =>
    apply of_fenced
    exact .renew
  | progress percent message =>
    apply of_fenced
    exact .progress percent message
  | complete payload =>
    apply of_fenced
    exact .complete payload
  | fail classification =>
    rw [run,Postgres.fail]
    split
    · rename_i hc
      rw [failRetry_rows]
      split
      · rename_i hf
        exact .inr (.retry classification hf.1 hc hf.2)
      · exact .inl rfl
    · rename_i hc
      apply of_fenced
      exact .fail classification hc
  | delay delayUntil =>
    apply of_fenced
    exact .delay delayUntil
  | waitChildren =>
    apply of_fenced
    exact .waitChildren
  | suspend a cached kid =>
    rw [run,suspend_rows]
    split
    · rename_i hf
      exact .inr (.suspend a cached kid hf.2.1 hf.1 hf.2.2)
    · exact .inl rfl
  | appendFrame mode fields =>
    rw [run,appendFrame_rows]
    split
    · exact .inr (.appendFrame mode fields)
    · exact .inl rfl

/-- The writes of a call, each with what has been checked before it. -/
inductive Writes (now : Int) (r : Rows) : Op → Rows → Prop
  | claim (p : ClaimPolicy) (hc : r.core.claimable p.lane) : Writes now r (.claim p) (r.claimed p now)
  | claimExecution (a h) (hp : r.core.lifecyclePhase = .runnable) (he : r.core.eligibilityState = .eligibleNow)
      (hd : Postgres.claimExecution a now r = .ok { reply := .handle h, rows := r.claimedByName a now }) :
      Writes now r (.claimExecution a) (r.claimedByName a now)
  | resumeByOperator (leaseDurationMs attemptId) (ha : r.core.attemptState = .attemptInterrupted)
      (hr : r.current.isSome = true) : Writes now r (.issueGrantAndClaim leaseDurationMs attemptId)
      (r.reletCurrent operator (saturatingAdd now leaseDurationMs) now)
  | claimByOperator (leaseDurationMs attemptId h) (ha : r.core.attemptState ≠ .attemptInterrupted)
      (hp : r.core.lifecyclePhase = .runnable)
      (he : r.core.eligibilityState = .eligibleNow ∨ r.core.eligibilityState = .pendingClaim)
      (hd : Postgres.issueGrantAndClaim leaseDurationMs attemptId now r =
        .ok { reply := .handle h, rows := r.claimedByOperator leaseDurationMs attemptId now }) :
      Writes now r (.issueGrantAndClaim leaseDurationMs attemptId) (r.claimedByOperator leaseDurationMs attemptId now)
  | claimFromResumeGrant (t i) (hi : r.newestFree now = some i) :
      Writes now r (.claimFromResumeGrant t) (r.takenOver t i now)
  | claimResumedExecution (t : ResumeToken) (hp : r.core.publicState = .resumable)
      (hr : r.current.isSome = true) : Writes now r (.claimResumedExecution t)
      (r.reletCurrent t.worker (saturatingAdd now (ttlOrZero t.leaseTtlMs)) now)
  | reclaimCap (a g) (hn : ¬ r.core.isEnded) (hg : r.reclaimGrant = some g) :
      Writes now r (.reclaimExecution a) (r.reclaimCapped g now)
  | reclaim (a g h) (hn : ¬ r.core.isEnded) (hg : r.reclaimGrant = some g)
      (hi : r.attempt (r.core.attemptIndex + 1) = none)
      (hd : Postgres.reclaimExecution a now r = .ok { reply := .handle h, rows := r.reclaimed a g now }) :
      Writes now r (.reclaimExecution a) (r.reclaimed a g now)
  | worker {h op r'} (hw : WorkerWrites h now r op r') : Writes now r (.worker h op) r'
  | claimForWorker (a lane capabilities budgetsAdmit g) (hc : r.core.claimable lane) (hg : g.kind = .claim) :
      Writes now r (.claimForWorker a lane capabilities budgetsAdmit) (r.claimGranted g)
  | issueReclaimGrant (a g) (hr : r.reclaimable now) :
      Writes now r (.issueReclaimGrant a) { r with grants := r.grants ++ [g] }
  | renewLease (a : RenewLeaseArgs) (hp : r.core.lifecyclePhase = .active)
      (hl : ∃ row, r.attempt a.attemptIndex = some row ∧ row.live now = true) : Writes now r (.renewLease a)
      (r.updateAttempt a.attemptIndex (.renewedTo (saturatingAdd now a.leaseTtlMs)))
  | completeExecution (a payload) (hp : r.core.lifecyclePhase = .active) :
      Writes now r (.completeExecution a payload) (r.completedFor a payload now)
  | failedRetry (a maxRetries) (hp : r.core.lifecyclePhase = .active) :
      Writes now r (.failExecution a maxRetries) ((r.failedFor a now).updateCore CoreRow.backedOff)
  | failExecution (a maxRetries) (hp : r.core.lifecyclePhase = .active) :
      Writes now r (.failExecution a maxRetries) ((r.failedFor a now).updateCore (.failed now))
  | resumeExecution (resumeDelayMs) (hp : r.core.lifecyclePhase = .suspended) :
      Writes now r (.resumeExecution resumeDelayMs) (r.resumedAfter resumeDelayMs)
  | deliver (key s recorded) (hr : r.recorded key s = some recorded) :
      Writes now r (.deliver key s) (r.signalled recorded)
  | timeoutSignal (row) (hs : r.suspension = some row) (hd : row.due now = true) :
      Writes now r .expireSuspension { r with suspension := some (row.timedOut now) }
  | expireSuspension (row) (hs : r.suspension = some row) (hd : row.due now = true)
      (hb : row.timeoutBehavior ≠ .autoResumeWithTimeoutSignal) :
      Writes now r .expireSuspension (r.endedByTimeout row.timeoutBehavior now)
  | close (key) : Writes now r (.close key) (closeUnder key now r)
  | cancel (reason) (hp : r.core.lifecyclePhase ≠ .terminal) :
      Writes now r (.cancel reason) (r.cancelledByWorker reason now)
  | cancelExecution (a) (hn : ¬ r.core.isEnded) : Writes now r (.cancelExecution a) (r.cancelledBy a now)
  | revokeLease (a) : Writes now r (.revokeLease a) (r.revoked now)
  | changePriority (newPriority) (hp : r.core.lifecyclePhase = .runnable)
      (he : r.core.eligibilityState = .eligibleNow) : Writes now r (.changePriority newPriority)
      (r.updateCore fun c => { c.mutatedAt now with priority := max 0 (min newPriority 9000) })
  | replayExecution (hp : r.core.lifecyclePhase = .terminal) : Writes now r .replayExecution (r.replayed now)
  | joinFlow (flowId) : Writes now r (.joinFlow flowId) (r.updateCore fun core => { core with flowId := some flowId })
  | cancelMember (policy : CancelFlowPolicy) (hp : policy.selects r.core.lifecyclePhase = true) :
      Writes now r (.cancelMember policy) (r.cancelledMember now)
  | cancelHeader (reason) (hn : ¬ r.core.isEnded) : Writes now r (.cancelHeader reason)
      (r.updateCore (.headerCancelled reason now))
  | unblock (hn : ¬ r.core.isEnded) : Writes now r .unblock (r.updateCore CoreRow.unblocked)
  | skip (flowId) (hn : ¬ r.core.isEnded) : Writes now r (.skip flowId) (r.updateCore (.skipped now))
  | cancelSibling (hn : ¬ r.core.isEnded) : Writes now r .cancelSibling (r.updateCore (.siblingCancelled now))
  | releaseOne (i) (ho : r.overdue i now = true) : Writes now r (.releaseOne i) (r.releasedOne i)
  | retryAttempt (i) (hp : r.core.lifecyclePhase = .active) (ho : r.overdue i now = true) :
      Writes now r (.expireAttempt i) (r.retriedAfter i now)
  | expireAttempt (i) (hp : r.core.lifecyclePhase = .active) (ho : r.overdue i now = true) :
      Writes now r (.expireAttempt i) (r.expiredAt i now)
  | expireExecution (hp : r.core.lifecyclePhase = .active) :
      Writes now r .expireExecution (r.expiredAt r.core.attemptIndex now)
  | promoteDelayed (hp : r.core.lifecyclePhase = .runnable) (he : r.core.eligibilityState = .notEligibleUntilTime) :
      Writes now r .promoteDelayed (r.updateCore CoreRow.promoted)

section
variable {now : Int} {r r' new : Rows} {op : Op}

variable {f : CoreRow → CoreRow}

theorem writes_of_guard {p : Prop} [Decidable p] (h : r' = if p then new else r) (hw : p → Writes now r op new) :
    r' = r ∨ Writes now r op r' := by
  by_cases hp : p
  · rw [if_pos hp] at h
    exact .inr (h ▸ hw hp)
  · rw [if_neg hp] at h
    exact .inl h

private theorem writes_of_ok {t : Transaction} (hw : ∀ done, t = .ok done → Writes now r op done.rows) :
    t.rows r = r ∨ Writes now r op (t.rows r) := by
  cases t with
  | ok done => exact .inr (hw done rfl)
  | error => exact .inl rfl

theorem writes_unless_ended (hf : r.core.isEnded → f r.core = r.core)
    (hw : ¬ r.core.isEnded → Writes now r op (r.updateCore f)) :
    r.updateCore f = r ∨ Writes now r op (r.updateCore f) := by
  by_cases hn : r.core.isEnded
  · exact .inl (by rw [updateCore,hf hn])
  · exact .inr (hw hn)

end

theorem next_writes (c : Call) (r : Rows) : next c r = r ∨ Writes c.now r c.op (next c r) := by
  obtain ⟨op,now⟩ := c
  unfold next step
  cases op with
  | claim p => exact writes_of_guard (claim_rows p now r) fun h => .claim p h.1
  | claimExecution a =>
    refine writes_of_ok fun done hs => ?_
    obtain ⟨hp,he,rfl⟩ := claimExecution_ok hs
    exact .claimExecution a _ hp he hs
  | issueGrantAndClaim leaseDurationMs attemptId =>
    by_cases ha : r.core.attemptState = .attemptInterrupted
    · refine writes_of_guard (issueGrantAndClaim_interrupted ha leaseDurationMs attemptId now) fun hr => ?_
      exact .resumeByOperator _ attemptId ha hr
    · refine writes_of_ok fun done hs => ?_
      obtain ⟨hp,he,rfl⟩ := issueGrantAndClaim_fresh ha hs
      exact .claimByOperator _ _ _ ha hp he hs
  | claimFromResumeGrant t =>
    rw [claimFromResumeGrant_rows]
    cases hi : r.newestFree now with
    | none => exact .inl rfl
    | some i => exact .inr (.claimFromResumeGrant t i hi)
  | claimResumedExecution t =>
    exact writes_of_guard (claimResumedExecution_rows t now r) fun h => .claimResumedExecution t h.1 h.2
  | reclaimExecution a =>
    dsimp only
    cases hs : reclaimExecution a now r with
    | error => exact .inl rfl
    | ok =>
      rw [rows_ok]
      rcases reclaimExecution_ok hs with ⟨h,-⟩ | ⟨hn,g,hg,⟨h,-⟩ | ⟨hi,rfl⟩⟩
      · exact .inl h
      · exact .inr (h ▸ .reclaimCap a g hn hg)
      · exact .inr (.reclaim a g _ hn hg hi hs)
  | worker h op => exact (op.run_rows h now r).imp id .worker
  | claimForWorker a lane capabilities budgetsAdmit =>
    rcases claimForWorker_rows a lane capabilities budgetsAdmit now r with h | ⟨hc,g,hg,h⟩
    · exact .inl h
    · exact .inr (h ▸ .claimForWorker a lane capabilities budgetsAdmit g hc hg)
  | issueReclaimGrant a =>
    rcases issueReclaimGrant_rows a now r with h | ⟨hr,g,h⟩
    · exact .inl h
    · exact .inr (h ▸ .issueReclaimGrant a g hr)
  | renewLease a =>
    rcases renewLease_rows a now r with h | ⟨hp,hl,h⟩
    · exact .inl h
    · exact .inr (h ▸ .renewLease a hp hl)
  | completeExecution a payload =>
    rcases completeExecution_rows a payload now r with h | ⟨hp,h⟩
    · exact .inl h
    · exact .inr (h ▸ .completeExecution a payload hp)
  | failExecution a maxRetries =>
    rcases failExecution_rows a maxRetries now r with h | ⟨hp,h | h⟩
    · exact .inl h
    · exact .inr (h ▸ .failedRetry a maxRetries hp)
    · exact .inr (h ▸ .failExecution a maxRetries hp)
  | resumeExecution resumeDelayMs =>
    rcases resumeExecution_rows resumeDelayMs r with h | ⟨hp,h⟩
    · exact .inl h
    · exact .inr (h ▸ .resumeExecution resumeDelayMs hp)
  | deliver key s =>
    rw [deliverUnder_rows]
    cases hr : r.recorded key s with
    | none => exact .inl rfl
    | some recorded => exact .inr (.deliver key s recorded hr)
  | expireSuspension =>
    rcases expireSuspension_rows now r with h | ⟨row,hs,hd,⟨-,h⟩ | ⟨hb,h⟩⟩
    · exact .inl h
    · exact .inr (h ▸ .timeoutSignal row hs hd)
    · exact .inr (h ▸ .expireSuspension row hs hd hb)
  | close key => exact .inr (.close key)
  | cancel reason =>
    rw [cancel_rows]
    split
    · exact .inl rfl
    · rename_i hp
      exact .inr (.cancel reason hp)
  | cancelExecution a =>
    rcases cancelExecution_rows a now r with h | ⟨hn,h⟩
    · exact .inl h
    · exact .inr (h ▸ .cancelExecution a hn)
  | revokeLease a =>
    rcases revokeLease_rows a now r with h | h
    · exact .inl h
    · exact .inr (h ▸ .revokeLease a)
  | changePriority newPriority =>
    exact writes_of_guard (changePriority_rows newPriority now r) fun h => .changePriority newPriority h.1 h.2
  | replayExecution => exact writes_of_guard (replayExecution_rows now r) fun hp => .replayExecution hp
  | joinFlow flowId => exact .inr (.joinFlow flowId)
  | cancelMember policy => exact writes_of_guard (cancelMember_rows policy now r) fun hp => .cancelMember policy hp
  | cancelHeader reason => exact writes_unless_ended (fun h => if_pos h) fun hn => .cancelHeader reason hn
  | unblock => exact writes_unless_ended (fun h => if_pos h) fun hn => .unblock hn
  | skip flowId => exact writes_unless_ended (fun h => if_pos h) fun hn => .skip flowId hn
  | cancelSibling => exact writes_unless_ended (fun h => if_pos h) fun hn => .cancelSibling hn
  | releaseOne i => exact writes_of_guard (releaseOne_rows i now r) fun ho => .releaseOne i ho
  | expireAttempt i =>
    rcases expireAttempt_rows i now r with h | ⟨hp,ho,h | h⟩
    · exact .inl h
    · exact .inr (h ▸ .retryAttempt i hp ho)
    · exact .inr (h ▸ .expireAttempt i hp ho)
  | expireExecution => exact writes_of_guard (expireExecution_rows now r) fun h => .expireExecution h.1
  | promoteDelayed =>
    rcases promoteDelayed_rows now r with h | ⟨hp,he,h⟩
    · exact .inl h
    · exact .inr (h ▸ .promoteDelayed hp he)

theorem next_of_writes {P : Rows → Prop} {c : Call} (same : P r) (writes : ∀ r', Writes c.now r c.op r' → P r') :
    P (next c r) := by
  rcases next_writes c r with h | h
  · rw [h]
    exact same
  · exact writes _ h

/-! ### Columns that few calls write -/

/-- The calls that write deadline_at_ms. -/
def Op.setsDeadline : Op → Bool
  | .claimExecution _ | .worker _ (.delay _) | .promoteDelayed => true
  | _ => false

def CoreRow.SameTerms (c c' : CoreRow) : Prop := c'.maxRetries = c.maxRetries ∧ c'.deadlineAtMs = c.deadlineAtMs

/-- What the call leaves as it is. -/
def CoreRow.Kept (op : Op) (c c' : CoreRow) : Prop :=
  c'.maxRetries = c.maxRetries ∧ c'.requiredCapabilities = c.requiredCapabilities ∧
    (op.setsDeadline = false → c'.deadlineAtMs = c.deadlineAtMs) ∧ ((∀ f, op ≠ .joinFlow f) → c'.flowId = c.flowId)

variable {r' : Rows} {op : Op}

theorem CoreRow.Kept.rfl {c : CoreRow} : c.Kept op c := ⟨Eq.refl _,Eq.refl _,fun _ => Eq.refl _,fun _ => Eq.refl _⟩

theorem CoreRow.freed_kept (c : CoreRow) : c.Kept op c.freed := by
  rw [freed]
  split <;> exact Kept.rfl

open CoreRow in
theorem Writes.kept (hw : Writes now r op r') : r.core.Kept op r'.core := by
  cases hw with
  | worker hw =>
    cases hw with
    | delay => exact ⟨rfl,rfl,nofun,fun _ => rfl⟩
    | _ => exact Kept.rfl
  | claimExecution | promoteDelayed => exact ⟨rfl,rfl,nofun,fun _ => rfl⟩
  | joinFlow f => exact ⟨rfl,rfl,fun _ => rfl,fun other => absurd rfl (other f)⟩
  | resumeExecution =>
    rw [resumedAfter]
    split <;> exact Kept.rfl
  | deliver =>
    rw [signalled]
    split <;> exact Kept.rfl
  | cancelExecution =>
    rw [Rows.cancelledBy]
    split <;> exact Kept.rfl
  | revokeLease =>
    rw [revoked,updateCore]
    split
    · exact r.core.freed_kept
    · exact Kept.rfl
  | releaseOne => exact r.core.freed_kept
  | cancelHeader reason hn =>
    rw [updateCore,headerCancelled,if_neg hn]
    exact Kept.rfl
  | unblock hn =>
    rw [updateCore,unblocked,if_neg hn]
    exact Kept.rfl
  | skip flowId hn =>
    rw [updateCore,skipped,if_neg hn]
    exact Kept.rfl
  | cancelSibling hn =>
    rw [updateCore,siblingCancelled,if_neg hn]
    exact Kept.rfl
  | _ => exact Kept.rfl

theorem Writes.sameTerms (hw : Writes now r op r') (ho : op.setsDeadline = false) : r.core.SameTerms r'.core :=
  ⟨hw.kept.1,hw.kept.2.2.1 ho⟩

end FlowFabric.Postgres
