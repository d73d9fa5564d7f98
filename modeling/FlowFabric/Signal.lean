import FlowFabric.Suspension

/-! Signal delivery: ff_deliver_signal and ff_buffer_signal_for_pending_waitpoint. -/
namespace FlowFabric
open Foundation SignalEffect

structure SignalArgs where
  (executionId waitpointId : String)
  signal : Signal
  idempotencyKey : String := ""
  dedupTtlMs : Int := 86400000
  resumeDelayMs : Int := 0
  signalMaxlen : Nat := 1000
  maxSignals : Int := 10000
  waitpointToken : String
  /-- How many of the entries over the length the server is ready to drop. -/
  trimmed : Nat := 0

/-- The waitpoint, once the token is known to be bound to it. -/
def authenticate (a : SignalArgs) (missing : Reply) (now : Int) (s : Store) : Except Reply Waitpoint := do
  let p ← demand (s.wait.waitpoint a.waitpointId) missing
  let createdAt ← demand p.createdAt missing
  validateWaitpointToken s.secrets a.waitpointToken a.waitpointId p.waitpointKey createdAt now
  return p

def SignalArgs.deduplicated (a : SignalArgs) : Prop := a.idempotencyKey ≠ "" ∧ 0 < a.dedupTtlMs

instance (a : SignalArgs) : Decidable a.deduplicated := inferInstanceAs (Decidable (_ ∧ _))

/-- The signal an earlier delivery with the same idempotency key recorded. -/
def duplicateOf (a : SignalArgs) (now : Int) (w : WaitKeys) : Option String :=
  if a.deduplicated then
    ((w.signalIdem a.waitpointId a.idempotencyKey).filter fun e => decide (now ≤ e.2)).map (·.1)
  else none

/-- Zero or less is no limit. -/
def withinSignalLimit (a : SignalArgs) (w : WaitKeys) : Prop :=
  a.maxSignals ≤ 0 ∨ (w.execSignals.card : Int) < a.maxSignals

instance (a : SignalArgs) (w : WaitKeys) : Decidable (withinSignalLimit a w) := inferInstanceAs (Decidable (_ ∨ _))

/-- XADD with MAXLEN ~. Of the entries over the length the oldest are dropped, as many as the server sees fit. -/
def SignalArgs.appended (a : SignalArgs) (stream : List Signal) : List Signal :=
  (stream ++ [a.signal]).drop (min a.trimmed (stream.length + 1 - a.signalMaxlen))

@[simps suspension waitpoint condition satisfiedSet satisfierSignals memberMap suspendDedup]
def WaitKeys.recordSignal (w : WaitKeys) (a : SignalArgs) (now : Int) : WaitKeys :=
  { w with
    signalIdem := fun id key =>
      if a.deduplicated ∧ id = a.waitpointId ∧ key = a.idempotencyKey then
        some (a.signal.signalId,now + a.dedupTtlMs)
      else w.signalIdem id key
    signals := fun id => if id = a.waitpointId then a.appended (w.signals id) else w.signals id
    execSignals := insert a.signal.signalId w.execSignals }

/-- What a satisfied condition closes: itself, its waitpoint and the suspension record,
whichever suspension that is. -/
def WaitKeys.closeSatisfied (w : WaitKeys) (waitpointId : String) (now : Int) : WaitKeys :=
  ((w.closeCondition waitpointId).closeWaitpoint waitpointId).closeSuspension now "resumed"

def Store.resumeSuspended (s : Store) (c : ExecCore) (delayMs now : Int) : Store :=
  if c.lifecyclePhase = .suspended then (s.setCore (c.resumed delayMs)).indexResumed c delayMs now else s

@[simp] theorem resumeSuspended_wait (s : Store) (c : ExecCore) (delayMs now : Int) :
    (s.resumeSuspended c delayMs now).wait = s.wait := by
  unfold Store.resumeSuspended
  split <;> rfl

@[simp] theorem resumeSuspended_secrets (s : Store) (c : ExecCore) (delayMs now : Int) :
    (s.resumeSuspended c delayMs now).secrets = s.secrets := by
  unfold Store.resumeSuspended
  split <;> rfl

/-- The resume of a plain condition. Other waitpoints of the suspension stay open. -/
def plainResume (a : SignalArgs) (c : ExecCore) (now : Int) (s : Store) : Store :=
  let s := s.resumeSuspended c a.resumeDelayMs now
  (s.setWait (s.wait.closeSatisfied a.waitpointId now)).zrem .suspensionTimeout

/-- The resume of a composite condition. The additional waitpoints are closed; the first
one is only when the signal came in on it. -/
def compositeResume (a : SignalArgs) (c : ExecCore) (now : Int) (s : Store) : Store :=
  let s := s.resumeSuspended c a.resumeDelayMs now
  let w := (s.wait.closeSatisfied a.waitpointId now).compositeCleanup
  (s.setWait (w.closeExisting w.additionalIds)).zrem .suspensionTimeout

def deliverComposite (a : SignalArgs) (c : ExecCore) (p : Waitpoint) (cond : Condition) (now : Int)
    (s : Store) : Reply × Store :=
  let result := compositeDeliverSignal cond.tree s.wait.satisfiedSet a.waitpointId p.waitpointKey a.signal
  let s := s.setWait (s.wait.setSatisfied result.2 (result.1.satisfiers a.signal.signalId
    s.wait.satisfierSignals))
  (.ok [a.signal.signalId,result.1.text],if result.1 = .resumeConditionSatisfied then compositeResume a c now s else s)

@[simps] def Condition.fill (cond : Condition) (matchers : List MatcherSlot) : Condition :=
  { cond with matchers, satisfiedCount := cond.satisfiedCount + 1 }

def deliverPlain (a : SignalArgs) (c : ExecCore) (cond : Condition) (now : Int) (s : Store) : Reply × Store :=
  match fillMatcher a.signal.signalName a.signal.signalId cond.matchers with
  | none => (.ok [a.signal.signalId,noOp.text],s)
  | some matchers =>
    let s := s.setWait (s.wait.setCondition a.waitpointId (cond.fill matchers))
    match isConditionSatisfied (cond.fill matchers) with
    | none => (.raised,s)
    | some true => (.ok [a.signal.signalId,resumeConditionSatisfied.text],plainResume a c now s)
    | some false => (.ok [a.signal.signalId,appendedToWaitpoint.text],s)

/-- While the execution is suspended the state of the waitpoint is not looked at: the
condition of the waitpoint decides whether it still takes signals. -/
def deliverSignal (a : SignalArgs) (now : Int) (s : Store) : Outcome := do
  let c ← demand s.core (.fail .executionNotFound)
  let p ← authenticate a (.fail .invalidToken) now s
  ensure (c.lifecyclePhase ≠ .terminal) (.fail .targetNotSignalable)
  ensure (c.lifecyclePhase = .suspended ∨ p.state ≠ .pending) (.fail .waitpointPendingUseBufferScript)
  ensure (c.lifecyclePhase = .suspended ∨ p.state = .active) (.fail .targetNotSignalable)
  let cond ← demand (s.wait.condition a.waitpointId) (.fail .waitpointNotFound)
  ensure (cond.closed = false) (.fail .waitpointClosed)
  ensure (withinSignalLimit a s.wait) (.fail .signalLimitExceeded)
  match duplicateOf a now s.wait with
  | some existing => return (.duplicate [existing],s)
  | none =>
    let s := s.setWait (s.wait.recordSignal a now)
    return if cond.composite then deliverComposite a c p cond now s else deliverPlain a c cond now s

/-- A buffered signal is only recorded. -/
def bufferSignalForPendingWaitpoint (a : SignalArgs) (now : Int) (s : Store) : Outcome := do
  let _ ← demand s.core (.fail .executionNotFound)
  let p ← authenticate a (.fail .waitpointNotFound) now s
  ensure (p.state ≠ .closed ∧ p.state ≠ .expired) (.fail .waitpointClosed)
  ensure (withinSignalLimit a s.wait) (.fail .signalLimitExceeded)
  match duplicateOf a now s.wait with
  | some existing => return (.duplicate [existing],s)
  | none => return (.ok [a.signal.signalId,bufferedForPendingWaitpoint.text],s.setWait (s.wait.recordSignal a now))

structure Deliverable (a : SignalArgs) (now : Int) (s : Store) (c : ExecCore) (p : Waitpoint)
    (cond : Condition) : Prop where
  core : s.core = some c
  authentic : authenticate a (.fail .invalidToken) now s = .ok p
  notTerminal : c.lifecyclePhase ≠ .terminal
  signalable : c.lifecyclePhase = .suspended ∨ p.state = .active
  condition : s.wait.condition a.waitpointId = some cond
  open_ : cond.closed = false

variable {a : SignalArgs} {cond : Condition} {reply : Reply} {s t : Store} {p : Waitpoint} {c : ExecCore}

theorem authenticate_waitpoint {missing : Reply} {now : Int}
    (h : authenticate a missing now s = .ok p) : s.wait.waitpoint a.waitpointId = some p := by
  simp only [authenticate,bind_ok,demand_ok,pure_ok] at h
  obtain ⟨q,hq,_,-,_,-,rfl⟩ := h
  exact hq

theorem deliverSignal_ok {now : Int} (h : deliverSignal a now s = .ok (reply,t)) :
    (t = s ∧ ∃ existing, reply = .duplicate [existing]) ∨ ∃ c p cond, Deliverable a now s c p cond ∧
      (reply,t) = if cond.composite then
          deliverComposite a c p cond now (s.setWait (s.wait.recordSignal a now))
        else deliverPlain a c cond now (s.setWait (s.wait.recordSignal a now)) := by
  simp only [deliverSignal,bind_ok,demand_ok,ensure_ok] at h
  obtain ⟨c,hc,p,hp,_,h1,_,-,_,h2,cond,hcond,_,h3,_,-,h⟩ := h
  split at h
  · cases h; exact .inl ⟨rfl,_,rfl⟩
  · rw [pure_ok] at h
    exact .inr ⟨c,p,cond,⟨hc,hp,h1,h2,hcond,h3⟩,h.symm⟩

/-- What a signal changes before anything is closed: the condition of its waitpoint and,
for a composite condition, the satisfiers. -/
structure Collects (a : SignalArgs) (cond : Condition) (w w' : WaitKeys) : Prop where
  suspension : w'.suspension = w.suspension
  waitpoint : w'.waitpoint = w.waitpoint
  condition : ∃ updated : Condition, updated.closed = cond.closed ∧ updated.composite = cond.composite ∧
    ∀ id, w'.condition id = if id = a.waitpointId then some updated else w.condition id
  satisfiedSet : cond.composite = false → w'.satisfiedSet = w.satisfiedSet
  satisfierSignals : cond.composite = false → w'.satisfierSignals = w.satisfierSignals
  memberMap : w'.memberMap = w.memberMap

theorem recordSignal_collects {now : Int} {w : WaitKeys}
    (h : w.condition a.waitpointId = some cond) : Collects a cond w (w.recordSignal a now) := by
  refine ⟨rfl,rfl,⟨cond,rfl,rfl,fun id => ?_⟩,fun _ => rfl,fun _ => rfl,rfl⟩
  split
  · rename_i hid
    rw [hid]; exact h
  · rfl

private theorem fill_collects {w : WaitKeys} (now : Int) (matchers : List MatcherSlot) :
    Collects a cond w ((w.recordSignal a now).setCondition a.waitpointId (cond.fill matchers)) :=
  ⟨rfl,rfl,⟨cond.fill matchers,rfl,rfl,fun _ => rfl⟩,fun _ => rfl,fun _ => rfl,rfl⟩

theorem text_eq_satisfied (effect : SignalEffect) :
    effect.text = resumeConditionSatisfied.text ↔ effect = .resumeConditionSatisfied := by
  cases effect <;> simp [text]

def SignalArgs.satisfiedReply (a : SignalArgs) : Reply := .ok [a.signal.signalId,resumeConditionSatisfied.text]

theorem deliverPlain_eq {now : Int} (hcond : s.wait.condition a.waitpointId = some cond)
    (h : (reply,t) = deliverPlain a c cond now (s.setWait (s.wait.recordSignal a now))) :
    ∃ w, Collects a cond s.wait w ∧ ((reply ≠ a.satisfiedReply ∧ t = s.setWait w) ∨
      (reply = a.satisfiedReply ∧ t = plainResume a c now (s.setWait w))) := by
  unfold deliverPlain at h
  split at h
  · cases h
    exact ⟨_,recordSignal_collects hcond,.inl ⟨by simp [SignalArgs.satisfiedReply,text],rfl⟩⟩
  · rename_i matchers _
    refine ⟨_,fill_collects now matchers,?_⟩
    split at h <;> cases h
    · exact .inl ⟨by simp [SignalArgs.satisfiedReply],rfl⟩
    · exact .inr ⟨rfl,rfl⟩
    · exact .inl ⟨by simp [SignalArgs.satisfiedReply,text],rfl⟩

theorem deliverComposite_eq {now : Int} (hcond : s.wait.condition a.waitpointId = some cond) (hco : cond.composite)
    (h : (reply,t) = deliverComposite a c p cond now (s.setWait (s.wait.recordSignal a now))) :
    ∃ w, Collects a cond s.wait w ∧ ((reply ≠ a.satisfiedReply ∧ t = s.setWait w) ∨
      (reply = a.satisfiedReply ∧ t = compositeResume a c now (s.setWait w))) := by
  have collects (tokens signalIds : Finset String) :
      Collects a cond s.wait ((s.wait.recordSignal a now).setSatisfied tokens signalIds) := by
    have h := @recordSignal_collects a cond now s.wait hcond
    exact ⟨h.suspension,h.waitpoint,h.condition,fun hn => by simp [hn] at hco,
      fun hn => by simp [hn] at hco,h.memberMap⟩
  injection h with hr ht
  subst hr ht
  split
  · rename_i he
    exact ⟨_,collects _ _,.inr ⟨by rw [he]; rfl,rfl⟩⟩
  · rename_i he
    exact ⟨_,collects _ _,.inl ⟨by simpa [SignalArgs.satisfiedReply,text_eq_satisfied] using he,rfl⟩⟩

theorem bufferSignalForPendingWaitpoint_ok {now : Int} (h : bufferSignalForPendingWaitpoint a now s = .ok (reply,t)) :
    t = s ∨ t = s.setWait (s.wait.recordSignal a now) := by
  simp only [bufferSignalForPendingWaitpoint,bind_ok,demand_ok,ensure_ok] at h
  obtain ⟨_,-,p,-,_,-,_,-,h⟩ := h
  split at h <;> cases h
  · exact .inl rfl
  · exact .inr rfl

end FlowFabric
