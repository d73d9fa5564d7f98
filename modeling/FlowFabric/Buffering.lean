import FlowFabric.Tracking
import FlowFabric.Waitpoints

/-! Signals that come in before their suspension. A plain condition sees them when the waitpoint
is activated, as if they had come in afterwards; a composite one never does. -/
namespace FlowFabric
open Foundation WaitKeys List Store

def Sent.bufferCall (i : Sent) : Call := ⟨i.1,.bufferSignal i.2⟩

def bufferAll (s : Store) (is : List Sent) : Store := runFrom (fun i s => next i.bufferCall s) s is

/-- Some signals are buffered, the suspension is activated, and the others are delivered. -/
def splitRun (a : SuspendArgs) (now : Int) (early late : List Sent) (s : Store) : Store :=
  sendAll (next ⟨now,.suspend a⟩ (bufferAll s early)) late

/-- The suspension is carried out. It is not a repeated request, and a plain condition is not
written over what is left of a composite one. -/
structure Activates (condition : ResumeCondition) (a : SuspendArgs) (now : Int) (s : Store) : Prop where
  new : suspendReplay a now s.wait = none
  accepted : (step ⟨now,.suspend a⟩ s).1.isError = false
  unmarked : condition.isComposite = false → (s.wait.condition a.waitpointId).all (!·.composite)

def ResumeCondition.takes (condition : ResumeCondition) (signal : Signal) : Bool :=
  condition.names.any fun name => decide (name = "" ∨ name = signal.signalName)

variable {condition : ResumeCondition} {a : SuspendArgs} {now : Int} {w w' : WaitKeys} {s t u : Store}
  {p : Waitpoint} {i : Sent} {id : String} {cond : Condition} {g : SignalArgs}

theorem takes_of_composite (h : condition.isComposite) (signal : Signal) : condition.takes signal = false := by
  cases condition with
  | allOf | count => rfl
  | _ => cases h

/-- The stored condition has taken no signal yet. -/
structure Waits (condition : ResumeCondition) (cond : Condition) : Prop where
  matchers : cond.matchers = condition.names.map fun name => { name }
  empty : isConditionSatisfied cond = some false
  one : condition.isComposite = false → ∀ matchers : List MatcherSlot, matchers.length = 1 →
    isConditionSatisfied (cond.fill matchers) = some true

theorem initializeCondition_waits (condition : ResumeCondition) :
    ∃ cond, initializeCondition (resumeConditionToJson condition) = some cond ∧
      cond.composite = condition.isComposite ∧ cond.closed = false ∧ Waits condition cond := by
  cases condition with
  | single key matcher =>
    cases matcher
    · exact ⟨_,rfl,rfl,rfl,rfl,rfl,fun _ _ _ => rfl⟩
    · exact ⟨_,rfl,rfl,rfl,rfl,rfl,fun _ _ _ => rfl⟩
  | operatorOnly | timeoutOnly => exact ⟨_,rfl,rfl,rfl,rfl,rfl,fun _ _ h => by simp [isConditionSatisfied,h]⟩
  | allOf | count => exact ⟨_,rfl,rfl,rfl,rfl,rfl,nofun⟩

theorem Waits.fill (h : Waits condition cond) (signal : Signal) :
    (condition.takes signal = false ∧ fillMatcher signal.signalName signal.signalId cond.matchers = none) ∨
      (condition.takes signal ∧ ∃ matchers,
        fillMatcher signal.signalName signal.signalId cond.matchers = some matchers ∧
          isConditionSatisfied (cond.fill matchers) = some true ∧
          ∀ next : Signal, fillMatcher next.signalName next.signalId matchers = none) := by
  cases hc : condition.isComposite with
  | true =>
    refine .inl ⟨takes_of_composite hc signal,?_⟩
    rw [h.matchers]
    cases condition with
    | allOf | count => rfl
    | _ => cases hc
  | false =>
    obtain ⟨name,hn⟩ : ∃ name, condition.names = [name] := by
      cases condition with
      | single key matcher => cases matcher <;> exact ⟨_,rfl⟩
      | operatorOnly | timeoutOnly => exact ⟨_,rfl⟩
      | allOf | count => cases hc
    have hm : cond.matchers = [{ name }] := by rw [h.matchers,hn]; rfl
    by_cases ht : name = "" ∨ name = signal.signalName
    · refine .inr ⟨by simp [ResumeCondition.takes,hn,ht],_,by rw [hm,fillMatcher,if_pos ⟨rfl,ht⟩],
        h.one hc _ rfl,fun next => rfl⟩
    · refine .inl ⟨by simpa [ResumeCondition.takes,hn] using ht,?_⟩
      rw [hm,fillMatcher,if_neg fun hf => ht hf.2]
      rfl

private theorem replayBuffered_full (h : ∀ next : Signal, fillMatcher next.signalName next.signalId cond.matchers = none)
    (buffered : List Signal) : replayBuffered cond buffered = cond := by
  induction buffered with
  | nil => rfl
  | cons signal rest ih =>
    have hs : evaluateSignalAgainstCondition cond signal.signalName signal.signalId = cond := by
      rw [evaluateSignalAgainstCondition,h signal]
    rw [replayBuffered,foldl_cons,hs]
    exact ih

theorem Waits.replay (h : Waits condition cond) (buffered : List Signal) :
    (buffered.any condition.takes = false ∧ replayBuffered cond buffered = cond) ∨
      (buffered.any condition.takes ∧ isConditionSatisfied (replayBuffered cond buffered) = some true) := by
  induction buffered with
  | nil => exact .inl ⟨rfl,rfl⟩
  | cons signal rest =>
    rcases h.fill signal with ⟨ht,hf⟩ | ⟨ht,matchers,hf,hs,hfull⟩
    · have he : evaluateSignalAgainstCondition cond signal.signalName signal.signalId = cond := by
        rw [evaluateSignalAgainstCondition,hf]
      rwa [any_cons,ht,Bool.false_or,replayBuffered,foldl_cons,he]
    · refine .inr ⟨by rw [any_cons,ht,Bool.true_or],?_⟩
      have he : evaluateSignalAgainstCondition cond signal.signalName signal.signalId = cond.fill matchers := by
        rw [evaluateSignalAgainstCondition,hf]
        rfl
      rw [replayBuffered,foldl_cons,he]
      exact (congrArg isConditionSatisfied (replayBuffered_full hfull rest)).trans hs

/-- The signal gets past every check that does not depend on the suspension. -/
def Sent.Admitted (i : Sent) (s : Store) : Prop :=
  (∃ p, authenticate i.2 (.fail .invalidToken) i.1 s = .ok p) ∧ withinSignalLimit i.2 s.wait ∧
    duplicateOf i.2 i.1 s.wait = none

theorem authenticate_ok {missing : Reply} :
    authenticate g missing now s = .ok p ↔ s.wait.waitpoint g.waitpointId = some p ∧ ∃ createdAt,
      p.createdAt = some createdAt ∧
        validateWaitpointToken s.secrets g.waitpointToken g.waitpointId p.waitpointKey createdAt now = .ok () := by
  simp only [authenticate,bind_ok,demand_ok,pure_ok]
  constructor
  · rintro ⟨q,hq,createdAt,hc,_,hv,rfl⟩
    exact ⟨hq,createdAt,hc,hv⟩
  · rintro ⟨hq,createdAt,hc,hv⟩
    exact ⟨p,hq,createdAt,hc,(),hv,rfl⟩

def Sent.recorded (i : Sent) (s : Store) : Store := s.setWait (s.wait.recordSignal i.2 i.1)

private theorem buffer_cases (hc : s.core.isSome) (hp : s.wait.waitpoint i.2.waitpointId = some p)
    (hs : p.state = .pending) : (i.Admitted s ∧ next i.bufferCall s = i.recorded s) ∨
      (¬ i.Admitted s ∧ next i.bufferCall s = s) := by
  obtain ⟨c,hc⟩ := Option.isSome_iff_exists.mp hc
  by_cases ha : i.Admitted s
  · left
    refine ⟨ha,?_⟩
    obtain ⟨⟨q,hq⟩,hl,hd⟩ := ha
    cases (authenticate_waitpoint hq).symm.trans hp
    have ho : bufferSignalForPendingWaitpoint i.2 i.1 s =
        .ok (.ok [i.2.signal.signalId,SignalEffect.bufferedForPendingWaitpoint.text],i.recorded s) := by
      simp only [bufferSignalForPendingWaitpoint,bind_ok,demand_ok,ensure_ok]
      refine ⟨c,hc,p,authenticate_ok.mpr (authenticate_ok.mp hq),(),by simp [hs],(),hl,?_⟩
      rw [hd]
      rfl
    exact congrArg (fun x => (commit s x).2) ho
  · right
    refine ⟨ha,?_⟩
    rcases step_cases i.bufferCall s with ⟨-,hn⟩ | ho
    · exact hn
    · simp only [Op.outcome,Sent.bufferCall,bufferSignalForPendingWaitpoint,bind_ok,demand_ok,ensure_ok] at ho
      obtain ⟨_,-,q,hq,_,-,_,hl,ho⟩ := ho
      split at ho
      · exact (congrArg Prod.snd (Except.ok.inj ho)).symm
      · rename_i hd
        exact (ha ⟨⟨q,authenticate_ok.mpr (authenticate_ok.mp hq)⟩,hl,hd⟩).elim

/-- The execution waits for the condition on the waitpoint, and no signal has been taken. -/
structure Waiting (condition : ResumeCondition) (id : String) (s : Store) : Prop where
  suspended : s.isSuspended
  stored : ∃ cond, s.wait.condition id = some cond ∧ cond.closed = false ∧ cond.composite = false ∧ Waits condition cond

private theorem core_of_isSuspended (h : s.isSuspended) : ∃ c, s.core = some c ∧ c.lifecyclePhase = .suspended := by
  cases hc : s.core with
  | none => simp [isSuspended,hc] at h
  | some c => exact ⟨c,rfl,by simpa [isSuspended,hc] using h⟩

variable {c : ExecCore} {is : List Sent}

theorem resumeSuspended_awake (hc : s.core = some c) (delayMs now : Int) :
    (s.resumeSuspended c delayMs now).isSuspended = false := by
  unfold resumeSuspended
  split
  · rfl
  · rename_i hp
    simpa [isSuspended,hc] using hp

theorem plainResume_awake (hc : s.core = some c) (now : Int) : (plainResume g c now s).isSuspended = false :=
  resumeSuspended_awake hc g.resumeDelayMs now

theorem Waiting.deliver (h : Waiting condition i.2.waitpointId s) : (¬ i.Admitted s ∧ next i.call s = s) ∨
      (i.Admitted s ∧ condition.takes i.2.signal ∧ (next i.call s).isSuspended = false) ∨
      (i.Admitted s ∧ condition.takes i.2.signal = false ∧ next i.call s = i.recorded s) := by
  obtain ⟨c,hc,hphase⟩ := core_of_isSuspended h.suspended
  obtain ⟨cond,hcond,hopen,hplain,hwaits⟩ := h.stored
  by_cases ha : i.Admitted s
  · right
    have ⟨⟨p,hp⟩,hl,hd⟩ := ha
    have ho : deliverSignal i.2 i.1 s = .ok (deliverPlain i.2 c cond i.1 (i.recorded s)) := by
      simp only [deliverSignal,bind_ok,demand_ok,ensure_ok]
      refine ⟨c,hc,p,hp,(),by simp [hphase],(),.inl hphase,(),.inl hphase,cond,hcond,(),hopen,(),hl,?_⟩
      rw [hd]
      simp [hplain,Sent.recorded,pure,Except.pure]
    have hn : next i.call s = (deliverPlain i.2 c cond i.1 (i.recorded s)).2 := congrArg (fun x => (commit s x).2) ho
    rw [hn]
    rcases hwaits.fill i.2.signal with ⟨ht,hf⟩ | ⟨ht,matchers,hf,hs,-⟩
    · refine .inr ⟨ha,ht,?_⟩
      rw [deliverPlain,hf]
    · refine .inl ⟨ha,ht,?_⟩
      simp only [deliverPlain,hf,hs]
      apply plainResume_awake
      exact hc
  · refine .inl ⟨ha,?_⟩
    rcases step_cases i.call s with ⟨-,hn⟩ | ho
    · exact hn
    · simp only [Op.outcome,Sent.call,deliverSignal,bind_ok,demand_ok,ensure_ok] at ho
      obtain ⟨_,-,p,hp,_,-,_,-,_,-,_,-,_,-,_,hl,ho⟩ := ho
      split at ho
      · exact (congrArg Prod.snd (Except.ok.inj ho)).symm
      · rename_i hd
        exact (ha ⟨⟨p,hp⟩,hl,hd⟩).elim

/-- What the admission of signals on the waitpoint looks at is the same. -/
structure Alike (id : String) (s t : Store) : Prop where
  secrets : t.secrets = s.secrets
  waitpoint : ∃ p q, s.wait.waitpoint id = some p ∧ t.wait.waitpoint id = some q ∧
    q.waitpointKey = p.waitpointKey ∧ q.createdAt = p.createdAt
  signalIdem : t.wait.signalIdem = s.wait.signalIdem
  execSignals : t.wait.execSignals = s.wait.execSignals

theorem Alike.admitted (h : Alike i.2.waitpointId s t) : i.Admitted t ↔ i.Admitted s := by
  obtain ⟨p,q,hp,hq,hkey,hcreated⟩ := h.waitpoint
  have hauth : (∃ p, authenticate i.2 (.fail .invalidToken) i.1 t = .ok p) ↔
      ∃ p, authenticate i.2 (.fail .invalidToken) i.1 s = .ok p := by
    simp [authenticate_ok,hp,hq,hkey,hcreated,h.secrets]
  simp only [Sent.Admitted,hauth,withinSignalLimit,duplicateOf,h.execSignals,h.signalIdem]

theorem Alike.recorded (h : Alike id s t) (i : Sent) : Alike id (i.recorded s) (i.recorded t) := by
  refine ⟨h.secrets,h.waitpoint,?_,?_⟩
  · simp [Sent.recorded,recordSignal,h.signalIdem]
  · simp [Sent.recorded,recordSignal,h.execSignals]

theorem Waiting.recorded (h : Waiting condition id s) (i : Sent) : Waiting condition id (i.recorded s) :=
  ⟨h.suspended,h.stored⟩

private theorem deliver_awake (h : s.isSuspended = false) (i : Sent) : (next i.call s).isSuspended = false := by
  rcases i.cases_step s with ⟨-,-,hn⟩ | ⟨c,p,cond,hd,hs⟩
  · rwa [hn]
  · have hs' : ((step i.call s).1,next i.call s) = step i.call s := rfl
    rw [hs] at hs'
    split at hs'
    · rename_i hc
      obtain ⟨w,-,⟨-,ht⟩ | ⟨-,ht⟩⟩ := deliverComposite_eq hd.condition hc hs'
      · rw [ht]
        exact h
      · rw [ht]
        exact resumeSuspended_awake (s := s.setWait w) hd.core i.2.resumeDelayMs i.1
    · obtain ⟨w,-,⟨-,ht⟩ | ⟨-,ht⟩⟩ := deliverPlain_eq hd.condition hs'
      · rw [ht]
        exact h
      · rw [ht]
        exact plainResume_awake (s := s.setWait w) hd.core _

theorem sendAll_awake (h : s.isSuspended = false) (is : List Sent) : (sendAll s is).isSuspended = false :=
  runFrom_invariant (I := fun s : Store => s.isSuspended = false) (fun _ i hs => deliver_awake hs i) h is

private theorem sendAll_alike (hs : Waiting condition id s) (ht : Waiting condition id t) (h : Alike id s t)
    (hi : ∀ i ∈ is, i.2.waitpointId = id) : (sendAll s is).isSuspended = (sendAll t is).isSuspended := by
  induction is generalizing s t with
  | nil => exact hs.suspended.trans ht.suspended.symm
  | cons i is ih =>
    have hid := hi i (by simp)
    have hrest : ∀ j ∈ is, j.2.waitpointId = id := fun j hj => hi j (by simp [hj])
    subst hid
    have hadm := h.admitted
    rcases hs.deliver with ⟨ha,hn⟩ | ⟨ha,htake,hn⟩ | ⟨ha,htake,hn⟩ <;>
      rcases ht.deliver with ⟨ha',hn'⟩ | ⟨ha',htake',hn'⟩ | ⟨ha',htake',hn'⟩
    all_goals first
      | exact (ha' (hadm.mpr ha)).elim
      | exact (ha (hadm.mp ha')).elim
      | (rw [htake] at htake'; cases htake')
      | skip
    · rw [sendAll,sendAll,runFrom,runFrom,hn,hn']
      exact ih hs ht h hrest
    · exact (sendAll_awake hn is).trans (sendAll_awake hn' is).symm
    · rw [sendAll,sendAll,runFrom,runFrom,hn,hn']
      exact ih (hs.recorded i) (ht.recorded i) (h.recorded i) hrest

/-- The waitpoint keys after the activation of a waitpoint whose condition is not satisfied. -/
def WaitKeys.activate (w : WaitKeys) (a : SuspendArgs) (p : Waitpoint) (cond : Condition) : WaitKeys :=
  (w.setWaitpoint a.waitpointId
    { p with suspensionId := a.suspensionId, state := .active, expiresAt := a.timeoutAt }).setCondition
    a.waitpointId (writeConditionHash (w.condition a.waitpointId) cond)

theorem activatePending_eq (hp : w.waitpoint a.waitpointId = some p) (hq : PendingFor a now p)
    (hi : initializeCondition a.resumeCondition = some cond) (hw : Waits condition cond) :
    ∃ w', activatePending a now w = .ok (⟨p.waitpointKey,p.waitpointToken,[],
        (w.signals a.waitpointId).any condition.takes⟩,w') ∧
      ((w.signals a.waitpointId).any condition.takes = false → w' = w.activate a p cond) := by
  have evaluated (satisfied : Bool) (he : (w.signals a.waitpointId).isEmpty → satisfied = false)
      (hs : (w.signals a.waitpointId).isEmpty = false →
        isConditionSatisfied (replayBuffered cond (w.signals a.waitpointId)) = some satisfied) :
      ∃ w', activatePending a now w = .ok (⟨p.waitpointKey,p.waitpointToken,[],satisfied⟩,w') ∧
        (satisfied = false → w' = w.activate a p (replayBuffered cond (w.signals a.waitpointId))) := by
    simp only [activatePending,bind_ok,demand_ok,ensure_ok]
    cases hemp : (w.signals a.waitpointId).isEmpty with
    | true =>
      cases he hemp
      refine ⟨_,⟨p,hp,(),hq.state,(),hq.execution,(),hq.attempt,(),hq.lasting,(),hq.token,cond,hi,?_⟩,fun _ => rfl⟩
      simp only [setWaitpoint_signals,hemp,if_true,pure_bind]
      rfl
    | false =>
      refine ⟨?_,⟨p,hp,(),hq.state,(),hq.execution,(),hq.attempt,(),hq.lasting,(),hq.token,cond,hi,?_⟩,?_⟩
      rotate_left
      · simp only [setWaitpoint_signals,hemp,hs hemp,demand]
        rfl
      · rintro rfl
        rfl
  rcases hw.replay (w.signals a.waitpointId) with ⟨ht,hr⟩ | ⟨ht,hr⟩
  · rw [ht]
    obtain ⟨w',ha,hw'⟩ := evaluated false (fun _ => rfl) fun _ => by rw [hr,hw.empty]
    exact ⟨w',ha,fun _ => by rw [hw' rfl,hr]⟩
  · rw [ht]
    obtain ⟨w',ha,-⟩ := evaluated true (fun he => by simp [isEmpty_iff.mp he] at ht) fun _ => hr
    refine ⟨w',ha,?_⟩
    intro hf
    cases hf

/-- The keys of the store that decide whether a suspension is carried out are the same. -/
structure LeasedAlike (s t : Store) : Prop where
  core : t.core = s.core
  suspension : t.wait.suspension = s.wait.suspension
  suspendDedup : t.wait.suspendDedup = s.wait.suspendDedup

theorem LeasedAlike.suspendReplay (h : LeasedAlike s t) (a : SuspendArgs) (now : Int) :
    suspendReplay a now t.wait = suspendReplay a now s.wait := by
  simp only [FlowFabric.suspendReplay,outcomeAt,h.suspendDedup]

theorem Activates.lease (h : Activates condition a now s) : ∃ c, s.core = some c ∧
    c.lifecyclePhase = .active ∧ ∀ t, LeasedAlike s t → step ⟨now,.suspend a⟩ t = suspendUnderLease a c now t := by
  rcases step_cases ⟨now,.suspend a⟩ s with ⟨he,-⟩ | ho
  · simp [h.accepted] at he
  · rcases suspendExecution_ok ho with ⟨hr,-⟩ | ⟨c,hc,-,⟨-,hr,-⟩ | ⟨reached,-⟩⟩
    · simp [h.new] at hr
    · have hacc := h.accepted
      rw [hr] at hacc
      cases hacc
    · refine ⟨c,hc,reached.held.active,fun t ht => ?_⟩
      have closed : t.wait.suspensionOpen = false := by
        rw [← reached.closed,suspensionOpen,ht.suspension]
        rfl
      have reached' : a.Reaches c now t := ⟨reached.bindings,(ht.suspendReplay a now).trans reached.new,
        ht.core.trans hc,reached.presented,reached.held,reached.attempt,closed⟩
      rw [step,Op.outcome,reached'.outcome]
      rfl

theorem suspendUnderLease_untaken (hu : a.usePendingWaitpoint) (hx : a.extras = [])
    (hp : s.wait.waitpoint a.waitpointId = some p) (hq : PendingFor a now p)
    (hi : initializeCondition a.resumeCondition = some cond) (hw : Waits condition cond)
    (ht : (s.wait.signals a.waitpointId).any condition.takes = false) : ∃ b : Binding, suspendUnderLease a c now s =
      (.ok (b.fields a),suspendCommit a c b (s.wait.delSuspension.activate a p cond) now s) := by
  obtain ⟨w',ha,hw'⟩ := activatePending_eq (w := s.wait.delSuspension) hp hq hi hw
  have ht' : (s.wait.delSuspension.signals a.waitpointId).any condition.takes = false := ht
  rw [ht'] at ha hw'
  cases hw' rfl
  have hb : bindWaitpoints a s.secrets now s.wait.delSuspension =
      .ok (⟨p.waitpointKey,p.waitpointToken,[],false⟩,s.wait.delSuspension.activate a p cond) := by
    simp [bindWaitpoints,hu,ha,hx,ensure,bind,Except.bind,pure,Except.pure]
  exact ⟨_,by rw [suspendUnderLease,hb]; rfl⟩

theorem Activates.activated (h : Activates condition a now s) (hu : a.usePendingWaitpoint)
    (hi : initializeCondition a.resumeCondition = some cond) (hw : Waits condition cond) :
    ((s.wait.signals a.waitpointId).any condition.takes ∧ (next ⟨now,.suspend a⟩ s).isSuspended = false) ∨
      ((s.wait.signals a.waitpointId).any condition.takes = false ∧ a.extras = [] ∧ ∃ c b p,
        s.wait.waitpoint a.waitpointId = some p ∧ PendingFor a now p ∧
          next ⟨now,.suspend a⟩ s = suspendCommit a c b (s.wait.delSuspension.activate a p cond) now s) := by
  obtain ⟨c,hc,hactive,hlease⟩ := h.lease
  have hstep := hlease s ⟨rfl,rfl,rfl⟩
  have hacc := h.accepted
  rw [hstep] at hacc
  cases hb : bindWaitpoints a s.secrets now s.wait.delSuspension with
  | error =>
    rw [suspendUnderLease,hb] at hacc
    exact absurd (bindWaitpoints_guarded _ _ hb) (by simp [hacc])
  | ok =>
    have hbound := hb
    simp only [bindWaitpoints,hu,if_true,bind_ok,ensure_ok,pure_ok] at hbound
    obtain ⟨⟨b,w'⟩,ha,_,hx,rfl⟩ := hbound
    obtain ⟨p,hp,hq⟩ : ∃ p, s.wait.delSuspension.waitpoint a.waitpointId = some p ∧ PendingFor a now p := by
      simp only [activatePending,bind_ok,demand_ok,ensure_ok] at ha
      obtain ⟨p,hp,_,h1,_,h2,_,h3,_,h4,_,h5,-⟩ := ha
      exact ⟨p,hp,h1,h2,h3,h4,h5⟩
    obtain ⟨v,ha',-⟩ := activatePending_eq hp hq hi hw
    cases ha.symm.trans ha'
    cases ht : (s.wait.delSuspension.signals a.waitpointId).any condition.takes with
    | true =>
      refine .inl ⟨ht,?_⟩
      rw [next,hstep,suspendUnderLease,hb]
      dsimp only
      rw [if_pos ht]
      simp [isSuspended,hc,hactive]
    | false =>
      rw [ht] at hx
      refine .inr ⟨ht,by simpa using hx,c,?_⟩
      obtain ⟨b,hu'⟩ := suspendUnderLease_untaken hu (by simpa using hx) hp hq hi hw ht
      exact ⟨b,p,hp,hq,by rw [next,hstep,hu']⟩

private theorem writeConditionHash_waits {old : Option Condition} (hc : cond.composite = false)
    (ho : old.all (!·.composite)) (hw : Waits condition cond) :
    (writeConditionHash old cond).composite = false ∧ (writeConditionHash old cond).closed = cond.closed ∧
      Waits condition (writeConditionHash old cond) := by
  have hold : (old.getD {}).composite = false := by
    cases old with
    | none => rfl
    | some => simpa using ho
  rw [writeConditionHash,if_neg (by simp [hc])]
  exact ⟨hold,rfl,hw.matchers,hw.empty,hw.one⟩

variable (hu : a.usePendingWaitpoint) (ha : a.resumeCondition = resumeConditionToJson condition) {early late : List Sent} {now' : Int}

include hu ha in
theorem Activates.waiting (h : Activates condition a now s) (hplain : condition.isComposite = false)
    (ht : (s.wait.signals a.waitpointId).any condition.takes = false) :
    Waiting condition a.waitpointId (next ⟨now,.suspend a⟩ s) ∧ Alike a.waitpointId s (next ⟨now,.suspend a⟩ s) ∧
      ∃ p, s.wait.waitpoint a.waitpointId = some p ∧ p.state = .pending := by
  obtain ⟨cond,hi,hco,hcl,hw⟩ := initializeCondition_waits condition
  rw [← ha] at hi
  rcases h.activated hu hi hw with ⟨ht',-⟩ | ⟨-,-,c,b,p,hp,hq,hn⟩
  · simp [ht] at ht'
  · obtain ⟨hco',hcl',hw'⟩ := writeConditionHash_waits (hco.trans hplain) (h.unmarked hplain) hw
    rw [hn]
    refine ⟨⟨rfl,?_⟩,?_,p,hp,hq.state⟩
    · refine ⟨writeConditionHash (s.wait.condition a.waitpointId) cond,?_,hcl'.trans hcl,hco',hw'⟩
      simp [activate]
    · refine ⟨rfl,⟨p,{ p with suspensionId := a.suspensionId, state := .active, expiresAt := a.timeoutAt },hp,?_,
        rfl,rfl⟩,?_,?_⟩
      · simp [activate]
      · exact (recordOutcome_keys ..).2.2.2.2.2.2.2.2
      · exact (recordOutcome_keys ..).2.2.2.2.2.2.2.1

private theorem buffer_records (i : Sent) (s : Store) :
    next i.bufferCall s = s ∨ next i.bufferCall s = i.recorded s := by
  rcases step_cases i.bufferCall s with ⟨-,hn⟩ | ho
  · exact .inl hn
  · exact bufferSignalForPendingWaitpoint_ok ho

/-- Buffered signals leave everything alone that an activation reads, but for the signals. -/
structure Buffers (s t : Store) : Prop extends LeasedAlike s t where
  waitpoint : t.wait.waitpoint = s.wait.waitpoint
  condition : t.wait.condition = s.wait.condition

private theorem bufferAll_buffers (s : Store) (is : List Sent) : Buffers s (bufferAll s is) := by
  have step (t : Store) (i : Sent) (h : Buffers s t) : Buffers s (next i.bufferCall t) := by
    rcases buffer_records i t with hn | hn
    · rwa [hn]
    · rw [hn]
      exact ⟨⟨h.core,h.suspension,h.suspendDedup⟩,h.waitpoint,h.condition⟩
  exact runFrom_invariant (I := fun t => Buffers s t) step ⟨⟨rfl,rfl,rfl⟩,rfl,rfl⟩ is

/-- One of the signals is accepted and is what the condition waits for. -/
def Sees (condition : ResumeCondition) : Store → List Sent → Prop
  | _, [] => False
  | s, i :: is => (i.Admitted s ∧ condition.takes i.2.signal) ∨ Sees condition (next i.bufferCall s) is

theorem not_sees_of_composite (h : condition.isComposite) (s : Store) (is : List Sent) : ¬ Sees condition s is := by
  induction is generalizing s with
  | nil => exact id
  | cons i is ih => simp [Sees,takes_of_composite h,ih]

/-- If the condition is satisfied by what is in the stream or comes in, then by what is in it in the end: not
every such signal has been trimmed. -/
def Remembers (condition : ResumeCondition) (id : String) (s : Store) (is : List Sent) : Prop :=
  (s.wait.signals id).any condition.takes ∨ Sees condition s is → ((bufferAll s is).wait.signals id).any condition.takes

/-- One execution keeps its signals for a pending waitpoint, the other one waits on it already,
and neither has a signal that the condition takes. -/
structure Ahead (condition : ResumeCondition) (id : String) (s t : Store) : Prop where
  core : s.core.isSome
  pending : ∃ p, s.wait.waitpoint id = some p ∧ p.state = .pending
  untaken : (s.wait.signals id).any condition.takes = false
  waiting : Waiting condition id t
  alike : Alike id s t

theorem Ahead.signal (h : Ahead condition i.2.waitpointId s t) :
    ((i.Admitted s ∧ condition.takes i.2.signal) ∧ (next i.call t).isSuspended = false) ∨
      (¬ (i.Admitted s ∧ condition.takes i.2.signal) ∧
        Ahead condition i.2.waitpointId (next i.bufferCall s) (next i.call t)) := by
  obtain ⟨p,hp,hs⟩ := h.pending
  have hadm := h.alike.admitted
  rcases buffer_cases h.core hp hs with ⟨ha,hb⟩ | ⟨ha,hb⟩ <;> rw [hb]
  · rcases h.waiting.deliver with ⟨ha',-⟩ | ⟨-,ht,hn⟩ | ⟨-,ht,hn⟩
    · exact (ha' (hadm.mpr ha)).elim
    · exact .inl ⟨⟨ha,ht⟩,hn⟩
    · rw [hn]
      refine .inr ⟨by simp [ht],h.core,h.pending,?_,h.waiting.recorded i,h.alike.recorded i⟩
      have untaken : (s.wait.signals i.2.waitpointId ++ [i.2.signal]).any condition.takes = false := by
        simp [any_append,h.untaken,ht]
      rw [any_eq_false] at untaken ⊢
      intro signal hm
      simp only [Sent.recorded,recordSignal,setWait_wait,if_true,SignalArgs.appended] at hm
      exact untaken signal (mem_of_mem_drop hm)
  · rcases h.waiting.deliver with ⟨-,hn⟩ | ⟨ha',-⟩ | ⟨ha',-⟩
    · rw [hn]
      exact .inr ⟨fun h => ha h.1,h⟩
    · exact (ha (hadm.mp ha')).elim
    · exact (ha (hadm.mp ha')).elim

theorem Ahead.run (h : Ahead condition id s t) (hi : ∀ i ∈ is, i.2.waitpointId = id) :
    (Sees condition s is ∧ (sendAll t is).isSuspended = false) ∨
      (¬ Sees condition s is ∧ Ahead condition id (bufferAll s is) (sendAll t is)) := by
  induction is generalizing s t with
  | nil => exact .inr ⟨fun h => h,h⟩
  | cons i is ih =>
    obtain rfl := hi i (by simp)
    have hrest : ∀ j ∈ is, j.2.waitpointId = i.2.waitpointId := fun j hj => hi j (by simp [hj])
    rcases h.signal with ⟨hs,hn⟩ | ⟨hs,h'⟩
    · exact .inl ⟨.inl hs,sendAll_awake hn is⟩
    · rw [Sees,or_iff_right hs]
      exact ih h' hrest

theorem Alike.beside (h : Alike id s t) (h' : Alike id s u) : Alike id t u := by
  obtain ⟨p,q,hp,hq,hkey,hcreated⟩ := h.waitpoint
  obtain ⟨p',q',hp',hq',hkey',hcreated'⟩ := h'.waitpoint
  cases hp.symm.trans hp'
  exact ⟨h'.secrets.trans h.secrets.symm,⟨q,q',hq,hq',hkey'.trans hkey.symm,hcreated'.trans hcreated.symm⟩,
    h'.signalIdem.trans h.signalIdem.symm,h'.execSignals.trans h.execSignals.symm⟩

include hu ha in
theorem Activates.awake (h : Activates condition a now s)
    (ht : (s.wait.signals a.waitpointId).any condition.takes) : (next ⟨now,.suspend a⟩ s).isSuspended = false := by
  obtain ⟨cond,hinit,-,-,hw⟩ := initializeCondition_waits condition
  rw [← ha] at hinit
  rcases h.activated hu hinit hw with ⟨-,hn⟩ | ⟨hf,-⟩
  · exact hn
  · simp [ht] at hf

include hu ha in
theorem Activates.delivered (h : Activates condition a now s) (hplain : condition.isComposite = false)
    (hi : ∀ i ∈ is, i.2.waitpointId = a.waitpointId) :
    let taken := (s.wait.signals a.waitpointId).any condition.takes ∨ Sees condition s is
    let t := sendAll (next ⟨now,.suspend a⟩ s) is
    (taken ∧ t.isSuspended = false) ∨ (¬ taken ∧ Ahead condition a.waitpointId (bufferAll s is) t) := by
  intro taken t
  by_cases ht : (s.wait.signals a.waitpointId).any condition.takes
  · exact .inl ⟨.inl ht,sendAll_awake (h.awake hu ha ht) is⟩
  · obtain ⟨hwaits,halike,hpending⟩ := h.waiting hu ha hplain (by simpa using ht)
    obtain ⟨c,hc,-⟩ := h.lease
    have hahead : Ahead condition a.waitpointId s (next ⟨now,.suspend a⟩ s) :=
      ⟨by simp [hc],hpending,by simpa using ht,hwaits,halike⟩
    rw [show taken ↔ Sees condition s is from or_iff_right ht]
    exact hahead.run hi

include hu ha in
theorem splitRun_plain (hplain : condition.isComposite = false)
    (hi : ∀ i ∈ early ++ late, i.2.waitpointId = a.waitpointId)
    (hA : Activates condition a now (bufferAll s early)) (hB : Activates condition a now' s)
    (hr : Remembers condition a.waitpointId s early) :
    (splitRun a now early late s).isSuspended = (splitRun a now' [] (early ++ late) s).isSuspended := by
  have hsplit : splitRun a now' [] (early ++ late) s =
      sendAll (sendAll (next ⟨now',.suspend a⟩ s) early) late := runFrom_append _ early late
  rw [hsplit]
  have hearly : ∀ i ∈ early, i.2.waitpointId = a.waitpointId := fun i hi' => hi i (by simp [hi'])
  rcases hB.delivered hu ha hplain hearly with ⟨hs,hn⟩ | ⟨-,h⟩
  · exact (sendAll_awake (hA.awake hu ha (hr hs)) late).trans (sendAll_awake hn late).symm
  · obtain ⟨hwaits',halike',-⟩ := hA.waiting hu ha hplain h.untaken
    exact sendAll_alike hwaits' h.waiting (halike'.beside h.alike) fun i hi' => hi i (by simp [hi'])

include hu ha in
theorem splitRun_forgotten (hplain : condition.isComposite = false) (hi : ∀ i ∈ early, i.2.waitpointId = a.waitpointId)
    (hA : Activates condition a now (bufferAll s early)) (hB : Activates condition a now' s)
    (hr : ¬ Remembers condition a.waitpointId s early) :
    (splitRun a now early [] s).isSuspended ∧ (splitRun a now' [] early s).isSuspended = false := by
  obtain ⟨hs,ht⟩ := Classical.not_imp.mp hr
  refine ⟨(hA.waiting hu ha hplain (by simpa using ht)).1.suspended,?_⟩
  rcases hB.delivered hu ha hplain hi with ⟨-,hn⟩ | ⟨hs',-⟩
  · exact hn
  · exact (hs' hs).elim

include hu ha in
theorem Activates.ignores (h : Activates condition a now s) (hcomposite : condition.isComposite)
    (early : List Sent) : Activates condition a now (bufferAll s early) ∧ (splitRun a now early [] s).isSuspended := by
  obtain ⟨cond,hinit,-,-,hw⟩ := initializeCondition_waits condition
  rw [← ha] at hinit
  have untaken (signals : List Signal) : signals.any condition.takes = false := by simp [takes_of_composite hcomposite]
  have hb := bufferAll_buffers s early
  rcases h.activated hu hinit hw with ⟨ht,-⟩ | ⟨-,hx,-,-,p,hp,hq,-⟩
  · simp [untaken] at ht
  · obtain ⟨c,-,-,hlease⟩ := h.lease
    rw [← hb.waitpoint] at hp
    obtain ⟨b,hu'⟩ := suspendUnderLease_untaken (c := c) hu hx hp hq hinit hw (untaken _)
    have hstep := (hlease _ hb.toLeasedAlike).trans hu'
    refine ⟨⟨(hb.suspendReplay a now).trans h.new,by rw [hstep]; rfl,by simp [hcomposite]⟩,?_⟩
    rw [splitRun,next,hstep]
    rfl

/-- Whether signals are buffered before the activation or delivered after it makes no difference for the plain
conditions, as long as the stream is not trimmed of all that would satisfy them, and for those that no signals
satisfy anyway. -/
theorem buffered_as_delivered_iff {r : SuspendRequest} {others : SuspendArgs}
    (ha : suspendImpl r others = .ok a) (hp : r.waitpoints.head? = some (.usePending id)) :
    ((∀ s now now' early late, (∀ i ∈ early ++ late, i.2.waitpointId = id) →
        Activates r.resumeCondition a now (bufferAll s early) → Activates r.resumeCondition a now' s →
        Remembers r.resumeCondition id s early →
        (splitRun a now early late s).isSuspended = (splitRun a now' [] (early ++ late) s).isSuspended) ↔
      r.resumeCondition.isComposite = false ∨
        ∀ s now sent, (∀ i ∈ sent, i.2.waitpointId = id) → Activates r.resumeCondition a now s →
          (splitRun a now [] sent s).isSuspended) ∧ (r.resumeCondition.isComposite = false →
      ∀ s now now' early, (∀ i ∈ early, i.2.waitpointId = id) →
        Activates r.resumeCondition a now (bufferAll s early) → Activates r.resumeCondition a now' s →
        ¬ Remembers r.resumeCondition id s early →
        (splitRun a now early [] s).isSuspended ∧ (splitRun a now' [] early s).isSuspended = false) := by
  obtain ⟨hu,rfl,hcond⟩ : a.usePendingWaitpoint ∧ a.waitpointId = id ∧ a.resumeCondition =
      resumeConditionToJson r.resumeCondition := by
    simp only [suspendImpl,bind_ok,pure_ok] at ha
    obtain ⟨_,-,rfl⟩ := ha
    obtain ⟨rest,hr⟩ := List.head?_eq_some_iff.mp hp
    simp [SuspendRequest.toArgs,hr]
  refine ⟨⟨?_,?_⟩,fun hplain s now now' early => splitRun_forgotten hu hcond hplain⟩
  · intro h
    cases hc : r.resumeCondition.isComposite with
    | false => exact .inl rfl
    | true =>
      refine .inr fun s now sent hi hact => ?_
      obtain ⟨hact',hsus⟩ := hact.ignores hu hcond hc sent
      have remembers : Remembers r.resumeCondition a.waitpointId s sent := by
        rintro (ht | ht)
        · simp [takes_of_composite hc] at ht
        · exact (not_sees_of_composite hc s sent ht).elim
      have hsplit := h s now now sent [] (by simpa using hi) hact' hact remembers
      rw [hsus,append_nil] at hsplit
      exact hsplit.symm
  · rintro (hplain | hnever) s now now' early late hi hA hB hr
    · exact splitRun_plain hu hcond hplain hi hA hB hr
    · rw [hnever s now' _ hi hB]
      exact hnever (bufferAll s early) now late (fun i hi' => hi i (by simp [hi'])) hA

namespace Client

def pending : Store :=
  next ⟨13,.createPendingWaitpoint
    { executionId := "e", attemptIndex := "0", waitpointId := "w1", waitpointKey := "k1", expiresAt := 99 }⟩ claimed

variable (resumeCondition : ResumeCondition)

def pendingRequest : SuspendRequest :=
  { suspensionId := "s1", waitpoints := [.usePending "w1"], resumeCondition, now := 13 }

def activation : SuspendArgs := (pendingRequest resumeCondition).toArgs handle

/-- The approval that came in early is there when the execution waits for it. -/
theorem early_approval_is_seen :
    (splitRun (activation (.single "k1" (.byName "go"))) 16 [sent 15 "x" "go"] [] pending).isSuspended =
      (splitRun (activation (.single "k1" (.byName "go"))) 14 [] [sent 15 "x" "go"] pending).isSuspended :=
  have accepted : suspendImpl (pendingRequest (.single "k1" (.byName "go"))) handle = .ok (activation _) := rfl
  (buffered_as_delivered_iff accepted rfl).1.mpr (.inl rfl) pending 16 14 [sent 15 "x" "go"] [] (by simp [sent])
    ⟨rfl,by decide +kernel,fun _ => by decide +kernel⟩ ⟨rfl,by decide +kernel,fun _ => by decide +kernel⟩
    fun _ => by decide +kernel

/-- One signal of any name would do, and the one that came in early is forgotten. So is one that a plain condition
waits for, if the next one comes in where the stream is full and is trimmed. -/
theorem early_signal_is_forgotten :
    let condition : ResumeCondition := .count 1 .distinctSignals none ["k1"]
    let plain : ResumeCondition := .single "k1" (.byName "go")
    let trims : Sent := (16,{ (sent 16 "y" "other").2 with signalMaxlen := 1, trimmed := 1 })
    validateSuspendArgs (pendingRequest condition) = .ok () ∧
      (step ⟨16,.suspend (activation condition)⟩ (bufferAll pending [sent 15 "x" "go"])).1.isError = false ∧
      (step ⟨14,.suspend (activation condition)⟩ pending).1.isError = false ∧
      (splitRun (activation condition) 16 [sent 15 "x" "go"] [] pending).isSuspended ∧
      (splitRun (activation condition) 14 [] [sent 15 "x" "go"] pending).isSuspended = false ∧
      (step ⟨17,.suspend (activation plain)⟩ (bufferAll pending [sent 15 "x" "go",trims])).1.isError = false ∧
      (splitRun (activation plain) 17 [sent 15 "x" "go",trims] [] pending).isSuspended ∧
      (splitRun (activation plain) 14 [] [sent 15 "x" "go",trims] pending).isSuspended = false := by
  refine ⟨rfl,?_,?_,?_,?_,?_,?_,?_⟩
  all_goals decide +kernel

end Client

end FlowFabric
