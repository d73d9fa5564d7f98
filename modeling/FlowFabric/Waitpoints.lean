import FlowFabric.Effect
import FlowFabric.Refusal

/-! The waitpoints of a suspension: which signals an execution takes, and when they belong to
the suspension that is open. -/
namespace FlowFabric
open Foundation List Store Client Option

def SuspendArgs.boundIds (a : SuspendArgs) : List String :=
  a.waitpointId :: if a.usePendingWaitpoint then [] else a.extras.map (·.1)

open SuspendArgs

/-- No condition but those of the listed waitpoints is written. -/
structure Touches (ids : List String) (w w' : WaitKeys) : Prop where
  suspension : w'.suspension = w.suspension
  condition : ∀ j, j ∉ ids → w'.condition j = w.condition j

/-- The listed waitpoints, and no others, belong to the suspension now. -/
structure Binds (suspensionId : String) (ids : List String) (w w' : WaitKeys) : Prop
    extends Touches ids w w' where
  waitpoint : ∀ j p, w'.waitpoint j = some p → p.suspensionId = suspensionId ∨ (j ∉ ids ∧ w.waitpoint j = some p)

variable {a : SuspendArgs} {hmac : HmacSecrets} {now : Int} {ids ids' : List String} {sid : String}
  {w w' w'' : WaitKeys}

theorem Touches.refl : Touches ids w w := ⟨rfl,fun _ _ => rfl⟩

theorem Touches.trans (h : Touches ids w w') (h' : Touches ids' w' w'') : Touches (ids ++ ids') w w'' := by
  refine ⟨h'.suspension.trans h.suspension,fun j hj => ?_⟩
  rw [mem_append,not_or] at hj
  exact (h'.condition j hj.2).trans (h.condition j hj.1)

theorem Touches.mono (h : Touches ids w w') (hi : ids ⊆ ids') : Touches ids' w w' :=
  ⟨h.suspension,fun j hj => h.condition j fun hm => hj (hi hm)⟩

theorem Binds.refl : Binds sid [] w w := ⟨.refl,fun _ _ hp => Or.inr ⟨by simp,hp⟩⟩

theorem Binds.trans (h : Binds sid ids w w') (h' : Binds sid ids' w' w'') : Binds sid (ids ++ ids') w w'' := by
  refine ⟨h.toTouches.trans h'.toTouches,fun j p hp => ?_⟩
  rcases h'.waitpoint j p hp with hs | ⟨hj',hp⟩
  · exact .inl hs
  · rcases h.waitpoint j p hp with hs | ⟨hj,hp⟩
    · exact .inl hs
    · exact .inr ⟨by simp [hj,hj'],hp⟩

private theorem setWaitpoint_twice (w : WaitKeys) (id : String) (p q : Waitpoint) :
    (w.setWaitpoint id p).setWaitpoint id q = w.setWaitpoint id q := by
  unfold WaitKeys.setWaitpoint
  congr
  funext j
  by_cases hj : j = id <;> simp [hj]

variable {p : Waitpoint} {id j : String} {b : Binding} {cond : Condition} {calls : List Call}

theorem Binds.of_set (cond : Condition) (hp : p.suspensionId = sid) :
    Binds sid [id] w ((w.setWaitpoint id p).setCondition id cond) := by
  refine ⟨⟨rfl,fun j hj => by simp_all⟩,fun j q hq => ?_⟩
  by_cases hj : j = id
  · rw [hj] at hq
    simp only [WaitKeys.setCondition_waitpoint,WaitKeys.setWaitpoint_waitpoint,if_true,some.injEq] at hq
    exact .inl (hq ▸ hp)
  · exact .inr ⟨by simpa using hj,by simpa [hj] using hq⟩

/-- What is written for the waitpoints of a suspension, a hash and a condition for each. -/
inductive Bound (a : SuspendArgs) : List String → WaitKeys → WaitKeys → Prop
  | nil (w : WaitKeys) : Bound a [] w w
  | cons {id : String} {p : Waitpoint} {cond : Condition} {ids : List String} {w w' : WaitKeys}
      (own : p.suspensionId = a.suspensionId)
      (rest : Bound a ids ((w.setWaitpoint id p).setCondition id cond) w') : Bound a (id :: ids) w w'

/-- How far it has got before an error. -/
def Stopped (a : SuspendArgs) (ids : List String) (w w' : WaitKeys) : Prop :=
  ∃ done v, Bound a done w v ∧ done ⊆ ids ∧ (w' = v ∨ ∃ id p, w' = v.setWaitpoint id p)

theorem Bound.trans (h : Bound a ids w w') (h' : Bound a ids' w' w'') : Bound a (ids ++ ids') w w'' := by
  induction h with
  | nil => exact h'
  | cons own _ ih => exact .cons own (ih h')

theorem Bound.stopped (h : Bound a ids w w') (h' : Stopped a ids' w' w'') : Stopped a (ids ++ ids') w w'' := by
  obtain ⟨done,v,hv,hd,hw⟩ := h'
  exact ⟨_,v,h.trans hv,append_subset.mpr ⟨by simp,subset_append_of_subset_right _ hd⟩,hw⟩

theorem openWaitpoint_bound {key token : String} (h : openWaitpoint a hmac now id key w = .ok (token,w')) :
    Bound a [id] w w' := by
  unfold openWaitpoint at h
  split at h
  · cases h
  · dsimp only at h
    split at h
    · cases h
    · cases h
      exact .cons rfl (.nil _)

theorem openWaitpoint_stops (ids : List String) (id key : String) :
    Refuses (fun e => Stopped a ids w e.2) (openWaitpoint a hmac now id key w) := by
  unfold openWaitpoint
  split
  · exact (refuses_error _).mpr ⟨[],w,.nil w,by simp,.inl rfl⟩
  · dsimp only
    split
    · exact (refuses_error _).mpr ⟨[],w,.nil w,by simp,.inr ⟨_,_,rfl⟩⟩
    · simp

private theorem openExtras_bound {extras : List (String × String)} {bound : List (String × String × String)}
    (h : openExtras a hmac now extras w = .ok (bound,w')) :
    Bound a (extras.map (·.1)) w w' ∧ bound.map (·.1) = extras.map (·.1) := by
  induction extras generalizing w bound with
  | nil =>
    cases h
    exact ⟨.nil _,rfl⟩
  | cons e rest ih =>
    simp only [openExtras,bind_ok] at h
    obtain ⟨⟨token,w1⟩,h1,⟨rest',w2⟩,h2,h⟩ := h
    cases h
    obtain ⟨hb,he⟩ := ih h2
    exact ⟨(openWaitpoint_bound h1).trans hb,congrArg (e.1 :: ·) he⟩

private theorem openExtras_stops (extras : List (String × String)) :
    Refuses (fun e => Stopped a (extras.map (·.1)) w e.2) (openExtras a hmac now extras w) := by
  induction extras generalizing w with
  | nil => simp [openExtras]
  | cons e rest ih =>
    simp only [openExtras,refuses_bind]
    refine ⟨openWaitpoint_stops _ _ _,?_⟩
    rintro ⟨token,w1⟩ h1
    exact ⟨ih.mono fun _ h => (openWaitpoint_bound h1).stopped h,by simp⟩

theorem activatePending_bound (h : activatePending a now w = .ok (b,w')) :
    Bound a [a.waitpointId] w w' ∧ b.extras = [] := by
  simp only [activatePending,bind_ok,demand_ok,ensure_ok] at h
  obtain ⟨p,hp,_,-,_,-,_,-,_,-,_,-,cond,-,h⟩ := h
  split at h
  · simp only [pure_bind,pure_ok] at h
    cases h
    exact ⟨.cons rfl (.nil _),rfl⟩
  · simp only [bind_ok,demand_ok,pure_ok] at h
    obtain ⟨satisfied,-,h⟩ := h
    cases h
    cases satisfied with
    | false => exact ⟨.cons rfl (.nil _),rfl⟩
    | true =>
      rw [if_pos rfl,setWaitpoint_twice]
      exact ⟨.cons rfl (.nil _),rfl⟩

theorem bindWaitpoints_bound (h : bindWaitpoints a hmac now w = .ok (b,w')) :
    Bound a a.boundIds w w' ∧ ∀ e ∈ b.extras, e.1 ∈ a.boundIds := by
  unfold bindWaitpoints at h
  split at h <;> rename_i hp
  · simp only [bind_ok,ensure_ok,pure_ok] at h
    obtain ⟨⟨b',w1⟩,h1,_,-,h⟩ := h
    cases h
    obtain ⟨hb,he⟩ := activatePending_bound h1
    simpa [boundIds,hp,he] using hb
  · simp only [bind_ok,pure_ok] at h
    obtain ⟨⟨token,w1⟩,h1,⟨extras,w2⟩,h2,h⟩ := h
    cases h
    obtain ⟨hb,he⟩ := openExtras_bound h2
    rw [boundIds,if_neg hp,← he]
    exact ⟨he ▸ (openWaitpoint_bound h1).trans hb,fun e mem => .tail _ (mem_map_of_mem mem)⟩

theorem bindWaitpoints_stopped {reply : Reply} (h : bindWaitpoints a hmac now w = .error (reply,w')) :
    Stopped a a.boundIds w w' := by
  suffices hr : Refuses (fun e => Stopped a a.boundIds w e.2) (bindWaitpoints a hmac now w) from hr _ h
  have activates : Refuses (fun e => Stopped a a.boundIds w e.2) (activatePending a now w) := by
    have same : Stopped a a.boundIds w w := ⟨[],w,.nil w,by simp,.inl rfl⟩
    have activated (p : Waitpoint) : Stopped a a.boundIds w (w.setWaitpoint a.waitpointId p) :=
      ⟨[],w,.nil w,by simp,.inr ⟨_,_,rfl⟩⟩
    simp [activatePending,same,activated]
  unfold bindWaitpoints
  split <;> rename_i hp
  · simp only [refuses_bind,refuses_ensure,refuses_pure]
    refine ⟨activates,?_⟩
    rintro ⟨b,w1⟩ h1
    exact ⟨fun _ => ⟨_,w1,(activatePending_bound h1).1,by simp [boundIds],.inl rfl⟩,by simp⟩
  · simp only [refuses_bind,refuses_pure,boundIds,hp]
    refine ⟨openWaitpoint_stops _ _ _,?_⟩
    rintro ⟨token,w1⟩ h1
    exact ⟨(openExtras_stops _).mono fun _ h => (openWaitpoint_bound h1).stopped h,by simp⟩

theorem Bound.binds (h : Bound a ids w w') : Binds a.suspensionId ids w w' := by
  induction h with
  | nil => exact .refl
  | cons own _ ih => exact (Binds.of_set _ own).trans ih

theorem bindWaitpoints_ok (h : bindWaitpoints a hmac now w = .ok (b,w')) : Binds a.suspensionId a.boundIds w w' :=
  (bindWaitpoints_bound h).1.binds

theorem bindWaitpoints_error {reply : Reply} (h : bindWaitpoints a hmac now w = .error (reply,w')) :
    Touches a.boundIds w w' := by
  obtain ⟨done,v,hv,hd,hw⟩ := bindWaitpoints_stopped h
  have touches := hv.binds.toTouches.mono hd
  obtain rfl | ⟨id,p,rfl⟩ := hw
  · exact touches
  · exact ⟨touches.suspension,touches.condition⟩

def WaitKeys.isOpen (w : WaitKeys) (waitpointId : String) : Bool :=
  (w.condition waitpointId).any fun cond => !cond.closed

open WaitKeys

theorem Touches.isOpen (h : Touches ids w w') (ho : w'.isOpen id) : w.isOpen id ∨ id ∈ ids := by
  by_cases hi : id ∈ ids
  · exact .inr hi
  · rw [WaitKeys.isOpen,h.condition id hi] at ho
    exact .inl ho

def Store.isSuspended (s : Store) : Bool := s.core.any fun c => decide (c.lifecyclePhase = .suspended)

def Store.current (s : Store) (suspensionId : String) : Prop :=
  ∃ p, s.wait.suspension = some p ∧ p.closedAt = none ∧ p.suspensionId = suspensionId

/-- Signals on the waitpoint, which belongs to the suspension, are taken. -/
def Store.takes (s : Store) (waitpointId suspensionId : String) : Prop :=
  s.wait.isOpen waitpointId ∧ ∃ p, s.wait.waitpoint waitpointId = some p ∧
    p.suspensionId = suspensionId ∧ (s.isSuspended ∨ p.state = .active)

inductive WaitStep (s t : Store) : Prop
  /-- Less is taken than before, by the same suspension. -/
  | less (takes : ∀ id sid, t.takes id sid → s.takes id sid) (current : ∀ sid, t.current sid ↔ s.current sid)
      (suspended : t.isSuspended → s.isSuspended)
  /-- No suspension is open. -/
  | idle (none : ∀ sid, ¬ t.current sid) (awake : t.isSuspended = false)
  /-- A new suspension takes the signals on its own waitpoints only. -/
  | suspended (suspensionId) (current : ∀ sid, t.current sid ↔ sid = suspensionId)
      (takes : ∀ id sid, t.takes id sid → sid = suspensionId)

/-- A suspended execution has an open suspension, and that takes no signal for another one. -/
structure Store.bound (s : Store) : Prop where
  opened : s.isSuspended → ∃ sid, s.current sid
  own : ∀ id sid sid', s.takes id sid → s.current sid' → sid = sid'

theorem WaitStep.bound {s t : Store} (h : WaitStep s t) (hs : s.bound) : t.bound := by
  cases h with
  | less takes current suspended =>
    refine ⟨fun ht => ?_,fun id sid sid' ht hc => hs.own id sid sid' (takes id sid ht) ((current sid').mp hc)⟩
    obtain ⟨sid,hc⟩ := hs.opened (suspended ht)
    exact ⟨sid,(current sid).mpr hc⟩
  | idle none awake => exact ⟨fun ht => by simp [awake] at ht,fun _ _ sid' _ hc => (none sid' hc).elim⟩
  | suspended suspensionId current takes =>
    refine ⟨fun _ => ⟨suspensionId,(current _).mpr rfl⟩,fun id sid sid' ht hc => ?_⟩
    exact (takes id sid ht).trans ((current sid').mp hc).symm

/-- The calls under which signals stay with their suspension. A suspend that starts a new
suspension finds no condition open but those of the waitpoints it names. A signal meets an
open composite condition only while a suspension is open. -/
def Op.keepsBinding (op : Op) (s : Store) : Prop :=
  match op with
  | .suspend a => s.wait.suspensionOpen = false → ∀ id, s.wait.isOpen id → id ∈ a.boundIds
  | .deliverSignal a =>
    ∀ cond, s.wait.condition a.waitpointId = some cond → cond.composite → cond.closed = false → s.wait.suspensionOpen
  | _ => True

variable {op : Op} {s t : Store} {c : ExecCore}

namespace WaitStep

theorem frame (hs : t.isSuspended → s.isSuspended) (hsusp : t.wait.suspension = s.wait.suspension)
    (hw : t.wait.waitpoint = s.wait.waitpoint) (ho : ∀ id, t.wait.isOpen id → s.wait.isOpen id) : WaitStep s t := by
  refine .less (fun id sid => ?_) (fun sid => ?_) hs
  · rintro ⟨h,p,hp,hsid,hactive⟩
    exact ⟨ho id h,p,hw ▸ hp,hsid,hactive.imp_left hs⟩
  · unfold current
    rw [hsusp]

section
variable (hw : t.wait = s.wait)
include hw

theorem keys (hs : t.isSuspended → s.isSuspended) : WaitStep s t :=
  frame hs (by rw [hw]) (by rw [hw]) fun id h => hw ▸ h

theorem away (hp : t.isSuspended = false) : WaitStep s t := keys hw fun h => by simp [hp] at h

theorem same (hp : t.isSuspended = s.isSuspended) : WaitStep s t := keys hw fun h => hp ▸ h

end

theorem closed (hw : t.wait.suspensionOpen = false) (hp : t.isSuspended = false) : WaitStep s t := by
  refine .idle (fun sid => ?_) hp
  rintro ⟨p,hp,hc,-⟩
  simp [suspensionOpen,hp,hc] at hw

end WaitStep

theorem suspensionOpen_of_closed {w w' : WaitKeys} {reason : String}
    (h : w'.suspension = (w.closeSuspension now reason).suspension) : w'.suspensionOpen = false := by
  unfold suspensionOpen
  rw [h]
  cases hw : w.suspension <;> simp [hw]

theorem isSuspended_eq (hc : s.core = some c) : s.isSuspended = decide (c.lifecyclePhase = .suspended) := by
  simp [isSuspended,hc]

private theorem cancelCommit_waits (a : CancelArgs) : WaitStep s (cancelCommit a c now s) := by
  have hw := cancelCommit_wait c now s a
  split at hw
  · exact .closed (hw ▸ suspensionOpen_of_closed rfl) rfl
  · exact .away hw rfl

private theorem expireCommit_waits (a : ExpireArgs) : WaitStep s (expireCommit a c now s) := by
  have hw := expireCommit_wait c now s a
  split at hw
  · exact .closed (hw ▸ suspensionOpen_of_closed rfl) rfl
  · exact .away hw rfl

private theorem escalateCommit_waits {p : Suspension} (hc : s.core = some c) (hp : c.lifecyclePhase = .suspended)
    (hs : s.wait.activeSuspension = some p) : WaitStep s (escalateCommit c p s) := by
  have hp' : s.wait.suspension = some p ∧ p.closedAt = none := by
    simp only [activeSuspension,filter_eq_some_iff,decide_eq_true_eq] at hs
    exact ⟨hs.1,hs.2.2⟩
  have hsus : s.isSuspended := by simp [isSuspended,hc,hp]
  refine .less (fun j sid ⟨ho,q,hq,hsid,_⟩ => ⟨ho,q,hq,hsid,.inl hsus⟩) (fun sid => ?_) (fun _ => hsus)
  constructor
  · rintro ⟨q,hq,-,hsid⟩
    cases hq
    exact ⟨p,hp'.1,hp'.2,hsid⟩
  · rintro ⟨q,hq,-,hsid⟩
    cases hp'.1.symm.trans hq
    exact ⟨_,rfl,hp'.2,hsid⟩

variable {a : SignalArgs}

theorem Collects.isOpen (h : Collects a cond w w')
    (hc : w.condition a.waitpointId = some cond) : w'.isOpen id = w.isOpen id := by
  obtain ⟨updated,hclosed,-,hcond⟩ := h.condition
  unfold WaitKeys.isOpen
  rw [hcond id]
  by_cases hid : id = a.waitpointId <;> simp [hid,hc,hclosed]

theorem Effect.waits (h : Effect s now op t) (hk : op.keepsBinding s) : WaitStep s t := by
  cases h with
  | created | claimed | claimResumed | grantClaimResumed | reclaimCapped | reclaimed | revoked | completed
  | failRetried | failedTerminal | delayed | moved | promoted | blocked | unblocked | replayedSkipped
  | replayedNormal => exact .away rfl rfl
  | lapsed _ c hc =>
    unfold markExpired
    split
    · exact .same rfl rfl
    · exact .same rfl (isSuspended_eq hc).symm
  | renewed a c _ _ _ hc | progressed a c _ _ hc
  | prioritized a c _ _ hc | joined a c hc | released c hc => exact .same rfl (isSuspended_eq hc).symm
  | cancelled a => exact cancelCommit_waits a
  | expired a => exact expireCommit_waits a
  | suspendFailed a c reply w hc held closed bound =>
    refine .closed ?_ ((isSuspended_eq hc).trans (by simp [held.active]))
    have hw := (bindWaitpoints_error bound).suspension
    simp [suspensionOpen,hw]
  | suspendSatisfied a c b w hc held closed bound =>
    refine .closed ?_ ((isSuspended_eq hc).trans (by simp [held.active]))
    have hw := (bindWaitpoints_ok bound).suspension
    simp [suspensionOpen,hw]
  | suspended a c b w hc held closed bound =>
    obtain ⟨hsusp,hwp,hcond,-⟩ := suspendCommit_keys a c b w now s
    have binds := bindWaitpoints_ok bound
    refine .suspended a.suspensionId (fun sid => ?_) fun id sid => ?_
    · constructor
      · rintro ⟨p,hp,-,hsid⟩
        cases hsusp.symm.trans hp
        exact hsid.symm
      · rintro rfl
        exact ⟨_,hsusp,rfl,rfl⟩
    · rintro ⟨ho,p,hp,rfl,-⟩
      rcases binds.waitpoint id p ((congrFun hwp id).symm.trans hp) with hs | ⟨hid,-⟩
      · exact hs
      · have ho : w.isOpen id := by
          rw [isOpen] at ho ⊢
          exact (congrFun hcond id) ▸ ho
        exact (hid ((binds.isOpen ho).elim ((hk closed) id) fun h => h)).elim
  | resumed | autoResumed | timedOut => exact .closed (suspensionOpen_of_closed rfl) rfl
  | pendingCreated a c p hc active pending =>
    refine .less (fun j sid => ?_) (fun _ => Iff.rfl) fun h => h
    rintro ⟨ho,q,hq,hsid,hactive⟩
    by_cases hj : j = a.waitpointId
    · simp only [setWait_wait,setWaitpoint_waitpoint,hj,if_true,some.injEq] at hq
      have hsus : (s.setWait (s.wait.setWaitpoint a.waitpointId p)).isSuspended = false :=
        (isSuspended_eq hc).trans (by simp [active])
      simp [hsus,← hq,pending] at hactive
    · exact ⟨ho,q,by simpa [hj] using hq,hsid,hactive⟩
  | escalated a c p hc suspended hp => exact escalateCommit_waits hc suspended hp
  | waitpointClosed id known =>
    obtain ⟨p,hp⟩ := isSome_iff_exists.mp known
    refine .less (fun j sid => ?_) (fun _ => Iff.rfl) (fun h => h)
    rintro ⟨ho,q,hq,hsid,hactive⟩
    by_cases hj : j = id
    · simp only [setWait_wait,closeWaitpoint_waitpoint,hj,if_true,hp,getD_some,some.injEq] at hq
      refine ⟨ho,p,hj ▸ hp,by rw [← hsid,← hq],.inl (hactive.resolve_right ?_)⟩
      simp [← hq]
    · exact ⟨ho,q,by simpa [hj] using hq,hsid,hactive⟩
  | signalled a c p cond w taken collects =>
    exact .frame (fun h => h) collects.suspension collects.waitpoint fun id h =>
      (collects.isOpen taken.condition).symm.trans h
  | signalResumed a c p cond w taken | compositeResumed a c p cond w taken =>
    refine .closed (suspensionOpen_of_closed rfl) ?_
    simp only [plainResume,compositeResume,resumeSuspended]
    split
    · rfl
    · exact (isSuspended_eq taken.core).trans (decide_eq_false ‹_›)
  | buffered => exact .frame (fun h => h) rfl rfl fun _ h => h
  | applied a c hc =>
    unfold blockChild
    split
    · exact .same rfl (isSuspended_eq hc).symm
    · exact .same rfl rfl
  | resolved a d t settles settled =>
    cases settled with
    | kept => exact .same rfl rfl
    | released c hc => exact .same rfl (isSuspended_eq hc).symm
    | skipped => exact .away rfl rfl
  | _ => exact .same rfl rfl

private theorem run_bound (h : Along next (fun s i => i.op.keepsBinding s) {} calls) : (run calls).bound := by
  have start : bound {} := ⟨by simp [isSuspended],by simp [current]⟩
  exact h.invariant (fun s i hs hi => ((next_effect i s).waits hi).bound hs) start

/-- The replies to a signal that leaves a satisfier for a composite condition. -/
def SignalArgs.counted (a : SignalArgs) : List Reply :=
  [.ok [a.signal.signalId,SignalEffect.appendedToWaitpoint.text],
    .ok [a.signal.signalId,SignalEffect.resumeConditionSatisfied.text]]

/-- The signal moves the execution out of its suspension, closes the suspension, or leaves a
satisfier for a composite condition. -/
def SignalArgs.hasEffect (a : SignalArgs) (now : Int) (s : Store) : Prop :=
  let i : Call := ⟨now,.deliverSignal a⟩
  (s.isSuspended ∧ (next i s).isSuspended = false) ∨ (s.wait.suspensionOpen ∧ (next i s).wait.suspensionOpen = false) ∨
    ((s.wait.condition a.waitpointId).any (·.composite) ∧ (step i s).1 ∈ a.counted)

instance (a : SignalArgs) (now : Int) (s : Store) : Decidable (a.hasEffect now s) := inferInstanceAs (Decidable (_ ∨ _))

private theorem hasEffect_deliverable (h : a.hasEffect now s) : ∃ c p cond, Deliverable a now s c p cond := by
  have counted (hn : next ⟨now,.deliverSignal a⟩ s = s) : (step ⟨now,.deliverSignal a⟩ s).1 ∈ a.counted := by
    rcases h with ⟨hs,ht⟩ | ⟨hs,ht⟩ | ⟨-,h⟩
    · simp [hn,hs] at ht
    · simp [hn,hs] at ht
    · exact h
  rcases step_cases ⟨now,.deliverSignal a⟩ s with ⟨herr,hn⟩ | hok
  · have hr := counted hn
    simp only [SignalArgs.counted,mem_cons,not_mem_nil,or_false] at hr
    rcases hr with hr | hr <;> simp [hr,Reply.isError] at herr
  · rcases deliverSignal_ok hok with ⟨hn,existing,hr⟩ | ⟨c,p,cond,taken,-⟩
    · have hd : (step ⟨now,.deliverSignal a⟩ s).1 = .duplicate [existing] := hr
      simpa [hd,SignalArgs.counted] using counted hn
    · exact ⟨c,p,cond,taken⟩

theorem current_of_suspensionOpen (h : s.wait.suspensionOpen) : ∃ sid, s.current sid := by
  simp only [suspensionOpen,Option.any_eq_true,decide_eq_true_eq] at h
  obtain ⟨p,hp,hc⟩ := h
  exact ⟨p.suspensionId,p,hp,hc,rfl⟩

theorem Deliverable.takes (h : Deliverable a now s c p cond) : s.takes a.waitpointId p.suspensionId := by
  refine ⟨by simp [isOpen,h.condition,h.open_],p,authenticate_waitpoint h.authentic,rfl,?_⟩
  rw [isSuspended_eq h.core,decide_eq_true_eq]
  exact h.signalable

theorem isOpen_congr (h : w'.condition = w.condition) : w'.isOpen id = w.isOpen id := by
  rw [isOpen,h]
  rfl

theorem isOpen_of_closeCondition {i : String} (h : (w.closeCondition i).isOpen j) : w.isOpen j := by
  by_cases hj : j = i
  · simp [isOpen,hj] at h
  · simpa [isOpen,hj] using h

theorem isOpen_of_closeExisting (h : (w.closeExisting ids).isOpen j) : w.isOpen j := by
  by_cases hj : j ∈ ids
  · cases hc : w.condition j <;> simp [isOpen,hj,hc] at h
  · simpa [isOpen,hj] using h

theorem Effect.opened (h : Effect s now op t) (ho : t.wait.isOpen id) :
    s.wait.isOpen id ∨ ∃ a, op = .suspend a ∧ id ∈ a.boundIds := by
  cases h with
  | lapsed =>
    unfold markExpired at ho
    split at ho <;> exact .inl ho
  | cancelled a c =>
    rw [cancelCommit_wait] at ho
    split at ho
    · exact .inl (isOpen_of_closeExisting (isOpen_of_closeExisting ho))
    · exact .inl ho
  | expired a c =>
    rw [expireCommit_wait] at ho
    split at ho <;> exact .inl ho
  | suspendFailed a c reply w hc held closed bound =>
    exact ((bindWaitpoints_error bound).isOpen ho).imp_right fun hm => ⟨a,rfl,hm⟩
  | suspendSatisfied a c b w hc held closed bound =>
    have ho : w.isOpen id := (isOpen_congr (recordOutcome_keys ..).2.2.1).symm.trans ho
    exact ((bindWaitpoints_ok bound).isOpen ho).imp_right fun hm => ⟨a,rfl,hm⟩
  | suspended a c b w hc held closed bound =>
    have ho : w.isOpen id := (isOpen_congr (suspendCommit_keys ..).2.2.1).symm.trans ho
    exact ((bindWaitpoints_ok bound).isOpen ho).imp_right fun hm => ⟨a,rfl,hm⟩
  | resumed => exact .inl (isOpen_of_closeExisting ho)
  | autoResumed | timedOut => exact .inl (isOpen_of_closeCondition (isOpen_of_closeExisting ho))
  | signalled a c p cond w taken collects => exact .inl ((collects.isOpen taken.condition).symm.trans ho)
  | signalResumed a c p cond w taken collects =>
    have ho := isOpen_of_closeCondition ho
    rw [resumeSuspended_wait] at ho
    exact .inl ((collects.isOpen taken.condition).symm.trans ho)
  | compositeResumed a c p cond w taken collects =>
    have ho := isOpen_of_closeCondition (isOpen_of_closeExisting ho)
    rw [resumeSuspended_wait] at ho
    exact .inl ((collects.isOpen taken.condition).symm.trans ho)
  | applied =>
    unfold blockChild at ho
    split at ho <;> exact .inl ho
  | resolved a d t settles settled => cases settled <;> exact .inl ho
  | _ => exact .inl ho

theorem run_opened (ho : (run calls).wait.isOpen id) : ∃ i ∈ calls, ∃ a, i.op = .suspend a ∧ id ∈ a.boundIds := by
  suffices from_ : ∀ s : Store, (runFrom next s calls).wait.isOpen id →
      s.wait.isOpen id ∨ ∃ i ∈ calls, ∃ a, i.op = .suspend a ∧ id ∈ a.boundIds by
    exact (from_ {} ho).resolve_left (by simp [isOpen])
  clear ho
  induction calls with
  | nil => exact fun s hs => .inl hs
  | cons i calls ih =>
    intro s hs
    rcases ih (next i s) hs with hn | ⟨j,hj,a,ha⟩
    · rcases (next_effect i s).opened hn with hs | ⟨a,ha⟩
      · exact .inl hs
      · exact .inr ⟨i,by simp,a,ha⟩
    · exact .inr ⟨j,by simp [hj],a,ha⟩

theorem keepsBinding_suspend (calls : List Call) {a : SuspendArgs} (h : calls.all fun i =>
      match i.op with
      | .suspend b => b.boundIds.all fun id => decide (id ∈ a.boundIds) || !(run calls).wait.isOpen id
      | _ => true) : (Op.suspend a).keepsBinding (run calls) := by
  intro _ id ho
  obtain ⟨i,hi,b,hb,hid⟩ := run_opened ho
  have hnamed := all_eq_true.mp h i hi
  simp only [hb] at hnamed
  simpa [ho] using all_eq_true.mp hnamed id hid

/-- In every run whose calls leave no condition of an older suspension open, a signal that has
an effect came in on a waitpoint of the suspension that is open. -/
theorem signals_stay_with_their_suspension (calls : List Call)
    (h : Along next (fun s i => i.op.keepsBinding s) {} calls) (a : SignalArgs) (now : Int)
    (ha : (Op.deliverSignal a).keepsBinding (run calls)) (he : a.hasEffect now (run calls)) :
    ∃ p q, (run calls).wait.suspension = some p ∧ p.closedAt = none ∧
      (run calls).wait.waitpoint a.waitpointId = some q ∧ q.suspensionId = p.suspensionId := by
  have bound := run_bound h
  obtain ⟨c,q,cond,taken⟩ := hasEffect_deliverable he
  have open_ : ∃ sid, (run calls).current sid := by
    rcases he with ⟨hs,-⟩ | ⟨hs,-⟩ | ⟨hcomp,-⟩
    · exact bound.opened hs
    · exact current_of_suspensionOpen hs
    · have hcomp : cond.composite := by simpa [taken.condition] using hcomp
      exact current_of_suspensionOpen (ha cond taken.condition hcomp taken.open_)
  obtain ⟨_,p,hp,hc,rfl⟩ := open_
  exact ⟨p,q,hp,hc,authenticate_waitpoint taken.authentic,bound.own _ _ _ taken.takes ⟨p,hp,hc,rfl⟩⟩

/-- An execution that a signal resumed, and that waits on another waitpoint. -/
theorem second_suspension_takes_its_own_signal :
    let first : List Call := [secret 10,create 10,grant 11,claim 12 "L1" "a1"]
    let second : List Call := first ++ [suspend 13 ⟨"L1","1","a1"⟩ "s1" "w1" "k1",
      ⟨14,.deliverSignal (signalOn "w1" "k:5e7dac493a353f287758cb267ee77f24a0647d10" "g1")⟩,
      grant 15,claimResumed 16 "L2"]
    let calls := second ++ [suspend 17 ⟨"L2","2","a1"⟩ "s2" "w2" "k2"]
    let signal := signalOn "w2" "k:38dbca4d6fa82a973d0cd14556ea606c7601c28c" "g2"
    signal.hasEffect 18 (run calls) ∧ ∃ p q, (run calls).wait.suspension = some p ∧ p.closedAt = none ∧
        (run calls).wait.waitpoint signal.waitpointId = some q ∧ q.suspensionId = p.suspensionId := by
  intro first second calls signal
  have effect : signal.hasEffect 18 (run calls) := by decide +kernel
  have plain {s : Store} {a : SignalArgs} (h : (s.wait.condition a.waitpointId).any (·.composite) = false) :
      (Op.deliverSignal a).keepsBinding s := by
    intro cond hc hcomp
    simp [hc,hcomp] at h
  have again : (suspend 17 ⟨"L2","2","a1"⟩ "s2" "w2" "k2").op.keepsBinding (run second) :=
    keepsBinding_suspend second (by decide +kernel)
  have along : Along next (fun s i => i.op.keepsBinding s) {} calls := by
    refine Along.append.mpr ⟨Along.append.mpr ⟨⟨trivial,trivial,trivial,trivial,trivial⟩,?_⟩,again,trivial⟩
    exact ⟨keepsBinding_suspend first (by decide +kernel),plain (by decide +kernel),trivial,trivial,trivial⟩
  exact ⟨effect,signals_stay_with_their_suspension calls along signal 18 (plain (by decide +kernel)) effect⟩

/-- The token of a waitpoint outlives a resume by hand: it resumes the next suspension. -/
theorem old_signal_resumes_new_suspension :
    let s := run [secret 10,create 10,grant 11,claim 12 "L1" "a1",
      suspend 13 ⟨"L1","1","a1"⟩ "s1" "w1" "k1",resume 14 "w1",grant 15,
      claimResumed 16 "L2",suspend 17 ⟨"L2","2","a1"⟩ "s2" "w2" "k2"]
    let signal := signalOn "w1" "k:5e7dac493a353f287758cb267ee77f24a0647d10" "g1"
    s.isSuspended ∧ (next ⟨18,.deliverSignal signal⟩ s).isSuspended = false ∧
      s.wait.suspension.map (fun p => (p.suspensionId,p.closedAt)) = some ("s2",none) ∧
      (s.wait.waitpoint "w1").map (·.suspensionId) = some "s1" := by
  decide +kernel

end FlowFabric
