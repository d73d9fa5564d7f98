import FlowFabric.Waitpoints

/-! The end of a suspension. Five scripts end one, and each closes a part of what belongs to it:
its waitpoints, their conditions and the keys of a composite condition. -/
namespace FlowFabric
open Foundation Store List

namespace WaitKeys
variable (w : WaitKeys)

/-- The waitpoints of the suspension, the first one and the additional ones. -/
def boundIds : List String :=
  match w.suspension with
  | some p => p.waitpointId :: w.additionalIds
  | none => []

variable (id : String)

def hasWaitpoint : Bool := (w.waitpoint id).isSome

def hasCondition : Bool := (w.condition id).isSome

def waitpointClosed : Bool := (w.waitpoint id).any fun p => decide (p.state = .closed)

def conditionClosed : Bool := (w.condition id).any (·.closed)

def compositeGone : Bool := decide (w.satisfiedSet = ∅ ∧ w.satisfierSignals = ∅ ∧ w.memberMap = [])

def hasBoth : Prop := w.hasWaitpoint id ∧ w.hasCondition id

def backed : Prop := ∀ id ∈ w.boundIds, w.hasBoth id

structure Complete (ids : List String) : Prop where
  waitpoint : ∀ id ∈ ids, w.waitpointClosed id
  condition : ∀ id ∈ ids, w.conditionClosed id
  suspension : ∃ p, w.suspension = some p ∧ p.closedAt.isSome
  composite : w.compositeGone

section
variable (i j : String) (ids : List String)

@[simp] theorem closeWaitpoint_keys : (w.closeWaitpoint i).hasWaitpoint j = (decide (j = i) || w.hasWaitpoint j) ∧
      (w.closeWaitpoint i).waitpointClosed j = (decide (j = i) || w.waitpointClosed j) ∧
      (w.closeWaitpoint i).hasCondition j = w.hasCondition j ∧
      (w.closeWaitpoint i).conditionClosed j = w.conditionClosed j := by
  refine ⟨?_,?_,rfl,rfl⟩ <;> by_cases hj : j = i <;> simp [hasWaitpoint,waitpointClosed,hj]

@[simp] theorem closeCondition_keys : (w.closeCondition i).hasCondition j = (decide (j = i) || w.hasCondition j) ∧
      (w.closeCondition i).conditionClosed j = (decide (j = i) || w.conditionClosed j) ∧
      (w.closeCondition i).hasWaitpoint j = w.hasWaitpoint j ∧
      (w.closeCondition i).waitpointClosed j = w.waitpointClosed j := by
  refine ⟨?_,?_,rfl,rfl⟩ <;> by_cases hj : j = i <;> simp [hasCondition,conditionClosed,hj]

@[simp] theorem hasWaitpoint_setWaitpoint (p : Waitpoint) :
    (w.setWaitpoint i p).hasWaitpoint j = (decide (j = i) || w.hasWaitpoint j) := by
  by_cases hj : j = i <;> simp [hasWaitpoint,hj]

@[simp] theorem hasCondition_setCondition (cond : Condition) :
    (w.setCondition i cond).hasCondition j = (decide (j = i) || w.hasCondition j) := by
  by_cases hj : j = i <;> simp [hasCondition,hj]

@[simp] theorem closeExisting_waitpoints : (w.closeExisting ids).hasWaitpoint j = w.hasWaitpoint j ∧
    (w.closeExisting ids).waitpointClosed j = ((decide (j ∈ ids) && w.hasWaitpoint j) || w.waitpointClosed j) := by
  by_cases hj : j ∈ ids
  · cases hw : w.waitpoint j <;> simp [waitpointClosed,hasWaitpoint,hj,hw]
  · simp [waitpointClosed,hasWaitpoint,hj]

@[simp] theorem closeExisting_conditions : (w.closeExisting ids).hasCondition j = w.hasCondition j ∧
    (w.closeExisting ids).conditionClosed j = ((decide (j ∈ ids) && w.hasCondition j) || w.conditionClosed j) := by
  by_cases hj : j ∈ ids
  · cases hw : w.condition j <;> simp [conditionClosed,hasCondition,hj,hw]
  · simp [conditionClosed,hasCondition,hj]

@[simp] theorem closeSuspension_keys (now : Int) (reason : String) :
    (w.closeSuspension now reason).hasWaitpoint j = w.hasWaitpoint j ∧
      (w.closeSuspension now reason).waitpointClosed j = w.waitpointClosed j ∧
      (w.closeSuspension now reason).hasCondition j = w.hasCondition j ∧
      (w.closeSuspension now reason).conditionClosed j = w.conditionClosed j :=
  ⟨rfl,rfl,rfl,rfl⟩

@[simp] theorem compositeCleanup_keys : w.compositeCleanup.hasWaitpoint j = w.hasWaitpoint j ∧
    w.compositeCleanup.waitpointClosed j = w.waitpointClosed j ∧ w.compositeCleanup.hasCondition j = w.hasCondition j ∧
    w.compositeCleanup.conditionClosed j = w.conditionClosed j :=
  ⟨rfl,rfl,rfl,rfl⟩

end

@[simp] theorem boundIds_closeSuspension (now : Int) (reason : String) :
    (w.closeSuspension now reason).boundIds = w.boundIds := by
  cases h : w.suspension <;> simp [boundIds,additionalIds,h]

variable {w} {w' : WaitKeys}

theorem boundIds_congr (h : w'.suspension = w.suspension) : w'.boundIds = w.boundIds := by
  rw [boundIds,boundIds,additionalIds,additionalIds,h]

theorem compositeGone_congr (hs : w'.satisfiedSet = w.satisfiedSet)
    (hi : w'.satisfierSignals = w.satisfierSignals) (hm : w'.memberMap = w.memberMap) :
    w'.compositeGone = w.compositeGone := by
  rw [compositeGone,compositeGone,hs,hi,hm]

/-- Hashes of waitpoints are added; the suspension and the keys of a composite condition stay. -/
structure Grows (w w' : WaitKeys) : Prop where
  suspension : w'.suspension = w.suspension
  waitpoint : ∀ id, w.hasWaitpoint id → w'.hasWaitpoint id
  condition : ∀ id, w.hasCondition id → w'.hasCondition id
  composite : w'.compositeGone = w.compositeGone
  satisfiedSet : w'.satisfiedSet = w.satisfiedSet

theorem Grows.refl : Grows w w := ⟨rfl,fun _ h => h,fun _ h => h,rfl,rfl⟩

theorem Grows.trans {w'' : WaitKeys} (h : Grows w w') (h' : Grows w' w'') : Grows w w'' :=
  ⟨h'.suspension.trans h.suspension,fun id hw => h'.waitpoint id (h.waitpoint id hw),
    fun id hw => h'.condition id (h.condition id hw),h'.composite.trans h.composite,
    h'.satisfiedSet.trans h.satisfiedSet⟩

theorem Grows.hasBoth {id : String} (h : Grows w w') (hw : w.hasBoth id) : w'.hasBoth id :=
  hw.imp (h.waitpoint id) (h.condition id)

theorem Grows.backed (h : Grows w w') (hw : w.backed) : w'.backed := by
  intro id hid
  rw [boundIds_congr h.suspension] at hid
  exact h.hasBoth (hw id hid)

theorem grows_setWaitpoint (id : String) (p : Waitpoint) : Grows w (w.setWaitpoint id p) :=
  ⟨rfl,fun j h => by simp [h],fun _ h => h,rfl,rfl⟩

private theorem grows_setCondition (id : String) (cond : Condition) : Grows w (w.setCondition id cond) :=
  ⟨rfl,fun _ h => h,fun j h => by simp [h],rfl,rfl⟩

private theorem grows_recordOutcome (a : SuspendArgs) (now : Int) (parts : List String) :
    Grows w (w.recordOutcome a now parts) := by
  refine ⟨by simp,fun id h => ?_,fun id h => ?_,compositeGone_congr ?_ ?_ ?_,by simp⟩
  · simpa [hasWaitpoint] using h
  · simpa [hasCondition] using h
  · simp
  · simp
  · simp

end WaitKeys

open WaitKeys

section
variable {a : SuspendArgs} {hmac : HmacSecrets} {now : Int} {w w' : WaitKeys}

theorem Bound.grows {ids : List String} (h : Bound a ids w w') : w.Grows w' ∧ ∀ id ∈ ids, w'.hasBoth id := by
  induction h with
  | nil => exact ⟨.refl,by simp⟩
  | cons own _ ih =>
    refine ⟨((grows_setWaitpoint _ _).trans (grows_setCondition _ _)).trans ih.1,?_⟩
    exact forall_mem_cons.mpr ⟨ih.1.hasBoth ⟨by simp [hasWaitpoint],by simp⟩,ih.2⟩

theorem bindWaitpoints_grows {b : Binding} (h : bindWaitpoints a hmac now w = .ok (b,w')) :
    w.Grows w' ∧ w'.hasBoth a.waitpointId ∧ ∀ e ∈ b.extras, w'.hasBoth e.1 := by
  obtain ⟨bound,extras⟩ := bindWaitpoints_bound h
  obtain ⟨grows,both⟩ := bound.grows
  exact ⟨grows,both _ (.head _),fun e he => both _ (extras e he)⟩

private theorem bindWaitpoints_refusal {reply : Reply} (h : bindWaitpoints a hmac now w = .error (reply,w')) :
    w.Grows w' := by
  obtain ⟨done,v,hv,-,rfl | ⟨id,p,rfl⟩⟩ := bindWaitpoints_stopped h
  · exact hv.grows.1
  · exact hv.grows.1.trans (grows_setWaitpoint _ _)

end

/-- What one step does to the keys of a suspension. -/
inductive WaitWrite (s : Store) (now : Int) : Op → WaitKeys → Prop
  | same (op : Op) : WaitWrite s now op s.wait
  | refused (a w) (closed : s.wait.suspensionOpen = false)
      (grows : s.wait.delSuspension.Grows w) : WaitWrite s now (.suspend a) w
  | suspended (a : SuspendArgs) (c) (b : Binding) (w : WaitKeys)
      (closed : s.wait.suspensionOpen = false) (grows : s.wait.delSuspension.Grows w)
      (first : w.hasBoth a.waitpointId) (others : ∀ e ∈ b.extras, w.hasBoth e.1) :
      WaitWrite s now (.suspend a) (suspendCommit a c b w now s).wait
  | resumed (a) : WaitWrite s now (.resume a)
        (((s.wait.closeWaitpoint a.keys.waitpointId).closeSuspension now
          "resumed").compositeCleanup.closeExisting s.wait.additionalIds)
  | timedOut (a reason) : WaitWrite s now (.expireSuspension a) (s.wait.timeOut a.keys.waitpointId now reason)
  | escalated (a) (p q : Suspension) (current : s.wait.suspension = some p)
      (open_ : p.closedAt = none) (same : q.closedAt = none ∧ q.waitpointId = p.waitpointId ∧
        q.additionalWaitpoints = p.additionalWaitpoints) :
      WaitWrite s now (.expireSuspension a) (s.wait.setSuspension q)
  | cancelled (a) : WaitWrite s now (.cancel a) (s.wait.cancelSuspension a.keys.waitpointId now)
  | expired (a reason) (suspended : s.isSuspended) : WaitWrite s now (.expire a) (s.wait.closeSuspension now reason)
  | waitpointSet (op : Op) (w) (grows : s.wait.Grows w) : WaitWrite s now op w
  | signalled (a : SignalArgs) (cond : Condition) (w)
      (stored : s.wait.condition a.waitpointId = some cond) (open_ : cond.closed = false)
      (collects : Collects a cond s.wait w) : WaitWrite s now (.deliverSignal a) w
  | plainResumed (a : SignalArgs) (cond : Condition) (w)
      (stored : s.wait.condition a.waitpointId = some cond) (open_ : cond.closed = false)
      (collects : Collects a cond s.wait w) (plain : cond.composite = false) :
      WaitWrite s now (.deliverSignal a) (w.closeSatisfied a.waitpointId now)
  | compositeResumed (a : SignalArgs) (cond : Condition) (w)
      (stored : s.wait.condition a.waitpointId = some cond) (open_ : cond.closed = false)
      (collects : Collects a cond s.wait w) (composite : cond.composite) : WaitWrite s now (.deliverSignal a)
        ((w.closeSatisfied a.waitpointId now).compositeCleanup.closeExisting w.additionalIds)

private theorem plainResume_wait (a : SignalArgs) (c : ExecCore) (now : Int) (s : Store) :
    (plainResume a c now s).wait = s.wait.closeSatisfied a.waitpointId now := by
  simp [plainResume]

theorem compositeResume_wait (a : SignalArgs) (c : ExecCore) (now : Int) (s : Store) :
    (compositeResume a c now s).wait =
      (s.wait.closeSatisfied a.waitpointId now).compositeCleanup.closeExisting s.wait.additionalIds := by
  have hids : (s.wait.closeSatisfied a.waitpointId now).compositeCleanup.additionalIds = s.wait.additionalIds := by
    cases h : s.wait.suspension <;> simp [additionalIds,closeSatisfied,h]
  rw [← hids]
  simp [compositeResume]

variable {s t : Store} {now : Int} {op : Op} {w w' : WaitKeys}

theorem Effect.waitWrite (h : Effect s now op t) : WaitWrite s now op t.wait := by
  cases h with
  | lapsed =>
    unfold markExpired
    split <;> exact .same _
  | cancelled a c =>
    rw [cancelCommit_wait]
    split
    · exact .cancelled a
    · exact .same _
  | expired a c hc =>
    rw [expireCommit_wait]
    split
    · rename_i hp
      exact .expired a _ (by simp [isSuspended,hc,hp])
    · exact .same _
  | suspendFailed a c reply w hc held closed bound => exact .refused a w closed (bindWaitpoints_refusal bound)
  | suspendSatisfied a c b w hc held closed bound =>
    exact .refused a _ closed ((bindWaitpoints_grows bound).1.trans (grows_recordOutcome ..))
  | suspended a c b w hc held closed bound =>
    obtain ⟨hg,hb,he⟩ := bindWaitpoints_grows bound
    exact .suspended a c b w closed hg hb he
  | resumed a => exact .resumed a
  | pendingCreated => exact .waitpointSet _ _ (grows_setWaitpoint _ _)
  | autoResumed a | timedOut a => exact .timedOut a _
  | escalated a c p hc suspended hp =>
    simp only [activeSuspension,Option.filter_eq_some_iff,decide_eq_true_eq] at hp
    exact .escalated a p _ hp.1 hp.2.2 ⟨hp.2.2,rfl,rfl⟩
  | waitpointClosed => exact .waitpointSet _ _ (⟨rfl,fun j h => by simp [h],fun _ h => h,rfl,rfl⟩)
  | signalled a c p cond w taken collects => exact .signalled a cond w taken.condition taken.open_ collects
  | signalResumed a c p cond w taken collects plain =>
    rw [plainResume_wait]
    exact .plainResumed a cond w taken.condition taken.open_ collects plain
  | compositeResumed a c p cond w taken collects composite =>
    rw [compositeResume_wait]
    exact .compositeResumed a cond w taken.condition taken.open_ collects composite
  | buffered => exact .waitpointSet _ _ ⟨rfl,fun _ h => h,fun _ h => h,rfl,rfl⟩
  | applied =>
    unfold blockChild
    split <;> exact .same _
  | resolved a d t settles settled => cases settled <;> exact .same _
  | _ => exact .same _

variable {cond : Condition} {a : SignalArgs}

section
variable (h : Collects a cond w w')
include h

theorem Collects.hasWaitpoint (id : String) : w'.hasWaitpoint id = w.hasWaitpoint id := by
  rw [WaitKeys.hasWaitpoint,WaitKeys.hasWaitpoint,h.waitpoint]

theorem Collects.hasCondition {id : String} (hw : w.hasCondition id) : w'.hasCondition id := by
  obtain ⟨updated,-,-,hc⟩ := h.condition
  rw [WaitKeys.hasCondition,hc]
  split
  · rfl
  · exact hw

theorem Collects.hasBoth {id : String} (hw : w.hasBoth id) : w'.hasBoth id :=
  ⟨(h.hasWaitpoint id).trans hw.1,h.hasCondition hw.2⟩

end

theorem hasBoth_closeSatisfied {j : String} (h : w.hasBoth j) (id : String) (now : Int) :
    (w.closeSatisfied id now).hasBoth j :=
  ⟨by simp [closeSatisfied,h.1],by simp [closeSatisfied,h.2]⟩

theorem WaitWrite.backed (h : WaitWrite s now op w') (hs : s.wait.backed) : w'.backed := by
  have kept (w' : WaitKeys) (hb : w'.boundIds = s.wait.boundIds)
      (hk : ∀ id, s.wait.hasBoth id → w'.hasBoth id) : w'.backed := by
    intro id hid
    rw [hb] at hid
    exact hk id (hs id hid)
  cases h with
  | same => exact hs
  | refused a w closed grows => exact grows.backed nofun
  | suspended a c b w closed grows first others =>
    have both {id : String} (h : w.hasBoth id) : (suspendCommit a c b w now s).wait.hasBoth id := by
      simpa [hasBoth,hasWaitpoint,hasCondition] using h
    intro id hid
    rw [boundIds,(suspendCommit_keys ..).1] at hid
    rcases mem_cons.mp hid with rfl | hid
    · exact both first
    · simp only [additionalIds,suspendCommit_keys,Binding.suspension,map_map,mem_filter,mem_map] at hid
      obtain ⟨⟨e,he,rfl⟩,-⟩ := hid
      exact both (others e he)
  | resumed => exact kept _ (boundIds_closeSuspension ..) fun id h => ⟨by simp [h.1],by simp [h.2]⟩
  | timedOut =>
    refine kept _ (boundIds_closeSuspension ..) fun id h => ?_
    exact ⟨by simp [timeOut,h.1],by simp [timeOut,h.2]⟩
  | escalated a p q current open_ same =>
    refine kept _ ?_ fun _ h => h
    simp [boundIds,additionalIds,current,same]
  | cancelled =>
    refine kept _ (boundIds_closeSuspension ..) fun id h => ?_
    exact ⟨by simp [cancelSuspension,h.1],by simp [cancelSuspension,h.2]⟩
  | expired => exact kept _ (boundIds_closeSuspension ..) fun _ h => h
  | waitpointSet _ w grows => exact grows.backed hs
  | signalled a cond w stored open_ collects =>
    exact kept _ (boundIds_congr collects.suspension) fun _ h => collects.hasBoth h
  | plainResumed a cond w stored open_ collects =>
    refine kept _ ?_ fun _ h => hasBoth_closeSatisfied (collects.hasBoth h) _ _
    exact (boundIds_closeSuspension ..).trans (boundIds_congr collects.suspension)
  | compositeResumed a cond w stored open_ collects =>
    refine kept _ ?_ fun _ h => ?_
    · exact (boundIds_closeSuspension ..).trans (boundIds_congr collects.suspension)
    · have hb := hasBoth_closeSatisfied (collects.hasBoth h) a.waitpointId now
      exact ⟨by simp [hb.1],by simp [hb.2]⟩

theorem run_backed (calls : List Call) : (run calls).wait.backed :=
  runFrom_invariant (I := fun s : Store => s.wait.backed) (fun s i hs => (next_effect i s).waitWrite.backed hs)
    (by simp [backed,boundIds]) calls

/-- Every waitpoint of a suspension has its hash and its condition. -/
theorem suspensions_are_backed (calls : List Call) : let w := (run calls).wait
    w.boundIds.all fun id => w.hasWaitpoint id && w.hasCondition id := by
  intro w
  rw [all_eq_true]
  intro id bound
  rw [Bool.and_eq_true]
  exact run_backed calls id bound

/-- The calls that leave no keys of a composite condition without a suspension: a signal meets
an open composite condition only while a suspension is open, and a plain condition or an expiry
does not end a suspension with a composite one. -/
def Op.sweeps (op : Op) (s : Store) : Bool :=
  match op with
  | .deliverSignal a => (s.wait.condition a.waitpointId).all fun cond =>
      cond.closed || if cond.composite then s.wait.suspensionOpen else s.wait.compositeGone
  | .expire _ => !s.isSuspended || s.wait.compositeGone
  | _ => true

/-- Without an open suspension there are no keys of a composite condition. -/
def WaitKeys.swept (w : WaitKeys) : Prop := w.suspensionOpen = false → w.compositeGone

theorem suspensionOpen_congr (h : w'.suspension = w.suspension) : w'.suspensionOpen = w.suspensionOpen := by
  rw [suspensionOpen,suspensionOpen,h]

theorem WaitWrite.swept (h : WaitWrite s now op w') (hop : op.sweeps s) (hs : s.wait.swept) : w'.swept := by
  cases h with
  | same => exact hs
  | refused a w closed grows => exact fun _ => grows.composite.trans (hs closed)
  | suspended =>
    intro h
    simp [suspensionOpen,Binding.suspension] at h
  | resumed | timedOut | cancelled | compositeResumed => exact fun _ => rfl
  | escalated a p q current open_ same =>
    intro h
    simp [suspensionOpen,same.1] at h
  | expired a reason suspended =>
    intro _
    have hgone : s.wait.compositeGone := by simpa [Op.sweeps,suspended] using hop
    exact hgone
  | waitpointSet _ w grows =>
    intro h
    rw [suspensionOpen_congr grows.suspension] at h
    exact grows.composite.trans (hs h)
  | signalled a cond w stored open_ collects =>
    intro h
    rw [suspensionOpen_congr collects.suspension] at h
    cases hc : cond.composite with
    | true => simp [Op.sweeps,stored,open_,hc,h] at hop
    | false =>
      exact (compositeGone_congr (collects.satisfiedSet hc) (collects.satisfierSignals hc)
        collects.memberMap).trans (hs h)
  | plainResumed a cond w stored open_ collects plain =>
    intro _
    have hgone : s.wait.compositeGone := by simpa [Op.sweeps,stored,open_,plain] using hop
    exact (compositeGone_congr (collects.satisfiedSet plain) (collects.satisfierSignals plain)
      collects.memberMap).trans hgone

private theorem run_swept {calls : List Call} (h : Along next (fun s i => i.op.sweeps s) {} calls) :
    (run calls).wait.swept :=
  h.invariant (I := fun s : Store => s.wait.swept) (fun s i hs hi => (next_effect i s).waitWrite.swept hi hs)
    fun _ => rfl

structure Closing where
  (waitpoints conditions : List String := [])
  clears : Bool := false

/-- The additional waitpoints are looked up in the record of the suspension. The first one is
closed only where the script has its keys, and its condition not even there by a resume. -/
def Op.closing (op : Op) (w : WaitKeys) : Closing :=
  match op with
  | .deliverSignal a =>
    if (w.condition a.waitpointId).any (·.composite) then
      ⟨a.waitpointId :: w.additionalIds,a.waitpointId :: w.additionalIds,true⟩
    else ⟨[a.waitpointId],[a.waitpointId],false⟩
  | .resume a => ⟨a.keys.waitpointId :: w.additionalIds,w.additionalIds,true⟩
  | .expireSuspension a => ⟨a.keys.waitpointId :: w.additionalIds,a.keys.waitpointId :: w.additionalIds,true⟩
  | .cancel a => ⟨a.keys.waitpointId :: w.additionalIds,a.keys.waitpointId :: w.additionalIds,true⟩
  | _ => {}

/-- Whatever the script does not close is closed already. -/
def Closing.suffices (k : Closing) (w : WaitKeys) : Bool :=
  (w.boundIds.all fun id =>
    (decide (id ∈ k.waitpoints) || w.waitpointClosed id) &&
      (decide (id ∈ k.conditions) || w.conditionClosed id)) &&
    (k.clears || w.compositeGone)

/-- The scripts that end a suspension; a signal does on one of its waitpoints. -/
def Op.mayEnd (op : Op) (w : WaitKeys) : Bool :=
  match op with
  | .deliverSignal a => decide (a.waitpointId ∈ w.boundIds)
  | .resume _ | .expireSuspension _ | .cancel _ | .expire _ => true
  | _ => false

structure Call.Ends (i : Call) (s : Store) : Prop where
  op : i.op.mayEnd s.wait
  open_ : s.wait.suspensionOpen
  suspended : s.isSuspended
  ended : (next i s).isSuspended = false

structure Closes (now : Int) (k : Closing) (w w' : WaitKeys) : Prop where
  waitpoint : ∀ id, w.hasWaitpoint id → (w'.waitpointClosed id ↔ id ∈ k.waitpoints ∨ w.waitpointClosed id)
  condition : ∀ id, w.hasCondition id → (w'.conditionClosed id ↔ id ∈ k.conditions ∨ w.conditionClosed id)
  suspension : ∃ reason, w'.suspension = (w.closeSuspension now reason).suspension
  composite : w'.compositeGone ↔ k.clears ∨ w.compositeGone

theorem Collects.conditionClosed (h : Collects a cond w w')
    (hc : w.condition a.waitpointId = some cond) (id : String) : w'.conditionClosed id = w.conditionClosed id := by
  obtain ⟨updated,hclosed,-,hcond⟩ := h.condition
  rw [WaitKeys.conditionClosed,WaitKeys.conditionClosed,hcond]
  by_cases hid : id = a.waitpointId <;> simp [hid,hc,hclosed]

theorem Collects.waitpointClosed (h : Collects a cond w w') (id : String) :
    w'.waitpointClosed id = w.waitpointClosed id := by
  rw [WaitKeys.waitpointClosed,WaitKeys.waitpointClosed,h.waitpoint]

private theorem timeOut_closes (w : WaitKeys) (id : String) (now : Int) (reason : String) :
    Closes now ⟨id :: w.additionalIds,id :: w.additionalIds,true⟩ w (w.timeOut id now reason) := by
  refine ⟨fun j hj => ?_,fun j hj => ?_,⟨reason,rfl⟩,by simp [timeOut,compositeGone]⟩
  · simp [timeOut,hj,or_left_comm,or_assoc]
  · simp [timeOut,hj,or_left_comm,or_assoc]

private theorem cancelSuspension_closes (w : WaitKeys) (id : String) (now : Int) :
    Closes now ⟨id :: w.additionalIds,id :: w.additionalIds,true⟩ w (w.cancelSuspension id now) := by
  refine ⟨fun j hj => ?_,fun j hj => ?_,⟨_,rfl⟩,by simp [cancelSuspension,compositeGone]⟩
  · simp [cancelSuspension,hj,or_left_comm,or_assoc]
  · simp [cancelSuspension,hj,or_left_comm,or_assoc]

theorem Effect.closes (h : Effect s now op t) (hop : op.mayEnd s.wait) (hs : s.isSuspended)
    (ht : t.isSuspended = false) : Closes now (op.closing s.wait) s.wait t.wait := by
  have stays (t : Store) (hc : t.core = s.core) (ht : t.isSuspended = false) : False := by
    rw [isSuspended,hc] at ht
    exact absurd hs (by simp [isSuspended,ht])
  cases h with
  | kept => exact (stays s rfl ht).elim
  | granted | expireCleaned | timeoutCleaned | signalled => exact (stays _ rfl ht).elim
  | claimed _ a c r hclaim | claimRaised _ a c r hclaim => rcases hclaim with rfl | rfl <;> cases hop
  | lapsed _ c hc due => simp [isSuspended,hc,due.active] at hs
  | cancelled a c hc =>
    have hp : c.lifecyclePhase = .suspended := by simpa [isSuspended,hc] using hs
    rw [cancelCommit_wait,if_pos hp]
    exact cancelSuspension_closes ..
  | expired a c hc =>
    have hp : c.lifecyclePhase = .suspended := by simpa [isSuspended,hc] using hs
    rw [expireCommit_wait,if_pos hp]
    refine ⟨fun id hid => by simp [Op.closing],fun id hid => by simp [Op.closing],⟨_,rfl⟩,?_⟩
    simp [Op.closing,compositeGone]
  | resumed =>
    refine ⟨fun id hid => ?_,fun id hid => ?_,⟨_,rfl⟩,by simp [Op.closing,resumeCommit,compositeGone]⟩
    · simp [resumeCommit,Op.closing,hid,or_left_comm,or_assoc]
    · simp [resumeCommit,Op.closing,hid]
  | autoResumed | timedOut => exact timeOut_closes ..
  | escalated => cases ht
  | signalResumed a c p cond w taken collects plain =>
    have hk : (Op.deliverSignal a).closing s.wait = ⟨[a.waitpointId],[a.waitpointId],false⟩ := by
      simp [Op.closing,taken.condition,plain]
    rw [hk,plainResume_wait]
    refine ⟨fun id _ => ?_,fun id _ => ?_,⟨"resumed",?_⟩,?_⟩
    · simp [closeSatisfied,collects.waitpointClosed]
    · simp [closeSatisfied,collects.conditionClosed taken.condition]
    · simp [closeSatisfied,collects.suspension]
    · have hgone := compositeGone_congr (collects.satisfiedSet plain)
        (collects.satisfierSignals plain) collects.memberMap
      have hsame : (w.closeSatisfied a.waitpointId now).compositeGone = w.compositeGone := rfl
      simp [hsame,hgone]
  | compositeResumed a c p cond w taken collects composite =>
    have hk : (Op.deliverSignal a).closing s.wait =
        ⟨a.waitpointId :: s.wait.additionalIds,a.waitpointId :: s.wait.additionalIds,true⟩ := by
      simp [Op.closing,taken.condition,composite]
    have hids : w.additionalIds = s.wait.additionalIds := by rw [additionalIds,additionalIds,collects.suspension]
    rw [hk,compositeResume_wait,setWait_wait,hids]
    refine ⟨fun id hid => ?_,fun id hid => ?_,⟨"resumed",?_⟩,by simp [compositeGone]⟩
    · simp [closeSatisfied,collects.waitpointClosed,collects.hasWaitpoint,hid,or_left_comm,or_assoc]
    · simp [closeSatisfied,collects.conditionClosed taken.condition,collects.hasCondition hid,or_left_comm,or_assoc]
    · simp [closeSatisfied,collects.suspension]
  | _ => cases hop

theorem Closes.complete_iff {k : Closing} (h : Closes now k w w') (hb : w.backed) (hs : w.suspensionOpen) :
    w'.Complete w.boundIds ↔ k.suffices w := by
  simp only [Closing.suffices,Bool.and_eq_true,all_eq_true,Bool.or_eq_true,decide_eq_true_eq]
  constructor
  · intro hc
    refine ⟨fun id hid => ⟨?_,?_⟩,h.composite.mp hc.composite⟩
    · exact (h.waitpoint id (hb id hid).1).mp (hc.waitpoint id hid)
    · exact (h.condition id (hb id hid).2).mp (hc.condition id hid)
  · rintro ⟨hids,hgone⟩
    refine ⟨fun id hid => ?_,fun id hid => ?_,?_,h.composite.mpr hgone⟩
    · exact (h.waitpoint id (hb id hid).1).mpr (hids id hid).1
    · exact (h.condition id (hb id hid).2).mpr (hids id hid).2
    · obtain ⟨reason,hsusp⟩ := h.suspension
      cases hp : w.suspension with
      | none => simp [suspensionOpen,hp] at hs
      | some => exact ⟨_,by rw [hsusp,closeSuspension_suspension,hp]; rfl,rfl⟩

theorem Effect.begins (h : Effect s now op t) (hs : s.isSuspended = false) (ht : t.isSuspended) :
    s.wait.suspensionOpen = false ∧ t.wait.satisfiedSet = s.wait.satisfiedSet := by
  have stays (t : Store) (hc : t.core = s.core) (ht : t.isSuspended) : False := by
    rw [isSuspended,hc] at ht
    exact absurd ht (by simpa [isSuspended] using hs)
  have awake {c : ExecCore} (hc : s.core = some c) : c.lifecyclePhase ≠ .suspended := by simpa [isSuspended,hc] using hs
  cases h with
  | suspended a c b w hc held closed bound => exact ⟨closed,by simpa using (bindWaitpoints_grows bound).1.satisfiedSet⟩
  | lapsed _ c hc =>
    unfold markExpired at ht
    split at ht
    · exact (stays _ rfl ht).elim
    · exact (awake hc (of_decide_eq_true ht)).elim
  | escalated a c p hc suspended => exact (awake hc suspended).elim
  | signalResumed a c p cond w taken =>
    unfold plainResume resumeSuspended at ht
    rw [if_neg (awake taken.core)] at ht
    exact (stays _ rfl ht).elim
  | compositeResumed a c p cond w taken =>
    unfold compositeResume resumeSuspended at ht
    rw [if_neg (awake taken.core)] at ht
    exact (stays _ rfl ht).elim
  | applied a c hc =>
    unfold blockChild at ht
    split at ht
    · exact (awake hc (of_decide_eq_true ht)).elim
    · exact (stays _ rfl ht).elim
  | resolved a d t settles settled =>
    cases settled with
    | kept => exact (stays _ rfl ht).elim
    | released c hc => exact (awake hc (of_decide_eq_true ht)).elim
    | skipped => cases ht
  | renewed a c _ _ _ hc | progressed a c _ _ hc
  | prioritized a c _ _ hc | joined a c hc | released c hc => exact (awake hc (of_decide_eq_true ht)).elim
  | _ => first | exact (stays _ rfl ht).elim | cases ht

/-- A call that ends a suspension leaves nothing of it open if and only if what the script does
not close is closed already. And if no signal and no expiry leaves keys of a composite condition
behind, every suspension starts without a satisfier. -/
theorem suspension_is_closed_iff (calls : List Call) : (∀ i : Call, i.Ends (run calls) →
      ((run (calls ++ [i])).wait.Complete (run calls).wait.boundIds ↔
        (i.op.closing (run calls).wait).suffices (run calls).wait)) ∧
    (Along next (fun s i => i.op.sweeps s) {} calls → ∀ i : Call, (run calls).isSuspended = false →
      (run (calls ++ [i])).isSuspended → (run (calls ++ [i])).wait.satisfiedSet = ∅) := by
  have last (i : Call) : run (calls ++ [i]) = next i (run calls) := runFrom_append _ calls [i]
  constructor
  · intro i h
    rw [last]
    exact ((next_effect i _).closes h.op h.suspended h.ended).complete_iff (run_backed calls) h.open_
  · intro hsweeps i hs ht
    rw [last] at ht ⊢
    obtain ⟨hclosed,hset⟩ := (next_effect i _).begins hs ht
    have hgone := of_decide_eq_true (run_swept hsweeps hclosed)
    exact hset.trans hgone.1

namespace Client

/-- An execution that waits for one signal on either of two waitpoints. -/
def waitingOnTwo : List Call :=
  [secret 10,create 10,grant 11,claim 12 "L1" "a1",⟨13,.suspend
      { executionId := "e", attemptIndex := "0", fence := ⟨"L1","1","a1"⟩, suspensionId := "s1"
        waitpointId := "w1", waitpointKey := "k1", extras := [("w2","k2")]
        resumeCondition := .composite (some 1) (some (.count "" 1 .distinctSignals none ["k1","k2"]))
        keys := { workerInstanceId := "wi" } }⟩]

/-- A cancellation with the key of the first waitpoint closes both. -/
theorem cancel_closes_both : (run (waitingOnTwo ++
    [⟨14,.cancel { executionId := "e", keys := { waitpointId := "w1" } }⟩])).wait.Complete ["w1","w2"] :=
  ((suspension_is_closed_iff waitingOnTwo).1 ⟨14,.cancel { executionId := "e", keys := { waitpointId := "w1" } }⟩
    ⟨rfl,by decide +kernel,by decide +kernel,by decide +kernel⟩).mpr (by decide +kernel)

/-- A signal on the second waitpoint resumes the execution and leaves the first one open, and so
does an expiry of the execution with both. -/
theorem first_waitpoint_stays_open :
    let signal : Call := ⟨14,.deliverSignal (signalOn "w2" "k:ff669b5a373ece9ce1257ef79247a69c47a3b3e5" "x")⟩
    let expiry : Call := ⟨14,.expire { executionId := "e" }⟩
    (run waitingOnTwo).wait.boundIds = ["w1","w2"] ∧ (run waitingOnTwo).isSuspended ∧
      (run (waitingOnTwo ++ [signal])).isSuspended = false ∧
      (run (waitingOnTwo ++ [signal])).wait.waitpointClosed "w1" = false ∧
      (run (waitingOnTwo ++ [signal])).wait.conditionClosed "w1" = false ∧
      (run (waitingOnTwo ++ [expiry])).isSuspended = false ∧
      (run (waitingOnTwo ++ [expiry])).wait.waitpointClosed "w2" = false ∧
      (run (waitingOnTwo ++ [expiry])).wait.compositeGone = false := by
  decide +kernel

end Client

end FlowFabric
