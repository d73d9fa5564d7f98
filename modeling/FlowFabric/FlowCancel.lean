import FlowFabric.FlowKeys

/-! The backlog of a cancelled flow: the cancel, the acknowledgements of its members by the
live dispatch and by the reconciler, and the reads and writes of the reconciler between them. -/
namespace FlowFabric
open Foundation Finset

/-- The keys of a flow and what the reconcilers have read of them. A reconciler may act on what
it read at any time later, and several may be under way, so what was read once stays. -/
structure CancelState where
  keys : FlowKeys := noFlow
  (listed coreFound coreMissing sawEmpty : Bool := false)

/-- A call on the flow, or one command of a reconciler. -/
inductive CancelStep where
  | call (i : FlowInput)
  | zrangebyscore (now : ServerTime)
  | existsCore
  | srandmember
  | zremDrained
  | delPending
  | zremOrphan

def FlowKeys.dropBacklog (k : FlowKeys) (drop : Bool) : FlowKeys :=
  { k with cancelBacklog := if drop then none else k.cancelBacklog }

open FlowKeys

/-- A reconciler looks at the core of a flow that it found in the backlog, samples the pending
members of one that has a core, and drops the entry if there are none. -/
def cancelNext (server : Server) (step : CancelStep) (s : CancelState) : CancelState :=
  match step with
  | .call i => { s with keys := keysNext server i s.keys }
  | .zrangebyscore now => { s with listed := s.listed || s.keys.cancelBacklog.any (· ≤ now.ms) }
  | .existsCore =>
    { s with
      coreFound := s.coreFound || s.listed && s.keys.hasCore
      coreMissing := s.coreMissing || s.listed && !s.keys.hasCore }
  | .srandmember =>
    { s with sawEmpty := s.sawEmpty || s.coreFound && decide (s.keys.pendingCancels = ∅) }
  | .zremDrained => { s with keys := s.keys.dropBacklog s.sawEmpty }
  | .delPending =>
    { s with keys := { s.keys with pendingCancels := if s.coreMissing then ∅ else s.keys.pendingCancels } }
  | .zremOrphan => { s with keys := s.keys.dropBacklog s.coreMissing }

def cancelRun (server : Server) (steps : List CancelStep) : CancelState := runFrom (cancelNext server) {} steps

def CancelStep.acknowledges : CancelStep → Finset ExecutionId
  | .call ⟨_,.ackCancelMember eid⟩ => {eid}
  | _ => ∅

def acknowledged : List CancelStep → Finset ExecutionId
  | [] => ∅
  | step :: steps => step.acknowledges ∪ acknowledged steps

namespace FlowKeys
variable {server : Server} {now : ServerTime} {call : FlowCall} {k t : FlowKeys}

def isCancelled (k : FlowKeys) : Prop := k.core.lookup "public_flow_state" = some (.text "cancelled")

theorem isCancelled.hasCore (h : k.isCancelled) : k.hasCore = true := hasCore_of_lookup h

theorem isCancelled.isTerminal (h : k.isCancelled) : k.isTerminal = true := by
  have hp : k.publicFlowState = .text "cancelled" := by rw [publicFlowState,h]; rfl
  rw [FlowKeys.isTerminal,hp]
  rfl

theorem isCancelled_cancel (a : CancelArgs) (grace : Nat) : (k.cancel a now grace).isCancelled := by
  simp [isCancelled,cancel,cancelFields]

theorem migrateTags_backlog (moved : k.migrateTags server = some t) :
    t.members = k.members ∧ t.pendingCancels = k.pendingCancels ∧ t.cancelBacklog = k.cancelBacklog := by
  unfold migrateTags at moved
  split at moved
  · cases moved
    exact ⟨rfl,rfl,rfl⟩
  · split at moved <;> cases moved
    exact ⟨rfl,rfl,rfl⟩

theorem isCancelled.migrateTags (h : k.isCancelled) (moved : k.migrateTags server = some t) : t.isCancelled :=
  (lookup_migrateTags moved (by decide) (by decide)).trans h

theorem isCancelled.tag (h : k.isCancelled) (args : List String) : (k.tag args now).isCancelled := by
  simpa [isCancelled,FlowKeys.tag] using h

theorem isCancelled.effect (h : k.isCancelled) (effect : KeysEffect server now k call t) :
    t.isCancelled ∧ t.members = k.members ∧ ((∃ eid, call = .ackCancelMember eid ∧ t = k.acknowledge eid) ∨
        ((∀ eid, call ≠ .ackCancelMember eid) ∧
          t.pendingCancels = k.pendingCancels ∧ t.cancelBacklog = k.cancelBacklog)) := by
  cases effect with
  | refused call may =>
    refine ⟨h,rfl,.inr ⟨?_,rfl,rfl⟩⟩
    rintro eid rfl
    cases may
  | overflowed | listed | turnedAway => exact ⟨h,rfl,.inr ⟨by simp,rfl,rfl⟩⟩
  | created a absent => simp [h.hasCore] at absent
  | added a live going | staged a nowMs live going | cancelled a grace live going => simp [h.isTerminal] at going
  | acknowledged eid => exact ⟨h,rfl,.inl ⟨eid,rfl,rfl⟩⟩
  | migrated args t live valid moved =>
    obtain ⟨hm,hp,hb⟩ := migrateTags_backlog moved
    exact ⟨h.migrateTags moved,hm,.inr ⟨by simp,hp,hb⟩⟩
  | tagged args t live valid moved =>
    obtain ⟨hm,hp,hb⟩ := migrateTags_backlog moved
    exact ⟨(h.migrateTags moved).tag args,hm,.inr ⟨by simp,hp,hb⟩⟩

theorem isTerminal_congr (h : t.core.lookup "public_flow_state" = k.core.lookup "public_flow_state") :
    t.isTerminal = k.isTerminal := by
  unfold isTerminal publicFlowState
  rw [h]

private theorem isTerminal_of_absent (absent : k.hasCore = false) : k.isTerminal = false := by
  have hn : k.core.lookup "public_flow_state" = none := by
    cases hl : k.core.lookup "public_flow_state" with
    | none => rfl
    | some => rw [hasCore_of_lookup hl] at absent; cases absent
  have hp : k.publicFlowState = .text "" := by rw [publicFlowState,hn]; rfl
  rw [isTerminal,hp]
  rfl

private theorem effect_of_going (effect : KeysEffect server now k call t) (going : t.isTerminal = false) :
    k.isTerminal = false ∧
      (k.pendingCancels = ∅ → k.cancelBacklog = none → t.pendingCancels = ∅ ∧ t.cancelBacklog = none) := by
  cases effect with
  | refused | overflowed | listed | turnedAway a live going => exact ⟨going,fun hp hb => ⟨hp,hb⟩⟩
  | created a absent => exact ⟨isTerminal_of_absent absent,fun hp hb => ⟨hp,hb⟩⟩
  | added a live before | staged a nowMs live before => exact ⟨before,fun hp hb => ⟨hp,hb⟩⟩
  | cancelled a grace => simp [(isCancelled_cancel a grace).isTerminal] at going
  | acknowledged =>
    refine ⟨going,fun hp hb => ?_⟩
    simp [acknowledge,hp]
  | migrated args t live valid moved =>
    obtain ⟨-,hp,hb⟩ := migrateTags_backlog moved
    rw [isTerminal_congr (lookup_migrateTags moved (by decide) (by decide))] at going
    rw [hp,hb]
    exact ⟨going,fun hp hb => ⟨hp,hb⟩⟩
  | tagged args t live valid moved =>
    obtain ⟨-,hp,hb⟩ := migrateTags_backlog moved
    have same : (t.tag args now).isTerminal = t.isTerminal := isTerminal_congr (by simp [tag])
    rw [same,isTerminal_congr (lookup_migrateTags moved (by decide) (by decide))] at going
    rw [show (t.tag args now).pendingCancels = t.pendingCancels from rfl,
      show (t.tag args now).cancelBacklog = t.cancelBacklog from rfl,hp,hb]
    exact ⟨going,fun hp hb => ⟨hp,hb⟩⟩

private theorem graceMs_refuses (g : Option Argument) :
    Refuses (fun reply => ∃ code, reply = .fail code) (graceMs g) := by
  unfold graceMs
  split
  · simp
  · simp
  · simp
  · split <;> simp

theorem cancelFlow_accepted {a : CancelArgs} {policy : String} {M : Finset ExecutionId}
    (h : (commit k (k.cancelFlow a now)).1 = .cancelled policy M) :
    a.cancellationPolicy = policy ∧ k.members = M ∧ k.isTerminal = false ∧
      ∃ grace, (commit k (k.cancelFlow a now)).2 = k.cancel a now grace := by
  have refuses : Refuses (fun reply => ∃ code, reply = .fail code) (k.cancelFlow a now) := by
    simp [cancelFlow,graceMs_refuses]
  cases hx : k.cancelFlow a now with
  | error reply =>
    obtain ⟨code,rfl⟩ := refuses reply hx
    rw [hx] at h
    cases h
  | ok =>
    rw [hx] at h
    simp only [cancelFlow,bind_ok,ensure_ok] at hx
    obtain ⟨grace,-,_,-,_,going,hx⟩ := hx
    cases hx
    cases h
    exact ⟨rfl,rfl,going,grace,rfl⟩

theorem isCancelled.addExecutionToFlow (h : k.isCancelled) (member : FlowStore.MemberArgs) :
    (commit k (k.addExecutionToFlow member now)).1 = .fail .flowAlreadyTerminal := by
  have ended : ¬ k.isTerminal = false := by simp [h.isTerminal]
  rw [FlowKeys.addExecutionToFlow,ensure_of h.hasCore,ensure_of_not ended]
  rfl

end FlowKeys

namespace CancelState
variable {server : Server} {s : CancelState} {M acked : Finset ExecutionId}

/-- As long as a flow is going, nothing is owed and no reconciler has found it. -/
def Idle (s : CancelState) : Prop :=
  s.keys.isTerminal = false → s.keys.pendingCancels = ∅ ∧ s.keys.cancelBacklog = none ∧
    s.listed = false ∧ s.coreFound = false ∧ s.coreMissing = false ∧ s.sawEmpty = false

theorem idle_next (s : CancelState) (step : CancelStep) (h : s.Idle) : (cancelNext server step s).Idle := by
  intro going
  cases step with
  | call i =>
    obtain ⟨before,kept⟩ := effect_of_going (keysNext_effect i s.keys) going
    obtain ⟨hp,hb,rest⟩ := h before
    obtain ⟨hp,hb⟩ := kept hp hb
    exact ⟨hp,hb,rest⟩
  | zrangebyscore =>
    obtain ⟨hp,hb,hl,rest⟩ := h going
    exact ⟨hp,hb,by simp [cancelNext,hl,hb],rest⟩
  | existsCore =>
    obtain ⟨hp,hb,hl,hf,hm,he⟩ := h going
    exact ⟨hp,hb,hl,by simp [cancelNext,hf,hl],by simp [cancelNext,hm,hl],he⟩
  | srandmember =>
    obtain ⟨hp,hb,hl,hf,hm,he⟩ := h going
    exact ⟨hp,hb,hl,hf,hm,by simp [cancelNext,hf,he]⟩
  | zremDrained | zremOrphan =>
    obtain ⟨hp,hb,rest⟩ := h going
    exact ⟨hp,by simp [cancelNext,dropBacklog,hb],rest⟩
  | delPending =>
    obtain ⟨hp,rest⟩ := h going
    exact ⟨by simp [cancelNext,hp],rest⟩

/-- After the cancel: the members do not change, those that are not acknowledged are pending, and
the flow is in the backlog as long as there is one. -/
structure Owing (M acked : Finset ExecutionId) (s : CancelState) : Prop where
  cancelled : s.keys.isCancelled
  members : s.keys.members = M
  pending : s.keys.pendingCancels = M \ acked
  backlog : s.keys.cancelBacklog.isSome = true ↔ ¬ M ⊆ acked
  sawEmpty : s.sawEmpty = true → M ⊆ acked
  coreMissing : s.coreMissing = false

section
variable (h : s.Owing M acked)
include h

theorem Owing.reconcile (step : CancelStep) (hs : ∀ i, step ≠ .call i) : (cancelNext server step s).Owing M acked := by
  cases step with
  | call i => exact absurd rfl (hs i)
  | zrangebyscore => exact ⟨h.cancelled,h.members,h.pending,h.backlog,h.sawEmpty,h.coreMissing⟩
  | existsCore =>
    refine ⟨h.cancelled,h.members,h.pending,h.backlog,h.sawEmpty,?_⟩
    simp [cancelNext,h.coreMissing,h.cancelled.hasCore]
  | srandmember =>
    refine ⟨h.cancelled,h.members,h.pending,h.backlog,fun he => ?_,h.coreMissing⟩
    simp only [cancelNext,Bool.or_eq_true,Bool.and_eq_true,decide_eq_true_eq] at he
    rcases he with he | ⟨-,he⟩
    · exact h.sawEmpty he
    · rw [h.pending] at he
      exact sdiff_eq_empty_iff_subset.mp he
  | zremDrained =>
    refine ⟨h.cancelled,h.members,h.pending,?_,h.sawEmpty,h.coreMissing⟩
    cases he : s.sawEmpty with
    | false => simpa [cancelNext,dropBacklog,he] using h.backlog
    | true => simp [cancelNext,dropBacklog,he,h.sawEmpty he]
  | delPending =>
    refine ⟨h.cancelled,h.members,?_,h.backlog,h.sawEmpty,h.coreMissing⟩
    simpa [cancelNext,h.coreMissing] using h.pending
  | zremOrphan =>
    refine ⟨h.cancelled,h.members,h.pending,?_,h.sawEmpty,h.coreMissing⟩
    simpa [cancelNext,dropBacklog,h.coreMissing] using h.backlog

theorem Owing.next (step : CancelStep) : (cancelNext server step s).Owing M (acked ∪ step.acknowledges) := by
  cases step with
  | call i =>
    obtain ⟨now,call⟩ := i
    have effect : KeysEffect server now s.keys call (keysNext server ⟨now,call⟩ s.keys) :=
      keysNext_effect ⟨now,call⟩ s.keys
    obtain ⟨hc,hm,⟨eid,rfl,ht⟩ | ⟨other,hp,hb⟩⟩ := h.cancelled.effect effect
    · rw [cancelNext,ht,CancelStep.acknowledges,union_comm,← insert_eq]
      have left : s.keys.pendingCancels.erase eid = M \ insert eid acked := by rw [h.pending,sdiff_insert]
      refine ⟨h.cancelled,h.members,left,?_,fun he => ?_,h.coreMissing⟩
      · have drained : s.keys.pendingCancels.erase eid = ∅ ↔ M ⊆ insert eid acked := by
          rw [left,sdiff_eq_empty_iff_subset]
        simp only [acknowledge,drained]
        by_cases all : M ⊆ insert eid acked
        · simp [all]
        · have some_left : ¬ M ⊆ acked := fun hs => all (hs.trans (subset_insert eid acked))
          simpa [all] using h.backlog.mpr some_left
      · exact (h.sawEmpty he).trans (subset_insert eid acked)
    · have nobody : (CancelStep.call ⟨now,call⟩).acknowledges = ∅ := by
        cases call with
        | ackCancelMember eid => exact absurd rfl (other eid)
        | _ => rfl
      rw [nobody,union_empty]
      exact ⟨hc,hm.trans h.members,hp.trans h.pending,hb ▸ h.backlog,h.sawEmpty,h.coreMissing⟩
  | _ =>
    change Owing M (acked ∪ ∅) _
    rw [union_empty]
    exact h.reconcile _ (by simp)

theorem Owing.run (later : List CancelStep) :
    (runFrom (cancelNext server) s later).Owing M (acked ∪ acknowledged later) := by
  induction later generalizing s acked with
  | nil =>
    rw [acknowledged,union_empty]
    exact h
  | cons step later ih =>
    rw [acknowledged,← union_assoc]
    exact ih (h.next step)

end

theorem Idle.cancel (h : s.Idle) {a : FlowKeys.CancelArgs} (policy : a.cancellationPolicy = "cancel_all")
    {now : ServerTime} {grace : Nat} (going : s.keys.isTerminal = false) :
    ({ s with keys := s.keys.cancel a now grace } : CancelState).Owing s.keys.members ∅ := by
  obtain ⟨hp,hb,-,-,hm,he⟩ := h going
  refine ⟨FlowKeys.isCancelled_cancel a grace,rfl,?_,?_,fun hs => ?_,hm⟩
  · by_cases none_left : s.keys.members = ∅ <;>
      simp [FlowKeys.cancel,FlowKeys.owesCancels,policy,hp,none_left]
  · by_cases none_left : s.keys.members = ∅ <;>
      simp [FlowKeys.cancel,FlowKeys.owesCancels,policy,hb,none_left]
  · rw [he] at hs
    cases hs

end CancelState

/-- From a cancel with the policy cancel_all on, whatever calls and reconcilers follow: the pending
members are those at the cancel without the acknowledged ones, the flow is in the backlog exactly
as long as there is one, and no member joins any more. -/
theorem cancel_backlog_is_durable (server : Server) (earlier later : List CancelStep)
    (a : FlowKeys.CancelArgs) (now : ServerTime) (M : Finset ExecutionId)
    (accepted : (commit (cancelRun server earlier).keys ((cancelRun server earlier).keys.cancelFlow a now)).1 =
      .cancelled "cancel_all" M) :
    let t := cancelRun server (earlier ++ .call ⟨now,.cancelFlow a⟩ :: later)
    M = (cancelRun server earlier).keys.members ∧ t.keys.pendingCancels = M \ acknowledged later ∧
    (t.keys.cancelBacklog.isSome = true ↔ ¬ M ⊆ acknowledged later) ∧ t.keys.members = M ∧
    ∀ member time, (commit t.keys (t.keys.addExecutionToFlow member time)).1 = .fail .flowAlreadyTerminal := by
  intro t
  obtain ⟨policy,rfl,going,grace,hcancel⟩ := cancelFlow_accepted accepted
  have idle : (cancelRun server earlier).Idle :=
    runFrom_invariant CancelState.idle_next (fun _ => ⟨rfl,rfl,rfl,rfl,rfl,rfl⟩) earlier
  have owing : (cancelNext server (.call ⟨now,.cancelFlow a⟩) (cancelRun server earlier)).Owing
      (cancelRun server earlier).keys.members ∅ := by
    have hkeys : keysNext server ⟨now,.cancelFlow a⟩ (cancelRun server earlier).keys = _ := hcancel
    rw [cancelNext,hkeys]
    exact idle.cancel policy going
  have final : t.Owing (cancelRun server earlier).keys.members (acknowledged later) := by
    have ht : t = runFrom (cancelNext server) _ later := runFrom_append _ earlier _
    rw [ht,← empty_union (acknowledged later)]
    exact owing.run later
  exact ⟨rfl,final.pending,final.backlog,final.members,fun member _ => final.cancelled.addExecutionToFlow member⟩

namespace Client

def memberA : ExecutionId := ⟨"A",by decide⟩

def memberB : ExecutionId := ⟨"B",by decide⟩

def tick (ms : Nat) (call : FlowCall) : FlowInput := ⟨⟨ms % 10,by omega⟩,call⟩

def twoMembers : List FlowInput :=
  [tick 1 (.createFlow ⟨"f","batch","n"⟩),tick 2 (.addExecutionToFlow { flowId := "f", executionId := memberA }),
    tick 3 (.addExecutionToFlow { flowId := "f", executionId := memberB })]

def cancelAll : FlowKeys.CancelArgs where
  reason := "stop"
  cancellationPolicy := "cancel_all"

/-- One of the two members is acknowledged twice, and a reconciler passes by after the grace
period: the other member is still pending and the flow in the backlog. -/
theorem unacknowledged_member_stays_pending :
    let later := [.call (tick 5 (.ackCancelMember memberA)),.zrangebyscore ⟨40000,by decide⟩,.existsCore,
      .call (tick 6 (.ackCancelMember memberA)),.srandmember,.zremDrained]
    let t := cancelRun .strict (twoMembers.map .call ++ .call (tick 4 (.cancelFlow cancelAll)) :: later)
    t.keys.pendingCancels = {memberB} ∧ t.keys.cancelBacklog.isSome = true := by
  intro later t
  obtain ⟨-,pending,backlog,-⟩ := cancel_backlog_is_durable .strict (twoMembers.map .call) later cancelAll
    ⟨4,by decide⟩ {memberB,memberA} (by decide +kernel)
  exact ⟨pending.trans (by decide +kernel),backlog.mpr (by decide +kernel)⟩

end Client

end FlowFabric
