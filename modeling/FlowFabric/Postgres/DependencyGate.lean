import FlowFabric.Postgres.Leases
import FlowFabric.Postgres.Verdict

/-! The gate of an execution that depends on others. An edge that is applied raises a counter of the group
and leaves the execution alone, so the gate holds only if the execution was shut already. -/
namespace FlowFabric.Postgres
open Foundation Option CoreRow Db EdgeRow Nat

/-! ### Rows that no claim takes -/

/-- The execution has never been started, and it is not eligible. -/
structure Rows.Shut (r : Rows) : Prop where
  closed : r.core.lifecyclePhase = .submitted ∨ r.core.waitsForEdges ∨ r.core.isEnded
  noAttempts : r.attempts = ∅
  noSuspension : r.suspension = none
  noReclaim : ∀ g ∈ r.grants, g.kind ≠ .reclaim

namespace Rows.Shut
variable {r r' : Rows}

variable (h : r.Shut) (i : Nat) (now : Int)
include h

theorem blocked (hp : r.core.lifecyclePhase = .runnable) : r.core.eligibilityState = .blockedByDependencies := by
  rcases h.closed with hs | hw | he
  · cases hs.symm.trans hp
  · exact hw.2
  · rw [isEnded,hp] at he
    rcases he with he | he <;> cases he

theorem phase : r.core.lifecyclePhase ≠ .active ∧ r.core.lifecyclePhase ≠ .suspended := by
  rcases h.closed with hp | hw | hp | hp
  · rw [hp]; decide
  · rw [hw.1]; decide
  · rw [hp]; decide
  · rw [hp]; decide

theorem attempt : r.attempt i = none := by
  rw [Rows.attempt,h.noAttempts]
  rfl

theorem current : ¬ r.current.isSome = true := by
  rw [Rows.current,h.attempt]
  decide

theorem newestFree : r.newestFree now = none := by
  rw [Rows.newestFree,h.noAttempts]
  rfl

theorem reclaimGrant : r.reclaimGrant = none := by
  have none : r.grants.filter (·.kind = .reclaim) = [] := by
    rw [List.filter_eq_nil_iff]
    intro g hg
    rw [decide_eq_true_eq]
    exact h.noReclaim g hg
  rw [Rows.reclaimGrant,none]
  rfl

theorem overdue : ¬ r.overdue i now = true := by
  rw [Rows.overdue,h.attempt]
  exact Bool.false_ne_true

theorem fences (handle : Handle) : ¬ r.fences handle := by
  rw [Rows.fences,h.attempt]
  exact (some_ne_none _).symm

theorem not_reletting {w : Worker} {leaseTtlMs : Nat} {expires now : Int} {done : Committed}
    (hs : reletting w leaseTtlMs expires now r = .ok done) : False := by
  obtain ⟨row,hrow,-⟩ := (bind_ok _ _ _).mp hs
  rw [demand_ok,Rows.current,h.attempt] at hrow
  cases hrow

theorem not_eligible (hp : r.core.lifecyclePhase = .runnable) :
    ¬ (r.core.eligibilityState = .eligibleNow ∨ r.core.eligibilityState = .pendingClaim) := by
  rw [h.blocked hp]
  decide

private theorem not_handsOut (c : Call) : ¬ handsOut c r := by
  intro hout
  obtain ⟨op,now⟩ := c
  cases op with
  | claim =>
    have hc := claim_handsOut hout
    exact h.not_eligible hc.2.1 (.inl hc.2.2)
  | claimExecution =>
    obtain ⟨-,done,lease,hs,-⟩ := hout
    obtain ⟨hp,he,-⟩ := claimExecution_ok hs
    exact h.not_eligible hp (.inl he)
  | issueGrantAndClaim leaseDurationMs attemptId =>
    obtain ⟨-,done,lease,hs,-⟩ := hout
    by_cases ha : r.core.attemptState = .attemptInterrupted
    · change Postgres.issueGrantAndClaim leaseDurationMs attemptId now r = .ok done at hs
      rw [issueGrantAndClaim,if_pos ha] at hs
      exact h.not_reletting hs
    · obtain ⟨hp,he,-⟩ := issueGrantAndClaim_fresh ha hs
      exact h.not_eligible hp he
  | claimFromResumeGrant =>
    obtain ⟨i,hi⟩ := claimFromResumeGrant_handsOut hout
    cases (h.newestFree now).symm.trans hi
  | claimResumedExecution =>
    obtain ⟨-,done,lease,hs,-⟩ := hout
    obtain ⟨-,-,hs⟩ := (bind_ok _ _ _).mp hs
    exact h.not_reletting hs
  | reclaimExecution =>
    obtain ⟨-,done,lease,hs,hh⟩ := hout
    rcases reclaimExecution_ok hs with ⟨-,hn⟩ | ⟨-,g,hg,-⟩
    · exact hn lease hh
    · cases h.reclaimGrant.symm.trans hg
  | _ => cases hout.1

theorem update_attempts (f : AttemptRow → AttemptRow) : r.attempts.update i f = ∅ := by
  rw [h.noAttempts]
  rfl

theorem ended (he : r'.core.isEnded) (ha : r'.attempts = ∅) (hs : r'.suspension = r.suspension)
    (hg : r'.grants = r.grants) : r'.Shut :=
  ⟨.inr (.inr he),ha,hs.trans h.noSuspension,hg ▸ h.noReclaim⟩

end Rows.Shut

variable {r r' : Rows} {f d : Uuid} {g : GroupRow} {now : Int} {op : Op}

theorem WorkerWrites.shut {handle : Handle} {op : WorkerOp}
    (hw : WorkerWrites handle now r op r') (h : r.Shut) : r'.Shut := by
  cases hw with
  | appendFrame => exact ⟨h.closed,h.noAttempts,h.noSuspension,h.noReclaim⟩
  | renew hf | progress _ _ hf | complete _ hf | retry _ hf | fail _ _ hf | delay _ hf | waitChildren hf
  | suspend _ _ _ hf => exact absurd hf (h.fences handle)

theorem Writes.shut (hw : Writes now r op r') (h : r.Shut)
    (hu : op ≠ .unblock) (hr : op ≠ .replayExecution) : r'.Shut := by
  cases hw with
  | worker hw => exact hw.shut h
  | claim p hc | claimForWorker a lane capabilities budgetsAdmit g hc =>
    exact absurd (.inl hc.2.2) (h.not_eligible hc.2.1)
  | claimExecution a lease hp he | changePriority newPriority hp he => exact absurd (.inl he) (h.not_eligible hp)
  | claimByOperator leaseDurationMs attemptId lease ha hp he => exact absurd he (h.not_eligible hp)
  | promoteDelayed hp he => cases he.symm.trans (h.blocked hp)
  | resumeByOperator _ _ _ hs | claimResumedExecution _ _ hs => exact absurd hs h.current
  | claimFromResumeGrant t i hi => cases (h.newestFree now).symm.trans hi
  | reclaimCap a g hn hg | reclaim a g lease hn hg => cases h.reclaimGrant.symm.trans hg
  | issueReclaimGrant a g hc => exact absurd hc.1 h.phase.1
  | renewLease a hp | completeExecution a payload hp | failedRetry a maxRetries hp | failExecution a maxRetries hp
  | retryAttempt i hp | expireAttempt i hp | expireExecution hp => exact absurd hp h.phase.1
  | resumeExecution resumeDelayMs hp => exact absurd hp h.phase.2
  | releaseOne i ho => exact absurd ho (h.overdue i now)
  | deliver key s recorded hd =>
    rw [Rows.recorded,h.noSuspension] at hd
    cases hd
  | timeoutSignal row hs | expireSuspension row hs => cases h.noSuspension.symm.trans hs
  | close =>
    refine ⟨h.closed,h.noAttempts,?_,h.noReclaim⟩
    rw [closeUnder,h.noSuspension]
    rfl
  | cancel => exact h.ended (.inl rfl) (h.update_attempts _ _) rfl rfl
  | cancelExecution =>
    rw [Rows.cancelledBy]
    split
    · exact h.ended (.inr rfl) (h.update_attempts _ _) rfl rfl
    · exact h.ended (.inr rfl) h.noAttempts rfl rfl
  | revokeLease =>
    refine ⟨?_,h.update_attempts _ _,h.noSuspension,h.noReclaim⟩
    rw [Rows.revoked,Rows.updateCore_core]
    exact (if_neg h.phase.1).symm ▸ h.closed
  | joinFlow => exact ⟨h.closed,h.noAttempts,h.noSuspension,h.noReclaim⟩
  | cancelMember => exact h.ended (.inr rfl) (h.update_attempts _ _) rfl rfl
  | cancelHeader reason hn =>
    rw [Rows.updateCore,headerCancelled,if_neg hn]
    exact h.ended (.inr rfl) h.noAttempts rfl rfl
  | skip f hn =>
    rw [Rows.updateCore,skipped,if_neg hn]
    exact h.ended (.inl rfl) h.noAttempts rfl rfl
  | cancelSibling hn =>
    rw [Rows.updateCore,siblingCancelled,if_neg hn]
    exact h.ended (.inl rfl) h.noAttempts rfl rfl
  | unblock => exact absurd rfl hu
  | replayExecution => exact absurd rfl hr

/-! ### The gate -/

def succeedsIn (f u e : Uuid) (completion : Completion) : Bool :=
  decide (e = u ∧ completion.flowId = some f ∧ completion.outcome.kind = .success)

def Db.succeeded (db : Db) (f u : Uuid) : Bool := db.dispatched (succeedsIn f u)

/-- The group row of the execution, or the one that it starts from. -/
def Db.groupOf (db : Db) (f d : Uuid) : GroupRow := (db.groups.lookup (f,d)).getD {}

/-- An edge has been applied of which no success of the upstream has been dispatched. -/
def Db.awaits (db : Db) (f d : Uuid) : Prop :=
  0 < db.edgesTo f d fun edge => edge.applied && !db.succeeded f edge.upstream

/-- The group counts every applied edge, and no more successes than it may. -/
structure Gate (f d : Uuid) (db : Db) : Prop where
  rooted : Rooted f d db
  policy : (db.groupOf f d).policy = .allOf
  total : db.edgesTo f d applied ≤ (db.groupOf f d).total
  success : (db.groupOf f d).success ≤ db.edgesTo f d fun edge => edge.applied && db.succeeded f edge.upstream
  shut : db.awaits f d → ∀ r, db.rowsOf d = some r → r.Shut

section
variable {f d : Uuid} {db db' : Db}

theorem awaits_iff : db.awaits f d ↔
    (db.edgesTo f d fun edge => edge.applied && db.succeeded f edge.upstream) < db.edgesTo f d applied := by
  rw [awaits,edgesTo_split db f d applied fun edge => db.succeeded f edge.upstream]
  omega

theorem groupOf_drained
    (h : (db'.groups.lookup (f,d)).map GroupRow.drained = (db.groups.lookup (f,d)).map GroupRow.drained) :
    (db'.groupOf f d).drained = (db.groupOf f d).drained := by
  have through (o : Option GroupRow) : (o.getD {}).drained = (o.map GroupRow.drained).getD {} := by
    cases o <;> rfl
  rw [groupOf,groupOf,through,h,← through]

theorem Gate.still (h : Gate f d db) (hr : Rooted f d db')
    (he : ∀ p : Uuid → Bool, db'.edgesTo f d (fun edge => edge.applied && p edge.upstream) =
      db.edgesTo f d fun edge => edge.applied && p edge.upstream)
    (hs : ∀ u, db'.succeeded f u = db.succeeded f u) (hp : (db'.groupOf f d).policy = .allOf)
    (ht : (db.groupOf f d).total ≤ (db'.groupOf f d).total) (hc : (db'.groupOf f d).success = (db.groupOf f d).success)
    (hshut : (∀ r, db.rowsOf d = some r → r.Shut) → ∀ r, db'.rowsOf d = some r → r.Shut) : Gate f d db' := by
  have applied : db'.edgesTo f d applied = db.edgesTo f d applied := by simpa using he fun _ => true
  refine ⟨hr,hp,?_,?_,?_⟩
  · rw [applied]
    exact h.total.trans ht
  · simp only [hs]
    rw [hc,he fun u => db.succeeded f u]
    exact h.success
  · rw [awaits]
    simp only [hs]
    rw [he fun u => !db.succeeded f u]
    exact fun ha => hshut (h.shut ha)

end

/-! ### Requests -/

private theorem issues_quiet {q : Request} (hq : q.quiet f d = true) (h : q.issues d r op) :
    op ≠ .unblock ∧ op ≠ .replayExecution := by
  cases q with
  | call =>
    obtain ⟨-,rfl,ho⟩ := h
    constructor
    · rintro rfl
      cases ho
    · rintro rfl
      cases ho
  | replayExecution => exact absurd h.1.symm (of_decide_eq_true hq)
  | suspend | deliverSignal =>
    obtain ⟨-,_,rfl⟩ := h
    exact ⟨Op.noConfusion,Op.noConfusion⟩
  | closeWaitpoint =>
    obtain ⟨_,rfl⟩ := h
    exact ⟨Op.noConfusion,Op.noConfusion⟩
  | addExecutionToFlow =>
    obtain ⟨-,rfl,-⟩ := h
    exact ⟨Op.noConfusion,Op.noConfusion⟩
  | cancelFlow | cancelFlowHeader | dispatchOneGroup =>
    cases h
    exact ⟨Op.noConfusion,Op.noConfusion⟩
  | dispatchCompletion | reconcileTick => cases hq
  | _ => cases h

private theorem shut_after {q : Arrival} (hq : q.request.quiet f d = true) {db : Db}
    (h : ∀ r, db.rowsOf d = some r → r.Shut) : ∀ r, (after q db).rowsOf d = some r → r.Shut := by
  refine after_rows q (fun _ _ => ⟨.inl rfl,rfl,rfl,fun _ hg => by cases hg⟩) (fun c r hi hr => ?_) h
  obtain ⟨hu,hrep⟩ := issues_quiet hq hi
  exact next_of_writes hr fun _ hw => hw.shut hr hu hrep

/-! ### Dispatching an event -/

theorem Decision.write_shut {D : Decision} (hD : ∀ cancels, D ≠ .satisfied cancels) (h : r.Shut) (f : Uuid)
    (now : Int) : (D.write f now r).Shut := by
  cases D with
  | pending => exact h
  | satisfied cancels => exact absurd rfl (hD cancels)
  | impossible =>
    change (next ⟨.skip f,now⟩ r).Shut
    exact next_of_writes h fun _ hw => hw.shut h Op.noConfusion Op.noConfusion

theorem GroupRow.decision_of_lt (hp : g.policy = .allOf) (hlt : g.success < g.total) (cancels : Bool) :
    g.decision ≠ .satisfied cancels := by
  rw [decision,hp,EdgeDependencyPolicy.evaluate,if_neg fun h => Nat.ne_of_lt hlt h.1]
  split <;> exact Decision.noConfusion

theorem GroupRow.writes_shut (hp : g.policy = .allOf) (f : Uuid) (outcome : OutcomeKind) (now : Int)
    {w : Nat} (hlt : g.success + (if .success = outcome then w else 0) < g.total) (h : r.Shut) :
    (g.writes f outcome now w r).Shut := by
  induction w generalizing g r with
  | zero => exact h
  | succ w ih =>
    have success : (g.count outcome).success = g.success + if .success = outcome then 1 else 0 :=
      g.tally_count outcome .success
    have total : g.total ≤ (g.count outcome).total := g.total_iterate outcome 1
    have short : (g.count outcome).success + (if .success = outcome then w else 0) < (g.count outcome).total := by
      rw [success]
      split_ifs at hlt ⊢ <;> omega
    have policy : (g.count outcome).policy = .allOf := (g.policy_count outcome).trans hp
    refine ih policy short (Decision.write_shut ?_ h f now)
    exact GroupRow.decision_of_lt policy (by omega)

/-- A success of an upstream of the execution is dispatched once, when all of its edges are applied. -/
def OrderlyDispatch (f d : Uuid) (s : Db) (id : Nat) : Prop :=
  ∀ event, s.events[id]? = some event → event.dispatchedAtMs = none → event.completion.flowId = some f →
    event.completion.outcome.kind = .success → s.leads f event.executionId d → s.succeeded f event.executionId = false ∧
        (s.edgesTo f d fun edge => decide (edge.upstream = event.executionId) && !edge.applied) = 0

section
variable {f d : Uuid} {db : Db} {id : Nat}

theorem OrderlyDispatch.success_le (ho : OrderlyDispatch f d db id) {event : EventRow}
    (he : db.events[id]? = some event) (hn : event.dispatchedAtMs = none) (hf : event.completion.flowId = some f)
    (s' : Uuid → Bool)
    (hs' : ∀ v, s' v = (db.succeeded f v || succeedsIn f v event.executionId event.completion)) (stop : Option Nat) :
    (db.edgesTo f d fun edge => edge.applied && db.succeeded f edge.upstream) +
        (if .success = event.completion.outcome.kind then (db.within f event.executionId stop).count d else 0) ≤
      db.edgesTo f d fun edge => edge.applied && s' edge.upstream := by
  have grows : (db.edgesTo f d fun edge => edge.applied && db.succeeded f edge.upstream) ≤
      db.edgesTo f d fun edge => edge.applied && s' edge.upstream := by
    apply edgesTo_mono
    intro edge hp
    rw [Bool.and_eq_true] at hp ⊢
    exact ⟨hp.1,by rw [hs',hp.2]; rfl⟩
  have bound : (db.within f event.executionId stop).count d ≤ db.edgesTo f d fun edge => edge.upstream =
      event.executionId := by
    rw [← count_outgoing]
    exact (List.take_sublist _ _).count_le d
  split
  · rename_i hk
    by_cases hl : db.leads f event.executionId d
    · obtain ⟨hfresh,happlied⟩ := ho event he hn hf hk.symm hl
      have later (v : Uuid) : s' v = (db.succeeded f v || decide (v = event.executionId)) := by
        rw [hs',succeedsIn,hf,← hk]
        refine congrArg (db.succeeded f v || ·) (decide_eq_decide.mpr ?_)
        exact ⟨fun h => h.1.symm,fun h => ⟨h.symm,rfl,rfl⟩⟩
      have whole := edgesTo_split db f d (fun edge => edge.upstream = event.executionId) applied
      rw [happlied,Nat.add_zero] at whole
      rw [edgesTo_grow db f d applied later hfresh]
      refine Nat.add_le_add_left (bound.trans (le_of_eq (whole.trans ?_))) _
      exact edgesTo_ext fun _ _ _ _ => Bool.and_comm _ _
    · have none : (db.within f event.executionId stop).count d = 0 :=
        Nat.le_zero.mp (bound.trans (le_of_eq (Nat.eq_zero_of_not_pos hl)))
      rw [none]
      exact grows
  · exact grows

theorem Gate.dispatch (h : Gate f d db) (ho : OrderlyDispatch f d db id) (stop : Option Nat) (now : Int)
    (hr : Rooted f d (dispatchCompletion id stop now db).2) : Gate f d (dispatchCompletion id stop now db).2 := by
  have edges (p : EdgeRow → Bool) : (dispatchCompletion id stop now db).2.edgesTo f d p = db.edgesTo f d p :=
    edgesTo_congr edges_dispatch
  rcases h.rooted.counts id stop now with ⟨-,hg,hrow,hd⟩ | ⟨event,he,hn,hf,hg,hrow,hd⟩
  · have group := groupOf_drained hg
    refine h.still hr (fun _ => edges _) (fun u => hd _ fun _ _ hp => (of_decide_eq_true hp).2.1) ?_ ?_ ?_ ?_
    · exact (GroupRow.eq_of_drained GroupRow.policy (fun _ => rfl) group).trans h.policy
    · exact le_of_eq (GroupRow.eq_of_drained GroupRow.total (fun _ => rfl) group).symm
    · exact GroupRow.eq_of_drained GroupRow.success (fun _ => rfl) group
    · rw [hrow]
      exact fun hs => hs
  · have matched := ho.success_le he hn hf ((dispatchCompletion id stop now db).2.succeeded f) (fun _ => hd _) stop
    have shut (ha : (dispatchCompletion id stop now db).2.awaits f d) : ∀ r, db.rowsOf d = some r → r.Shut := by
      rw [awaits_iff,edges,edges] at ha
      exact h.shut (awaits_iff.mpr ((le_of_add_right_le matched).trans_lt ha))
    cases hl : db.groups.lookup (f,d) with
    | none =>
      have before : db.groupOf f d = {} := by rw [groupOf,hl]; rfl
      have group : (dispatchCompletion id stop now db).2.groupOf f d = {} := by
        rw [hl] at hg
        rw [groupOf,map_eq_none_iff.mp hg]
        rfl
      have total := h.total
      rw [before] at total
      refine ⟨hr,by rw [group],by rw [edges,group]; exact total,by rw [group]; exact zero_le _,fun ha => ?_⟩
      rw [hrow,hl]
      rw [map_none,getD_none,map_id_apply]
      exact shut ha
    | some g =>
      have before : db.groupOf f d = g := by rw [groupOf,hl]; rfl
      obtain ⟨policy,total,success⟩ : g.policy = .allOf ∧ db.edgesTo f d applied ≤ g.total ∧
          g.success ≤ db.edgesTo f d fun edge => edge.applied && db.succeeded f edge.upstream := by
        rw [← before]
        exact ⟨h.policy,h.total,h.success⟩
      rw [hl] at hg hrow
      obtain ⟨g',hl',hdrained⟩ := map_eq_some_iff.mp hg
      rw [← GroupRow.drained_iterate] at hdrained
      have group : (dispatchCompletion id stop now db).2.groupOf f d = g' := by rw [groupOf,hl']; rfl
      have counted : g'.success = g.success + if .success = event.completion.outcome.kind then
          (db.within f event.executionId stop).count d else 0 :=
        (GroupRow.eq_of_drained (fun g => g.tally .success) (fun _ => rfl) hdrained).trans (g.tally_iterate _ _ .success)
      have enough := (Nat.add_le_add_right success _).trans matched
      refine ⟨hr,?_,?_,?_,fun ha r hr' => ?_⟩
      · rw [group,GroupRow.eq_of_drained GroupRow.policy (fun _ => rfl) hdrained,GroupRow.policy_iterate,policy]
      · rw [edges,group,GroupRow.eq_of_drained GroupRow.total (fun _ => rfl) hdrained]
        exact total.trans (g.total_iterate _ _)
      · rw [group,counted,edges]
        exact enough
      · rw [hrow] at hr'
        obtain ⟨old,ho',rfl⟩ := map_eq_some_iff.mp hr'
        have short := awaits_iff.mp ha
        rw [edges,edges] at short
        exact GroupRow.writes_shut policy f _ now (lt_of_le_of_lt enough (lt_of_lt_of_le short total)) (shut ha old ho')

end
/-! ### Runs -/

/-- The dispatches of a tick, one after the other. -/
def redispatch (stop : Nat → Option Nat) (now : Int) (id : Nat) (db : Db) : Db :=
  (dispatchCompletion id (stop id) now db).2

private theorem reconcileTick_eq (filter : ScannerFilter) (staleThresholdMs : Int) (stop : Nat → Option Nat) (now : Int)
    (db : Db) : (reconcileTick filter staleThresholdMs stop now db).2 =
      runFrom (redispatch stop now) db (db.staleEvents filter (now - staleThresholdMs)) := by
  unfold reconcileTick
  generalize db.staleEvents filter (now - staleThresholdMs) = ids
  induction ids generalizing db with
  | nil => rfl
  | cons id ids ih => exact ih _

/-- An edge to the execution is applied under its name and while it is shut, the group stays one for all
upstreams, a success is dispatched once and after its edges are applied, and the execution is not replayed. -/
def Orderly (f d : Uuid) (s : Db) (q : Arrival) : Prop :=
  match q.request with
  | .applyDependencyToChild a => ∀ edge, s.edges.lookup (a.flowId,a.edgeId) = some edge → edge.applied = false →
      a.flowId = f → edge.downstream = d → a.downstream = d ∧ ∀ r, s.rowsOf d = some r → r.Shut
  | .setEdgeGroupPolicy f' d' policy => f' = f → d' = d → policy = .allOf
  | .replayExecution e => e = d → ∀ r, s.rowsOf d = some r → r.core.lifecyclePhase ≠ .terminal
  | .dispatchCompletion id _ => OrderlyDispatch f d s id
  | .reconcileTick filter staleThresholdMs stop =>
    Along (redispatch stop q.now) (OrderlyDispatch f d) s (s.staleEvents filter (q.now - staleThresholdMs))
  | _ => True

section
variable {f d : Uuid} {db : Db} {a : ApplyArgs}

theorem Gate.stage (h : Gate f d db) (a : StageArgs) (hr : Rooted f d ((stageDependencyEdge a db).db db)) :
    Gate f d ((stageDependencyEdge a db).db db) := by
  obtain hnone | ⟨-,hn,hdone⟩ := stageDependencyEdge_db a db
  · rw [hnone]
    exact h
  · rw [hdone] at hr ⊢
    refine h.still hr (fun p => ?_) (fun _ => rfl) h.policy (le_refl _) rfl (fun hs => hs)
    have inserted := edgesTo_insert db f d (fun edge => edge.applied && p edge.upstream) (a.flowId,a.edgeId)
      ⟨a.upstream,a.downstream,false⟩
    rw [hn,leadsTo,Bool.false_and,Bool.and_false] at inserted
    exact inserted

theorem groupOf_upsert {db' : Db} {k : Uuid × Uuid} {u : GroupRow → GroupRow}
    (hg : db'.groups = db.groups.upsert k (u {}) u) (f d : Uuid) :
    db'.groupOf f d = if (f,d) = k then u (db.groupOf f d) else db.groupOf f d := by
  rw [groupOf,hg,Table.lookup_upsert]
  split
  · rename_i heq
    rw [groupOf,heq]
    cases db.groups.lookup k <;> rfl
  · rfl

theorem Gate.setPolicy (h : Gate f d db) (hr : Rooted f d ((setEdgeGroupPolicy f d .allOf db).db db)) :
    Gate f d ((setEdgeGroupPolicy f d .allOf db).db db) := by
  obtain hnone | ⟨-,hdone⟩ := setEdgeGroupPolicy_db f d .allOf db
  · rw [hnone]
    exact h
  · have group := groupOf_upsert (congrArg groups hdone) f d
    rw [if_pos rfl] at group
    refine h.still hr ?_ ?_ ?_ ?_ ?_ ?_
    · rw [hdone]
      exact fun _ => rfl
    · rw [hdone]
      exact fun _ => rfl
    · rw [group]
    · rw [group]
      exact le_refl _
    · rw [group]
    · rw [hdone]
      exact fun hs => hs

private theorem edgesTo_applied {edge : EdgeRow} (hl : db.edges.lookup (a.flowId,a.edgeId) = some edge)
    (hn : edge.applied = false) (p : Uuid → Bool) :
    ((db.appliedTo a).edgesTo f d fun edge => edge.applied && p edge.upstream) =
      (db.edgesTo f d fun edge => edge.applied && p edge.upstream) +
        (decide (a.flowId = f ∧ edge.downstream = d) && p edge.upstream).toNat := by
  have inserted := edgesTo_insert db f d (fun edge => edge.applied && p edge.upstream) (a.flowId,a.edgeId)
    { edge with applied := true }
  have hupdate : (db.appliedTo a).edges = db.edges.insert (a.flowId,a.edgeId) { edge with applied := true } := by
    rw [appliedTo,Table.update,hl]
  rw [hl,elim_some,leadsTo,hn,Bool.false_and,Bool.and_false,leadsTo,Bool.true_and] at inserted
  exact (edgesTo_congr hupdate).trans inserted

theorem Gate.apply (h : Gate f d db)
    (ho : ∀ edge, db.edges.lookup (a.flowId,a.edgeId) = some edge → edge.applied = false →
      a.flowId = f → edge.downstream = d → a.downstream = d ∧ ∀ r, db.rowsOf d = some r → r.Shut)
    (hr : Rooted f d ((applyDependencyToChild a db).db db)) : Gate f d ((applyDependencyToChild a db).db db) := by
  obtain hnone | ⟨edge,hl,hn,hdone⟩ := applyDependencyToChild_db a db
  · rw [hnone]
    exact h
  rw [hdone] at hr ⊢
  have edges (p : Uuid → Bool) := edgesTo_applied (f := f) (d := d) hl hn p
  have group : (db.appliedTo a).groupOf f d = _ := groupOf_upsert (u := fun g => { g with running := g.running + 1 }) rfl f d
  by_cases hlead : a.flowId = f ∧ edge.downstream = d
  · obtain ⟨hd,hshut⟩ := ho edge hl hn hlead.1 hlead.2
    rw [if_pos (by rw [hd,hlead.1])] at group
    have applied := edges fun _ => true
    simp only [hlead,Bool.and_true] at applied
    refine ⟨hr,by rw [group]; exact h.policy,?_,?_,fun _ => hshut⟩
    · rw [group]
      refine (le_of_eq applied).trans (succ_le_succ h.total)
    · rw [group]
      refine h.success.trans ?_
      exact (le_add_right _ _).trans (le_of_eq (edges (db.succeeded f)).symm)
  · have same (p : Uuid → Bool) := edges p
    simp only [hlead,decide_false,Bool.false_and,Bool.toNat_false,add_zero] at same
    refine h.still hr same (fun _ => rfl) ?_ ?_ ?_ (fun hs => hs) <;> rw [group] <;> split
    · exact h.policy
    · exact h.policy
    · exact le_succ _
    · exact le_refl _
    · rfl
    · rfl

theorem Gate.after (h : Gate f d db) {q : Arrival} (ho : Orderly f d db q) : Gate f d (after q db) := by
  by_cases hquiet : q.request.quiet f d = true
  · have quiet := after_quiet hquiet db
    have group := groupOf_drained quiet.group
    refine h.still (h.rooted.after q) (fun _ => quiet.edges _) (fun _ => quiet.events.dispatched _) ?_ ?_ ?_
      (shut_after hquiet)
    · exact (GroupRow.eq_of_drained GroupRow.policy (fun _ => rfl) group).trans h.policy
    · exact le_of_eq (GroupRow.eq_of_drained GroupRow.total (fun _ => rfl) group).symm
    · exact GroupRow.eq_of_drained GroupRow.success (fun _ => rfl) group
  have hr := h.rooted.after q
  obtain ⟨request,now⟩ := q
  cases request with
  | stageDependencyEdge a => exact h.stage a hr
  | applyDependencyToChild => exact h.apply ho hr
  | setEdgeGroupPolicy f' d' =>
    have same : f' = f ∧ d' = d := by simpa [Request.quiet] using hquiet
    obtain ⟨rfl,rfl⟩ := same
    cases ho rfl rfl
    exact h.setPolicy hr
  | replayExecution e =>
    have same : e = d := by simpa [Request.quiet] using hquiet
    subst same
    have refused : (replayOn e now db).db db = db := by
      obtain hnone | ⟨r,done,hrow,hs,-⟩ := replayOn_db e now db
      · exact hnone
      · obtain ⟨_,hp,-⟩ := (bind_ok _ _ _).mp hs
        exact absurd ((ensure_ok _ _ _).mp hp) (ho rfl r hrow)
    change Gate f e ((replayOn e now db).db db)
    rw [refused]
    exact h
  | dispatchCompletion id stop => exact h.dispatch ho stop now hr
  | reconcileTick filter staleThresholdMs stop =>
    change Gate f d (reconcileTick filter staleThresholdMs stop now db).2
    rw [reconcileTick_eq]
    refine Along.invariant (I := Gate f d) (fun s id hs ho => ?_) h ho
    exact hs.dispatch ho (stop id) now (hs.rooted.after ⟨.dispatchCompletion id (stop id),now⟩)
  | _ => exact absurd rfl hquiet

end

/-- Nothing leads to the execution yet, and its group is one for all upstreams. -/
structure Ungated (f d : Uuid) (db : Db) : Prop where
  rooted : Rooted f d db
  noEdges : (db.edgesTo f d fun _ => true) = 0
  policy : (db.groupOf f d).policy = .allOf
  success : (db.groupOf f d).success = 0

theorem Ungated.gate {db : Db} (h : Ungated f d db) : Gate f d db := by
  have none (p : EdgeRow → Bool) : db.edgesTo f d p = 0 :=
    le_zero.mp ((edgesTo_mono fun _ _ => rfl).trans (le_of_eq h.noEdges))
  refine ⟨h.rooted,h.policy,by rw [none]; exact zero_le _,by rw [h.success]; exact zero_le _,fun ha => ?_⟩
  rw [awaits,none] at ha
  exact absurd ha (lt_irrefl 0)

/-- Along an orderly run no claim hands the execution out while an applied edge waits for a success. -/
theorem gate_closed {f d : Uuid} {db : Db} (h : Ungated f d db) (qs : List Arrival)
    (ho : Along after (Orderly f d) db qs) :
    let s := runFrom after db qs
    s.awaits f d → ∀ r, s.rowsOf d = some r → ∀ c, ¬ handsOut c r := by
  intro s ha r hr c
  have gate : Gate f d s := Along.invariant (I := Gate f d) (fun _ _ hs ho => hs.after ho) h.gate ho
  exact (gate.shut ha r hr).not_handsOut c

namespace Client

/-- A flow of three executions, of which the third is the one to be gated. -/
def members (child : Rows) : Db :=
  runFrom after { partition with execs := (partition.execs.insert 2 fresh).insert 3 child }
    [⟨.createFlow 9,0⟩,⟨.addExecutionToFlow 9 1,1⟩,⟨.addExecutionToFlow 9 2,2⟩,⟨.addExecutionToFlow 9 3,3⟩]

/-- An edge is staged and applied, and its upstream is claimed. -/
def gating : List Arrival :=
  [⟨.stageDependencyEdge ⟨9,21,1,3,3⟩,4⟩,⟨.applyDependencyToChild ⟨9,21,3⟩,5⟩,takes 1 alice 6]

private theorem members_ungated : Ungated 9 3 (members blocked) where
  rooted := ⟨⟨_,rfl,rfl⟩,fun _ _ hl => by cases hl⟩
  noEdges := rfl
  policy := rfl
  success := rfl

theorem gating_orderly : Along after (Orderly 9 3) (members blocked) gating := by
  refine ⟨trivial,?_,trivial,trivial⟩
  intro edge _ _ _ _
  refine ⟨rfl,fun r hr => ?_⟩
  cases hr
  exact ⟨.inr (.inl ⟨rfl,rfl⟩),rfl,rfl,fun _ hg => by cases hg⟩

/-- An execution that is blocked when the edge is applied stays out of reach. -/
theorem blocked_gated : (runFrom after (members blocked) gating).awaits 9 3 ∧
      ∀ r, (runFrom after (members blocked) gating).rowsOf 3 = some r → ∀ c, ¬ handsOut c r :=
  have awaits : (runFrom after (members blocked) gating).awaits 9 3 := zero_lt_one
  ⟨awaits,gate_closed members_ungated gating gating_orderly awaits⟩

/-- The first edge is staged and not applied, and its upstream is completed. -/
def unapplied : List Arrival :=
  [⟨.stageDependencyEdge ⟨9,21,1,3,3⟩,4⟩,⟨.stageDependencyEdge ⟨9,22,2,3,4⟩,5⟩,⟨.applyDependencyToChild ⟨9,22,3⟩,6⟩,
    takes 1 alice 7,⟨.call 1 (.worker ⟨0,1,10⟩ (.complete none)),8⟩,⟨.dispatchCompletion 0 none,9⟩]

def replayed : List Arrival :=
  [⟨.stageDependencyEdge ⟨9,21,1,3,3⟩,4⟩,⟨.applyDependencyToChild ⟨9,21,3⟩,5⟩,⟨.call 3 (.cancel "stop"),6⟩,
    ⟨.replayExecution 3,7⟩]

/-- A claim gets the execution while an applied edge waits, if it was eligible before the edge was applied, if
the end of another upstream was counted whose edge was not applied, or if it was cancelled and replayed. -/
theorem applied_claimed :
    let s := runFrom after (members fresh) gating
    let s' := runFrom after (members blocked) unapplied
    let s'' := runFrom after (members blocked) replayed
    (s.awaits 9 3 ∧ ∃ r, s.rowsOf 3 = some r ∧ handsOut (claims bob 20) r) ∧
      (s'.awaits 9 3 ∧ ∃ r, s'.rowsOf 3 = some r ∧ handsOut (claims bob 20) r) ∧
      s''.awaits 9 3 ∧ ∃ r, s''.rowsOf 3 = some r ∧ handsOut (claims bob 20) r :=
  ⟨⟨zero_lt_one,_,rfl,rfl,_,_,rfl,rfl⟩,⟨zero_lt_one,_,rfl,rfl,_,_,rfl,rfl⟩,zero_lt_one,_,rfl,rfl,_,_,rfl,rfl⟩

end Client
end FlowFabric.Postgres
