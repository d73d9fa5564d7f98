import FlowFabric.Postgres.Requests

/-! Suspensions that are over. The row of a suspension outlives it, and neither a signal nor the timeout
looks at the phase of the execution. -/
namespace FlowFabric.Postgres
open Foundation Option

def CoreRow.shown (c : CoreRow) : Phase × Eligibility × Public := (c.lifecyclePhase,c.eligibilityState,c.publicState)

def Request.wakes : Request → Bool
  | .deliverSignal _ | .call _ .expireSuspension => true
  | _ => false

/-! ### What they do -/

/-- The signal is accepted, and satisfies the condition of the suspension row. -/
def Resumes (a : DeliverArgs) (db : Db) (r : Rows) : Prop :=
  ∃ row, authenticate a db = .ok row ∧ (r.recorded row.waitpointKey a.signal).any SuspensionRow.satisfied = true

/-- The suspension row is due, and its timeout ends the execution. -/
def TimesOut (now : Int) (r : Rows) : Prop :=
  ∃ row ∈ r.suspension, row.due now = true ∧ row.timeoutBehavior ≠ .autoResumeWithTimeoutSignal

theorem shown_deliver (key : String) (s : Signal) (now : Int) (r : Rows) : (next ⟨.deliver key s,now⟩ r).core.shown =
      if (r.recorded key s).any SuspensionRow.satisfied = true then (.runnable,.eligibleNow,.resumable)
      else r.core.shown := by
  rw [next,step,deliverUnder_rows]
  cases r.recorded key s with
  | none => rfl
  | some recorded =>
    rw [map_some,getD_some,any_some,Rows.signalled]
    by_cases hs : recorded.satisfied = true
    · rw [if_pos hs,if_pos hs]
      rfl
    · rw [if_neg hs,if_neg hs]

variable {r : Rows} (s : Traced) {now : Int}

theorem shown_expireSuspension (h : TimesOut now r) :
    (next ⟨.expireSuspension,now⟩ r).core.shown = (.terminal,.notApplicable,r.core.publicState) := by
  obtain ⟨row,hs,hd,hb⟩ := h
  rw [next,step,expireSuspension_ends hs hd hb]
  rfl

private theorem shown_expireSuspension_of_not (h : ¬ TimesOut now r) :
    (next ⟨.expireSuspension,now⟩ r).core.shown = r.core.shown := by
  rcases next_writes ⟨.expireSuspension,now⟩ r with he | hw
  · rw [he]
  · generalize next ⟨.expireSuspension,now⟩ r = r' at hw
    cases hw with
    | timeoutSignal => rfl
    | expireSuspension row hs hd hb => exact absurd ⟨row,hs,hd,hb⟩ h

/-! ### Histories -/

/-- The tables, and for every execution the waitpoints that were bound when its suspension row was
written. -/
structure Traced where
  db : Db
  bound : Uuid → List String

def observe (q : Arrival) (s : Traced) : Traced where
  db := after q s.db
  bound :=
    match q.request, (serve q s.db).1 with
    | .suspend e _ a, .ok (.reply (.suspended _)) => Function.update s.bound e (a.waitpoints.map bindingId)
    | _, _ => s.bound

/-- A signal or a timeout moves a suspended execution only, and a signal only one whose suspension has
bound its waitpoint. -/
def Proper (s : Traced) (q : Arrival) : Prop :=
  q.request.wakes = true → ∀ e r r', s.db.rowsOf e = some r → (after q s.db).rowsOf e = some r' →
    r'.core.shown ≠ r.core.shown →
      r.core.lifecyclePhase = .suspended ∧ ∀ a, q.request = .deliverSignal a → a.waitpointId ∈ s.bound e

/-- The same as a condition on the request. A move to where the execution is already is none. -/
def Guarded (s : Traced) (q : Arrival) : Prop :=
  match q.request with
  | .deliverSignal a => ∀ r, s.db.rowsOf a.executionId = some r → Resumes a s.db r →
      r.core.shown = (.runnable,.eligibleNow,.resumable) ∨
        r.core.lifecyclePhase = .suspended ∧ a.waitpointId ∈ s.bound a.executionId
  | .call e .expireSuspension => ∀ r, s.db.rowsOf e = some r → TimesOut q.now r →
      r.core.lifecyclePhase = .terminal ∧ r.core.eligibilityState = .notApplicable ∨ r.core.lifecyclePhase = .suspended
  | _ => True

private theorem proper_deliver_iff (a : DeliverArgs) (now : Int) :
    Proper s ⟨.deliverSignal a,now⟩ ↔ Guarded s ⟨.deliverSignal a,now⟩ := by
  have left : ∀ e, (after ⟨.deliverSignal a,now⟩ s.db).rowsOf e = ((deliverSignal a now s.db).db s.db).rowsOf e :=
    fun _ => rfl
  constructor
  · intro h r hr hres
    obtain ⟨row,ha,hs⟩ := hres
    have moved := left a.executionId
    rw [rowsOf_deliverSignal ha,if_pos rfl,hr,map_some] at moved
    have shown := shown_deliver row.waitpointKey a.signal now r
    rw [if_pos hs] at shown
    by_cases hsame : r.core.shown = (.runnable,.eligibleNow,.resumable)
    · exact .inl hsame
    · have hmove := h rfl a.executionId r _ hr moved (by rw [shown]; exact Ne.symm hsame)
      exact .inr ⟨hmove.1,hmove.2 a rfl⟩
  · intro h _ e r r' hr hr' hmove
    rw [left] at hr'
    cases ha : authenticate a s.db with
    | error =>
      rw [deliverSignal_of_error ha,hr,some.injEq] at hr'
      exact absurd (by rw [hr']) hmove
    | ok row =>
      rw [rowsOf_deliverSignal ha] at hr'
      split at hr'
      · rename_i he
        subst he
        rw [hr,map_some,some.injEq] at hr'
        subst hr'
        rw [shown_deliver] at hmove
        by_cases hs : (r.recorded row.waitpointKey a.signal).any SuspensionRow.satisfied = true
        · rw [if_pos hs] at hmove
          obtain ⟨hp,hb⟩ := (h r hr ⟨row,ha,hs⟩).resolve_left (Ne.symm hmove)
          refine ⟨hp,?_⟩
          intro a' ha'
          cases ha'
          exact hb
        · rw [if_neg hs] at hmove
          exact absurd rfl hmove
      · rw [hr,some.injEq] at hr'
        exact absurd (by rw [hr']) hmove

theorem proper_timeout_iff (e : Uuid) (now : Int) :
    Proper s ⟨.call e .expireSuspension,now⟩ ↔ Guarded s ⟨.call e .expireSuspension,now⟩ := by
  have left (e' : Uuid) : (after ⟨.call e .expireSuspension,now⟩ s.db).rowsOf e' =
      if e' = e then (s.db.rowsOf e).map (next ⟨.expireSuspension,now⟩) else s.db.rowsOf e' := by
    refine (rowsOf_callOn e ⟨.expireSuspension,now⟩ s.db e').trans ?_
    simp only [Op.own,and_true]
  constructor
  · intro h r hr ht
    have moved := left e
    rw [if_pos rfl,hr,map_some] at moved
    by_cases hsame : r.core.lifecyclePhase = .terminal ∧ r.core.eligibilityState = .notApplicable
    · exact .inl hsame
    · refine .inr (h rfl e r _ hr moved ?_).1
      rw [shown_expireSuspension ht]
      intro heq
      rw [CoreRow.shown,Prod.mk.injEq,Prod.mk.injEq] at heq
      exact hsame ⟨heq.1.symm,heq.2.1.symm⟩
  · intro h _ e' r r' hr hr' hmove
    rw [left] at hr'
    split at hr'
    · rename_i he
      subst he
      rw [hr,map_some,some.injEq] at hr'
      subst hr'
      by_cases ht : TimesOut now r
      · rw [shown_expireSuspension ht] at hmove
        refine ⟨(h r hr ht).resolve_left ?_,?_⟩
        · rintro ⟨hp,he⟩
          exact hmove (by rw [CoreRow.shown,hp,he])
        · intro a ha
          cases ha
      · rw [shown_expireSuspension_of_not ht] at hmove
        exact absurd rfl hmove
    · rw [hr,some.injEq] at hr'
      exact absurd (by rw [hr']) hmove

theorem proper_iff_guarded (q : Arrival) : Proper s q ↔ Guarded s q := by
  obtain ⟨request,now⟩ := q
  cases request with
  | deliverSignal a => exact proper_deliver_iff s a now
  | call e op =>
    cases op with
    | expireSuspension => exact proper_timeout_iff s e now
    | _ => exact iff_of_true (fun h => Bool.noConfusion h) trivial
  | _ => exact iff_of_true (fun h => Bool.noConfusion h) trivial

/-- Over every history signals and timeouts move only what they may exactly as long as each of them that
acts finds the execution suspended, and its waitpoint bound by that suspension. -/
theorem moves_proper_iff (s : Traced) (qs : List Arrival) : Along observe Proper s qs ↔ Along observe Guarded s qs := by
  have same : Proper = Guarded := by
    funext s q
    exact propext (proper_iff_guarded s q)
  rw [same]

namespace Client

def approval : SuspendArgs :=
  { suspensionId := 7
    waitpoints := [.fresh "w1" "approval"], condition := .single "approval" .wildcard, timeoutAt := some 100 }

/-- The execution is suspended, a signal satisfies its condition, and a worker claims it again. -/
def resumed : Traced :=
  runFrom observe ⟨partition,fun _ => []⟩
    [takes 1 alice 1,⟨.suspend 1 ⟨0,1,10⟩ approval,2⟩,
      ⟨.deliverSignal (approves "w1" "s1"),3⟩,⟨.call 1 (.claimResumedExecution ⟨bob,1000⟩),4⟩]

def timesOut : Arrival := ⟨.call 1 .expireSuspension,150⟩

def pending : Arrival := ⟨.createWaitpoint 1 "w2" "approval" 1000,5⟩

def shownAfter (qs : List Arrival) : Option (Phase × Eligibility × Public) :=
  ((runFrom observe resumed qs).db.rowsOf 1).map fun r => r.core.shown

/-- The timeout of a suspension that is over ends an execution that runs, and a signal for a waitpoint that
it has not bound takes it from its worker. -/
theorem running_moved : shownAfter [] = some (.active,.notApplicable,.running) ∧
      shownAfter [timesOut] = some (.terminal,.notApplicable,.running) ∧ ¬ Proper resumed timesOut ∧
      shownAfter [pending] = some (.active,.notApplicable,.running) ∧ "w2" ∉ resumed.bound 1 ∧
      shownAfter [pending,⟨.deliverSignal (approves "w2" "s2"),6⟩] = some (.runnable,.eligibleNow,.resumable) := by
  have back : resumed.db = after ⟨.call 1 (.claimResumedExecution ⟨bob,1000⟩),4⟩ _ :=
    congrArg (after _) (congrArg Prod.snd (serve_approves rfl rfl rfl 3).2)
  obtain ⟨runs,ends,waits,taken⟩ : shownAfter [] = some (.active,.notApplicable,.running) ∧
      shownAfter [timesOut] = some (.terminal,.notApplicable,.running) ∧
      shownAfter [pending] = some (.active,.notApplicable,.running) ∧
      shownAfter [pending,⟨.deliverSignal (approves "w2" "s2"),6⟩] = some (.runnable,.eligibleNow,.resumable) := by
    unfold shownAfter
    change (resumed.db.rowsOf 1).map _ = _ ∧ ((after timesOut resumed.db).rowsOf 1).map _ = _ ∧
      ((after pending resumed.db).rowsOf 1).map _ = _ ∧ ((serve _ (after pending resumed.db)).2.rowsOf 1).map _ = _
    rw [back,(serve_approves rfl rfl rfl 6).2]
    exact ⟨rfl,rfl,rfl,rfl⟩
  refine ⟨runs,ends,?_,waits,by decide,taken⟩
  intro h
  obtain ⟨r,hr,shown⟩ := map_eq_some_iff.mp runs
  obtain ⟨r',hr',shown'⟩ := map_eq_some_iff.mp ends
  obtain ⟨suspended,-⟩ := h rfl 1 r r' hr hr' (by rw [shown,shown']; decide)
  rw [CoreRow.shown,suspended] at shown
  cases shown

end Client
end FlowFabric.Postgres
