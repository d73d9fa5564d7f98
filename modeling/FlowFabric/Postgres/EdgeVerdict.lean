import FlowFabric.Postgres.Literals
import FlowFabric.Postgres.Verdict

/-! The verdicts of edge groups over runs. The counters are counts of the edges that lead to the execution,
and the verdict is applied again at every event that is counted after it. -/
namespace FlowFabric.Postgres
open Foundation GroupRow CoreRow Option

/-! ### The counters -/

def endsIn (f u e : Uuid) (completion : Completion) : Bool := decide (e = u ∧ completion.flowId = some f)

def Db.counted (db : Db) (f u : Uuid) : Bool := db.dispatched (endsIn f u)

/-- The edges from upstreams with an outcome of this kind that have been counted. -/
def Db.tally (db : Db) (f d : Uuid) (outcomes : Uuid → Outcome) (k : OutcomeKind) : Nat :=
  db.edgesTo f d fun edge => decide ((outcomes edge.upstream).kind = k) && db.counted f edge.upstream

theorem edgesTo_kinds (db : Db) (f d : Uuid) (outcomes : Uuid → Outcome) (c : Uuid → Bool) :
    (db.edgesTo f d fun edge => decide ((outcomes edge.upstream).kind = .success) && c edge.upstream) +
        (db.edgesTo f d fun edge => decide ((outcomes edge.upstream).kind = .fail) && c edge.upstream) +
        (db.edgesTo f d fun edge => decide ((outcomes edge.upstream).kind = .skip) && c edge.upstream) =
      db.edgesTo f d fun edge => c edge.upstream := by
  have first := edgesTo_split db f d (fun edge => c edge.upstream) fun edge => (outcomes edge.upstream).kind = .success
  have second := edgesTo_split db f d
    (fun edge => c edge.upstream && !decide ((outcomes edge.upstream).kind = .success))
    fun edge => (outcomes edge.upstream).kind = .fail
  rw [first,second,← Nat.add_assoc]
  refine congrArg₂ (· + ·) (congrArg₂ (· + ·) ?_ ?_) ?_ <;> apply edgesTo_ext <;> intro _ edge _ _
  · exact Bool.and_comm _ _
  · cases (outcomes edge.upstream).kind <;> cases c edge.upstream <;> rfl
  · cases (outcomes edge.upstream).kind <;> cases c edge.upstream <;> rfl

/-- The upstreams of the execution end once each, with these outcomes. -/
structure Assigned (f d : Uuid) (outcomes : Uuid → Outcome) (db : Db) : Prop where
  outcome : ∀ (id : Nat) event, db.events[id]? = some event → event.completion.flowId = some f →
    db.leads f event.executionId d → event.completion.outcome = outcomes event.executionId
  once : ∀ (id id' : Nat) event event', db.events[id]? = some event → db.events[id']? = some event' →
    event.completion.flowId = some f → event'.completion.flowId = some f →
    event'.executionId = event.executionId → db.leads f event.executionId d → id' = id

variable {outcomes : Uuid → Outcome}

/-- The group of an execution with so many edges, of which so many succeed in the end. -/
structure Watched (f d : Uuid) (outcomes : Uuid → Outcome) (policy : EdgeDependencyPolicy) (n wins : Nat) (db : Db) :
    Prop where
  rooted : Rooted f d db
  assigned : Assigned f d outcomes db
  unskipped : ∀ r, db.rowsOf d = some r → r.Unskipped
  edges : (db.edgesTo f d fun _ => true) = n
  wins : (db.edgesTo f d fun edge => (outcomes edge.upstream).kind = .success) = wins
  group : ∃ g, db.groups.lookup (f,d) = some g ∧ g.Sized policy n ∧ ∀ k, g.tally k = db.tally f d outcomes k

def Db.verdict (db : Db) (f d : Uuid) : Decision := ((db.groups.lookup (f,d)).map decision).getD .pending

section
variable {f d : Uuid} {policy : EdgeDependencyPolicy} {n wins : Nat} {db db' : Db} {id : Nat}

theorem tally_congr (he : ∀ p : Uuid → Bool, (db'.edgesTo f d fun edge => p edge.upstream) = db.edgesTo f d fun edge => p edge.upstream)
    (hc : ∀ u, db.leads f u d → db'.counted f u = db.counted f u) (k : OutcomeKind) :
    db'.tally f d outcomes k = db.tally f d outcomes k := by
  refine (he fun u => decide ((outcomes u).kind = k) && db'.counted f u).trans (edgesTo_ext ?_)
  intro id edge hl hd
  rw [hc edge.upstream (leads_of_lookup hl hd)]

private theorem verdict_congr (h : (db'.groups.lookup (f,d)).map drained = (db.groups.lookup (f,d)).map drained) :
    db'.verdict f d = db.verdict f d := by
  have through (o : Option GroupRow) : o.map decision = (o.map drained).map decision := by
    cases o <;> rfl
  rw [Db.verdict,Db.verdict,through,h,← through]

theorem Watched.still (h : Watched f d outcomes policy n wins db) (hr : Rooted f d db') (ha : Assigned f d outcomes db')
    (hu : ∀ r, db'.rowsOf d = some r → r.Unskipped)
    (he : ∀ p : Uuid → Bool, (db'.edgesTo f d fun edge => p edge.upstream) = db.edgesTo f d fun edge => p edge.upstream)
    (hc : ∀ u, db.leads f u d → db'.counted f u = db.counted f u)
    (hg : (db'.groups.lookup (f,d)).map drained = (db.groups.lookup (f,d)).map drained) :
    Watched f d outcomes policy n wins db' where
  rooted := hr
  assigned := ha
  unskipped := hu
  edges := (he fun _ => true).trans h.edges
  wins := (he fun u => (outcomes u).kind = .success).trans h.wins
  group := by
    obtain ⟨g,hl,hs,ht⟩ := h.group
    rw [hl,map_some] at hg
    obtain ⟨g',hl',hd⟩ := map_eq_some_iff.mp hg
    refine ⟨g',hl',hs.of_drained hd,fun k => ?_⟩
    rw [tally_congr he hc,← ht]
    exact eq_of_drained (fun g => g.tally k) (fun _ => rfl) hd

/-! ### Dispatching an event -/

/-- The event is one of an upstream of the execution, and has not been dispatched. -/
def Db.hits (db : Db) (f d : Uuid) (id : Nat) : Prop :=
  ∃ event, db.events[id]? = some event ∧ event.dispatchedAtMs = none ∧ event.completion.flowId = some f ∧
    db.leads f event.executionId d

theorem Rooted.dispatch_misses (h : Rooted f d db) (hm : ¬ db.hits f d id) (now : Int) :
    let db' := (dispatchCompletion id none now db).2
    (db'.groups.lookup (f,d)).map drained = (db.groups.lookup (f,d)).map drained ∧
      db'.rowsOf d = db.rowsOf d ∧ ∀ u, db.leads f u d → db'.counted f u = db.counted f u := by
  rcases h.counts id none now with ⟨-,hg,hr,hd⟩ | ⟨event,he,hn,hf,hg,hr,hd⟩
  · refine ⟨hg,hr,fun u _ => hd _ ?_⟩
    exact fun e c hp => (of_decide_eq_true hp).2
  · have away : ¬ db.leads f event.executionId d := fun hl => hm ⟨event,he,hn,hf,hl⟩
    have none : (db.edgesTo f d fun edge => edge.upstream = event.executionId) = 0 := Nat.eq_zero_of_not_pos away
    rw [count_within_none,none] at hg hr
    refine ⟨hg.trans map_id_apply,hr.trans ?_,fun u hu => ?_⟩
    · cases db.groups.lookup (f,d) with
      | none | some => exact map_id_apply
    · have other : endsIn f u event.executionId event.completion = false := by
        refine decide_eq_false ?_
        rintro ⟨rfl,-⟩
        exact away hu
      exact (hd _).trans (by rw [other,Bool.or_false]; rfl)

variable {g : GroupRow} {q : Arrival}

private theorem tally_grow (he : db'.edges = db.edges) {u : Uuid} (hu : db.counted f u = false)
    (hc : ∀ v, db'.counted f v = (db.counted f v || decide (v = u))) (k : OutcomeKind) : db'.tally f d outcomes k =
      db.tally f d outcomes k + if k = (outcomes u).kind then db.edgesTo f d (fun edge => edge.upstream = u) else 0 := by
  have grown := edgesTo_grow db f d (fun edge => (outcomes edge.upstream).kind = k) hc hu
  refine ((edgesTo_congr he).trans grown).trans (congrArg (db.tally f d outcomes k + ·) ?_)
  have only (edge : EdgeRow) : (decide ((outcomes edge.upstream).kind = k) && decide (edge.upstream = u)) =
      (decide (k = (outcomes u).kind) && decide (edge.upstream = u)) := by
    by_cases heq : edge.upstream = u
    · rw [heq,decide_eq_decide.mpr (eq_comm (b := k))]
    · rw [decide_eq_false heq,Bool.and_false,Bool.and_false]
  rw [edgesTo_ext fun _ edge _ _ => only edge]
  split
  · rename_i hk
    rw [decide_eq_true hk]
    rfl
  · rename_i hk
    rw [decide_eq_false hk]
    exact edgesTo_none fun _ => rfl

theorem Watched.dispatch_hits (h : Watched f d outcomes policy n wins db) {event : EventRow}
    (he : db.events[id]? = some event) (hn : event.dispatchedAtMs = none) (hf : event.completion.flowId = some f)
    (hl : db.leads f event.executionId d) (now : Int) :
    let db' := (dispatchCompletion id none now db).2
    (∃ g, db'.groups.lookup (f,d) = some g ∧ g.Sized policy n ∧ ∀ k, g.tally k = db'.tally f d outcomes k) ∧
      db'.rowsOf d = (db.rowsOf d).map ((db'.verdict f d).write f now) ∧
      (db.verdict f d = .pending ∨ db'.verdict f d = db.verdict f d) := by
  intro db'
  rcases h.rooted.counts id none now with ⟨hi,-,-,-⟩ | ⟨event',he',-,-,hg,hr,hd⟩
  · exact absurd hf (hi event he hn)
  cases he.symm.trans he'
  obtain ⟨g,hgroup,hs,ht⟩ := h.group
  have fresh : db.counted f event.executionId = false := by
    rw [Bool.eq_false_iff]
    intro hc
    obtain ⟨id',event',he',hm,hp⟩ := dispatched_iff.mp hc
    obtain ⟨hu,hf'⟩ := of_decide_eq_true hp
    cases h.assigned.once id id' event event' he he' hf hf' hu hl
    cases he.symm.trans he'
    exact hm hn
  have running : (db.edgesTo f d fun edge => edge.upstream = event.executionId) ≤ g.running := by
    have settled : g.settled = db.edgesTo f d fun edge => db.counted f edge.upstream := by
      rw [settled_eq,ht,ht,ht]
      exact edgesTo_kinds db f d outcomes (db.counted f)
    have grown := edgesTo_grow db f d (fun _ => true) (c := db.counted f)
      (fun v => (rfl : (_ || decide (v = event.executionId)) = _)) fresh
    have bound : (db.edgesTo f d fun edge => true && (db.counted f edge.upstream ||
        decide (edge.upstream = event.executionId))) ≤ db.edgesTo f d fun _ => true := edgesTo_mono fun _ _ => rfl
    rw [grown,← hs.total.trans h.edges.symm,total_eq,settled] at bound
    exact Nat.le_of_add_le_add_left bound
  have counted (u : Uuid) : db'.counted f u = (db.counted f u || decide (u = event.executionId)) := by
    refine (hd _).trans (congrArg (db.counted f u || ·) (decide_eq_decide.mpr ?_))
    rw [hf]
    exact ⟨fun h => h.1.symm,fun h => ⟨h.symm,rfl⟩⟩
  rw [count_within_none,hgroup,h.assigned.outcome id event he hf hl] at hg hr
  obtain ⟨w,hw⟩ := Nat.exists_eq_succ_of_ne_zero (Nat.pos_iff_ne_zero.mp hl)
  rw [hw] at hg hr running
  obtain ⟨g',hgroup',hdrained⟩ := map_eq_some_iff.mp hg
  rw [← drained_iterate] at hdrained
  have verdict : db.verdict f d = g.decision := by rw [Db.verdict,hgroup]; rfl
  have verdict' : db'.verdict f d = ((count (outcomes event.executionId).kind)^[w + 1] g).decision := by
    rw [Db.verdict,hgroup']
    exact eq_of_drained decision (fun _ => rfl) hdrained
  refine ⟨⟨g',hgroup',(hs.iterate _ running).of_drained hdrained,fun k => ?_⟩,?_,?_⟩
  · rw [tally_grow edges_dispatch fresh counted,hw,← ht,← tally_iterate]
    exact eq_of_drained (fun g => g.tally k) (fun _ => rfl) hdrained
  · rw [verdict',hr,map_some,getD_some]
    exact congrFun (congrArg Option.map (funext (hs.writes f _ now running))) _
  · rw [verdict,verdict']
    exact hs.decision_iterate _ running

/-! ### Runs -/

/-- The edges to the execution are all there, and no dispatch is cut short. A tick of the reconciler makes its
dispatches one after the other. -/
def Request.regular (f d : Uuid) : Request → Bool
  | .stageDependencyEdge a => (a.flowId,a.downstream) ≠ (f,d)
  | .applyDependencyToChild a => (a.flowId,a.downstream) ≠ (f,d)
  | .dispatchCompletion _ stop => stop = none
  | .reconcileTick .. => false
  | _ => true

theorem after_unskipped (h : ∀ r, db.rowsOf d = some r → r.Unskipped) :
    ∀ r, (after q db).rowsOf d = some r → r.Unskipped :=
  after_rows q (fun _ _ _ _ hl => by cases hl) (fun c r _ => next_unskipped c r) h

theorem Watched.of_quiet (h : Watched f d outcomes policy n wins db) (ha : Assigned f d outcomes (after q db))
    (hq : Quiet f d db (after q db)) : Watched f d outcomes policy n wins (after q db) :=
  h.still (h.rooted.after q) ha (after_unskipped h.unskipped)
    (fun p => hq.edges fun edge => p edge.upstream) (fun _ _ => hq.events.dispatched _) hq.group

theorem Watched.after (h : Watched f d outcomes policy n wins db) (hq : q.request.regular f d = true)
    (ha : Assigned f d outcomes (after q db)) : Watched f d outcomes policy n wins (after q db) := by
  by_cases hquiet : q.request.quiet f d = true
  · exact h.of_quiet ha (after_quiet hquiet db)
  have hu := after_unskipped (q := q) h.unskipped
  have hr := h.rooted.after q
  obtain ⟨request,now⟩ := q
  cases request with
  | replayExecution e =>
    have same : e = d := by simpa [Request.quiet] using hquiet
    subst same
    apply h.of_quiet ha
    change Quiet f e db ((replayOn e now db).db db)
    obtain hnone | ⟨r,done,hrow,-,hdone⟩ := replayOn_db e now db
    · rw [hnone]
      exact .refl f e db
    · rw [hdone,if_neg (h.unskipped r hrow).not_skippedMember]
      exact ⟨fun _ => rfl,rfl,.commitOn db e now done⟩
  | setEdgeGroupPolicy f' d' policy' =>
    have same : f' = f ∧ d' = d := by simpa [Request.quiet] using hquiet
    obtain ⟨rfl,rfl⟩ := same
    apply h.of_quiet ha
    change Quiet f' d' db ((setEdgeGroupPolicy f' d' policy' db).db db)
    obtain hnone | ⟨hstaged,-⟩ := setEdgeGroupPolicy_db f' d' policy' db
    · rw [hnone]
      exact .refl f' d' db
    · obtain ⟨g,-,hs,-⟩ := h.group
      have staged := staged_iff.mpr (h.edges ▸ Nat.lt_of_lt_of_le hs.pos hs.le)
      rw [hstaged] at staged
      cases staged
  | applyDependencyToChild a =>
    change Watched f d outcomes policy n wins ((applyDependencyToChild a db).db db)
    change Rooted f d ((applyDependencyToChild a db).db db) at hr
    change Assigned f d outcomes ((applyDependencyToChild a db).db db) at ha
    change ∀ r, ((applyDependencyToChild a db).db db).rowsOf d = some r → _ at hu
    obtain hnone | ⟨edge,-,-,hdone⟩ := applyDependencyToChild_db a db
    · rw [hnone]
      exact h
    · rw [hdone] at hr ha hu ⊢
      refine h.still hr ha hu (edgesTo_appliedTo db a f d) (fun _ _ => rfl) ?_
      rw [Db.appliedTo,Table.lookup_upsert,if_neg fun heq => of_decide_eq_true hq heq.symm]
  | dispatchCompletion id =>
    cases of_decide_eq_true hq
    by_cases hits : db.hits f d id
    · obtain ⟨event,he,hn,hf,hl⟩ := hits
      exact ⟨hr,ha,hu,(edgesTo_congr edges_dispatch).trans h.edges,(edgesTo_congr edges_dispatch).trans h.wins,
        (h.dispatch_hits he hn hf hl now).1⟩
    · obtain ⟨hg,-,hc⟩ := h.rooted.dispatch_misses hits now
      exact h.still hr ha hu (fun _ => edgesTo_congr edges_dispatch) hc hg
  | reconcileTick => cases hq
  | stageDependencyEdge => exact absurd hq hquiet
  | _ => exact absurd rfl hquiet

/-! ### The verdict and the outcomes -/

variable (h : Watched f d outcomes policy n wins db)
include h

theorem Watched.bounds
    (ht : ∀ k, g.tally k = db.tally f d outcomes k) : g.success ≤ wins ∧ g.fail + g.skip + wins ≤ n := by
  have all := edgesTo_kinds db f d outcomes fun _ => true
  have part (k : OutcomeKind) : g.tally k ≤
      db.edgesTo f d fun edge => decide ((outcomes edge.upstream).kind = k) && true := by
    rw [ht]
    apply edgesTo_mono
    intro edge hp
    rw [Bool.and_eq_true] at hp ⊢
    exact ⟨hp.1,rfl⟩
  have success : g.success ≤ _ := part .success
  have fail : g.fail ≤ _ := part .fail
  have skip : g.skip ≤ _ := part .skip
  rw [h.edges] at all
  simp only [Bool.and_true] at all success fail skip
  rw [h.wins] at all success
  exact ⟨success,by omega⟩

theorem Watched.verdict_eq
    (hl : db.groups.lookup (f,d) = some g) (hs : g.Sized policy n) (ht : ∀ k, g.tally k = db.tally f d outcomes k)
    (hd : g.decision ≠ .pending ∨ g.settled = n) : db.verdict f d = policy.verdict n wins := by
  obtain ⟨hsuccess,hrest⟩ := h.bounds ht
  have verdict : db.verdict f d = g.decision := by
    rw [Db.verdict,hl]
    rfl
  have settled : g.settled = g.success + g.fail + g.skip := rfl
  rw [verdict,EdgeDependencyPolicy.verdict]
  rw [hs.decision] at hd ⊢
  by_cases hsat : policy.threshold n ≤ g.success
  · rw [if_pos hsat,if_pos (hsat.trans hsuccess)]
  · by_cases himp : n < policy.threshold n + g.fail + g.skip
    · rw [if_neg hsat,if_pos himp,if_neg (by omega)]
    · rw [if_neg hsat,if_neg himp] at hd
      have all := hd.resolve_left fun h => h rfl
      omega

theorem Watched.decided (hd : db.verdict f d ≠ .pending) : db.verdict f d = policy.verdict n wins := by
  obtain ⟨g,hl,hs,ht⟩ := h.group
  rw [Db.verdict,hl] at hd
  exact h.verdict_eq hl hs ht (.inl hd)

theorem Watched.complete
    (hc : ∀ u, db.leads f u d → db.counted f u = true) : db.verdict f d = policy.verdict n wins := by
  obtain ⟨g,hl,hs,ht⟩ := h.group
  refine h.verdict_eq hl hs ht (.inr ?_)
  rw [settled_eq,ht,ht,ht,← h.edges]
  refine (edgesTo_kinds db f d outcomes (db.counted f)).trans (edgesTo_ext fun id edge he hd => ?_)
  exact hc edge.upstream (leads_of_lookup he hd)

end

/-! ### What becomes of the execution -/

def Decision.shown : Decision → CoreRow → Prop
  | .pending, c => c.waitsForEdges
  | .satisfied _, c => c.lifecyclePhase = .runnable ∧ c.eligibilityState = .eligibleNow
  | .impossible, c => c.lifecyclePhase = .terminal ∧ c.publicState = .skipped

theorem Decision.shown_write {r : Rows} (hr : r.core.waitsForEdges) (D : Decision) (f : Uuid) (now : Int) :
    D.shown (D.write f now r).core := by
  have hn : ¬ r.core.isEnded := by
    rw [isEnded,hr.1]
    decide
  cases D with
  | pending => exact hr
  | satisfied =>
    change lifecyclePhase (unblocked r.core) = _ ∧ eligibilityState (unblocked r.core) = _
    rw [unblocked,if_neg hn,hr.1]
    exact ⟨rfl,rfl⟩
  | impossible =>
    change lifecyclePhase (skipped now r.core) = _ ∧ publicState (skipped now r.core) = _
    rw [skipped,if_neg hn]
    exact ⟨rfl,rfl⟩

/-- The verdict leaves the execution row as it is. -/
def Decision.spares : Decision → CoreRow → Prop
  | .pending, _ => True
  | .satisfied _, c => c.isEnded ∨ c.eligibilityState = .eligibleNow ∧ c.lifecyclePhase ≠ .blocked
  | .impossible, c => c.isEnded

theorem CoreRow.unblocked_eq_iff (c : CoreRow) :
    c.unblocked = c ↔ c.isEnded ∨ c.eligibilityState = .eligibleNow ∧ c.lifecyclePhase ≠ .blocked := by
  unfold unblocked
  by_cases he : c.isEnded
  · simp [he]
  · rw [if_neg he]
    constructor
    · intro h
      refine .inr ⟨(congrArg eligibilityState h).symm,fun hb => ?_⟩
      have phase := congrArg lifecyclePhase h
      rw [hb] at phase
      cases phase
    · rintro (h | ⟨hel,hb⟩)
      · exact absurd h he
      · rw [if_neg hb,← hel]

theorem Decision.spares_iff (D : Decision) (f : Uuid) (now : Int) (r : Rows) :
    (D.write f now r).core = r.core ↔ D.spares r.core := by
  cases D with
  | pending => exact iff_of_true rfl trivial
  | satisfied => exact r.core.unblocked_eq_iff
  | impossible =>
    constructor
    · intro h
      rw [← h]
      exact r.core.isEnded_skipped now
    · exact skipped_of_ended

/-- The execution waits until there is a verdict, and its upstreams end once each. -/
structure Regular (f d : Uuid) (outcomes : Uuid → Outcome) (s : Db) (q : Arrival) : Prop where
  waits : s.verdict f d = .pending → ∀ r, s.rowsOf d = some r → r.core.waitsForEdges
  request : q.request.regular f d = true
  assigned : Assigned f d outcomes (after q s)

/-- A dispatch that finds no verdict leaves the execution as the verdict wants it. -/
def Acts (f d : Uuid) (s : Db) (q : Arrival) : Prop :=
  q.request.dispatches = true → s.verdict f d = .pending →
    ∃ r, (after q s).rowsOf d = some r ∧ ((after q s).verdict f d).shown r.core

def Unmoved (f d : Uuid) (s : Db) (q : Arrival) : Prop :=
  q.request.dispatches = true → s.verdict f d ≠ .pending →
    ((after q s).rowsOf d).map Rows.core = (s.rowsOf d).map Rows.core

/-- The end of an upstream that is dispatched after the verdict finds a row that the verdict spares. -/
def Spared (f d : Uuid) (s : Db) (q : Arrival) : Prop :=
  ∀ id stop, q.request = .dispatchCompletion id stop → s.hits f d id →
    ∀ r, s.rowsOf d = some r → (s.verdict f d).spares r.core

section
variable {f d : Uuid} {policy : EdgeDependencyPolicy} {n wins : Nat} {db : Db} {q : Arrival}

variable (h : Watched f d outcomes policy n wins db)
include h

theorem Watched.dispatch_row (id : Nat) (now : Int) : let db' := (dispatchCompletion id none now db).2
    ¬ db.hits f d id ∧ db'.rowsOf d = db.rowsOf d ∧ db'.verdict f d = db.verdict f d ∨
      db.hits f d id ∧ db'.rowsOf d = (db.rowsOf d).map ((db'.verdict f d).write f now) ∧
        (db.verdict f d = .pending ∨ db'.verdict f d = db.verdict f d) := by
  by_cases hits : db.hits f d id
  · obtain ⟨event,he,hn,hf,hl⟩ := hits
    exact .inr ⟨⟨event,he,hn,hf,hl⟩,(h.dispatch_hits he hn hf hl now).2⟩
  · obtain ⟨hg,hr,-⟩ := h.rooted.dispatch_misses hits now
    exact .inl ⟨hits,hr,verdict_congr hg⟩

theorem Watched.acts (hq : Regular f d outcomes db q) : Acts f d db q := by
  intro hd hp
  obtain ⟨r,hr,-⟩ := h.rooted.member
  have waits := hq.waits hp r hr
  obtain ⟨request,now⟩ := q
  cases request with
  | dispatchCompletion id =>
    cases of_decide_eq_true hq.request
    change ∃ r, (dispatchCompletion id none now db).2.rowsOf d = _ ∧ ((dispatchCompletion id none now db).2.verdict f d).shown _
    rcases h.dispatch_row id now with ⟨-,hrow,hv⟩ | ⟨-,hrow,-⟩
    · rw [hv,hp]
      exact ⟨r,hrow.trans hr,waits⟩
    · rw [hr] at hrow
      exact ⟨_,hrow,Decision.shown_write waits _ f now⟩
  | reconcileTick => cases hq.request
  | _ => cases hd

theorem Watched.unmoved_iff (hq : Regular f d outcomes db q) : Unmoved f d db q ↔ Spared f d db q := by
  obtain ⟨r,hr,-⟩ := h.rooted.member
  obtain ⟨request,now⟩ := q
  cases request with
  | dispatchCompletion id =>
    cases of_decide_eq_true hq.request
    have row : Unmoved f d db ⟨.dispatchCompletion id none,now⟩ ↔
        (db.verdict f d ≠ .pending → ((dispatchCompletion id none now db).2.rowsOf d).map Rows.core =
          (db.rowsOf d).map Rows.core) := forall_prop_of_true rfl
    have spare : Spared f d db ⟨.dispatchCompletion id none,now⟩ ↔
        (db.hits f d id → (db.verdict f d).spares r.core) := by
      constructor
      · exact fun hs hhit => hs id none rfl hhit r hr
      · intro hs id' stop' heq hhit r' hr'
        cases heq
        cases hr.symm.trans hr'
        exact hs hhit
    rw [row,spare]
    rcases h.dispatch_row id now with ⟨hmiss,hrow,-⟩ | ⟨hhit,hrow,hlead⟩
    · rw [hrow]
      exact iff_of_true (fun _ => rfl) fun hhit => absurd hhit hmiss
    · rw [hrow,hr,map_some,map_some,map_some,some_inj,Decision.spares_iff]
      rcases hlead with hp | heq
      · rw [hp]
        exact iff_of_true (fun h => absurd rfl h) fun _ => trivial
      · rw [heq]
        constructor
        · intro hs _
          by_cases hp : db.verdict f d = .pending
          · rw [hp]
            trivial
          · exact hs hp
        · exact fun hs _ => hs hhit
  | reconcileTick => cases hq.request
  | _ =>
    refine iff_of_true (fun hd => ?_) fun _ _ heq => ?_
    · cases hd
    · cases heq

end

/-- The group of an execution whose edges have all been applied, before the end of any upstream is counted. -/
structure Prepared (f d : Uuid) (policy : EdgeDependencyPolicy) (db : Db) : Prop where
  rooted : Rooted f d db
  unskipped : ∀ r, db.rowsOf d = some r → r.Unskipped
  applied : (db.edgesTo f d fun _ => true) = db.edgesTo f d EdgeRow.applied
  uncounted : ∀ u, db.leads f u d → db.counted f u = false
  group : ∃ g, db.groups.lookup (f,d) = some g ∧ g.policy = policy ∧ g.settled = 0 ∧
    g.running = db.edgesTo f d EdgeRow.applied
  pos : 1 ≤ policy.threshold (db.edgesTo f d fun _ => true)
  le : policy.threshold (db.edgesTo f d fun _ => true) ≤ db.edgesTo f d fun _ => true
  small : (db.edgesTo f d fun _ => true) < 2 ^ 31

theorem Prepared.watched {f d : Uuid} {policy : EdgeDependencyPolicy} {db : Db}
    (h : Prepared f d policy db) (ha : Assigned f d outcomes db) :
    Watched f d outcomes policy (db.edgesTo f d fun _ => true)
      (db.edgesTo f d fun edge => (outcomes edge.upstream).kind = .success) db where
  rooted := h.rooted
  assigned := ha
  unskipped := h.unskipped
  edges := rfl
  wins := rfl
  group := by
    obtain ⟨g,hl,hp,hz,hr⟩ := h.group
    refine ⟨g,hl,⟨hp,?_,h.pos,h.le,h.small⟩,fun k => ?_⟩
    · rw [total_eq,hz,hr,h.applied,Nat.zero_add]
    · have none : db.tally f d outcomes k = 0 := by
        refine (edgesTo_ext (q := fun _ => false) fun id edge he hd => ?_).trans ?_
        · rw [h.uncounted edge.upstream (leads_of_lookup he hd),Bool.and_false]
        · exact edgesTo_none fun _ => rfl
      rw [settled_eq] at hz
      cases k <;> omega

/-- The counters of a group add up to its edges, and the verdict depends on nothing but the number of edges
from upstreams that succeed. The first dispatch that finds it puts the execution into its state. A later
dispatch leaves the execution row alone exactly when it finds it in a state that the verdict spares. -/
theorem verdict_final_iff {f d : Uuid} {outcomes : Uuid → Outcome} {policy : EdgeDependencyPolicy} {db : Db}
    (hp : Prepared f d policy db) (ha : Assigned f d outcomes db) (qs : List Arrival)
    (hq : Along after (Regular f d outcomes) db qs) :
    let n := db.edgesTo f d fun _ => true
    let wins := db.edgesTo f d fun edge => (outcomes edge.upstream).kind = .success
    let s := runFrom after db qs
    (∃ g, s.groups.lookup (f,d) = some g ∧ g.success + g.fail + g.skip + g.running = n) ∧
      (s.verdict f d ≠ .pending → s.verdict f d = policy.verdict n wins) ∧
      ((∀ u, s.leads f u d → s.counted f u = true) → s.verdict f d = policy.verdict n wins) ∧
      Along after (Acts f d) db qs ∧ (Along after (Unmoved f d) db qs ↔ Along after (Spared f d) db qs) := by
  intro n wins s
  have start := hp.watched ha
  have kept : ∀ s q, Watched f d outcomes policy n wins s → Regular f d outcomes s q →
      Watched f d outcomes policy n wins (after q s) :=
    fun _ _ hs hq => hs.after hq.request hq.assigned
  have watched : Watched f d outcomes policy n wins s := Along.invariant kept start hq
  refine ⟨?_,watched.decided,watched.complete,?_,?_⟩
  · obtain ⟨g,hl,hs,-⟩ := watched.group
    exact ⟨g,hl,hs.total⟩
  · exact Along.weaken (fun _ _ hs hq => hs.acts hq) kept start hq
  · exact Along.iff_of (fun _ _ hs hq => hs.unmoved_iff hq) (fun s q hs hq _ => kept s q hs hq) start hq

namespace Client

/-- A flow in which the third execution waits for one of the others, which are both completed. -/
def eitherOf : Db :=
  runFrom after { partition with execs := (partition.execs.insert 2 fresh).insert 3 blocked }
    [⟨.createFlow 9,0⟩,⟨.addExecutionToFlow 9 1,1⟩,⟨.addExecutionToFlow 9 2,2⟩,⟨.addExecutionToFlow 9 3,3⟩,
      ⟨.setEdgeGroupPolicy 9 3 (.anyOf .letRun),4⟩,
      ⟨.stageDependencyEdge ⟨9,21,1,3,3⟩,5⟩,⟨.stageDependencyEdge ⟨9,22,2,3,4⟩,6⟩,
      ⟨.applyDependencyToChild ⟨9,21,3⟩,7⟩,⟨.applyDependencyToChild ⟨9,22,3⟩,8⟩,takes 1 alice 9,
      ⟨.call 1 (.worker ⟨0,1,10⟩ (.complete none)),10⟩,takes 2 bob 11,⟨.call 2 (.worker ⟨0,1,10⟩ (.complete none)),12⟩]

theorem eitherOf_prepared : Prepared 9 3 (.anyOf .letRun) eitherOf where
  rooted := {
    member := ⟨_,rfl,rfl⟩
    edges := by
      intro k edge hl hd
      have edges : eitherOf.edges.rows = [((9,22),⟨2,3,true⟩),((9,21),⟨1,3,true⟩)] := rfl
      have mem := Table.mem_rows.mpr hl
      rw [edges] at mem
      simp only [List.mem_cons,List.not_mem_nil,or_false,Prod.mk.injEq] at mem
      rcases mem with ⟨rfl,-⟩ | ⟨rfl,-⟩ <;> rfl }
  unskipped := by
    intro r hr i row hl
    cases hr
    cases hl
  applied := rfl
  uncounted := fun _ _ => rfl
  group := ⟨_,rfl,rfl,rfl,rfl⟩
  pos := by decide
  le := by decide
  small := by decide

theorem assigned_of_events {db : Db} {first second : Option Int}
    (h : db.events = [⟨1,⟨some 9,.success,10,none,none⟩,10,first⟩,⟨2,⟨some 9,.success,12,none,none⟩,12,second⟩]) :
    Assigned 9 3 (fun _ => .success) db where
  outcome := by
    intro id event he _ _
    rw [h] at he
    match id, he with
    | 0, rfl => rfl
    | 1, rfl => rfl
  once := by
    intro id id' event event' he he' _ _ hu _
    rw [h] at he he'
    match id, id', he, he' with
    | 0, 0, _, _ => rfl
    | 1, 1, _, _ => rfl
    | 0, 1, rfl, rfl => cases hu
    | 1, 0, rfl, rfl => cases hu

/-- The first success decides the group. -/
theorem eitherOf_decided :
    (runFrom after eitherOf [⟨.dispatchCompletion 0 none,20⟩]).verdict 9 3 = .satisfied false := by
  have regular : Along after (Regular 9 3 fun _ => .success) eitherOf [⟨.dispatchCompletion 0 none,20⟩] := by
    refine ⟨⟨fun _ r hr => ?_,rfl,assigned_of_events rfl⟩,trivial⟩
    cases hr
    exact ⟨rfl,rfl⟩
  have verdict := verdict_final_iff eitherOf_prepared (assigned_of_events rfl) _ regular
  exact verdict.2.1 (by decide)

/-- The end of the second upstream makes the execution eligible again, which a worker has claimed by then. -/
theorem running_unblocked :
    let s := runFrom after eitherOf
      [⟨.dispatchCompletion 0 none,20⟩,takes 3 alice 21]
    let s' := after ⟨.dispatchCompletion 1 none,22⟩ s
    s.verdict 9 3 = .satisfied false ∧ s'.verdict 9 3 = .satisfied false ∧
      (s.rowsOf 3).map (fun r => (r.core.lifecyclePhase,r.core.eligibilityState)) = some (.active,.notApplicable) ∧
      (s'.rowsOf 3).map (fun r => (r.core.lifecyclePhase,r.core.eligibilityState)) = some (.active,.eligibleNow) :=
  ⟨rfl,rfl,rfl,rfl⟩

end Client
end FlowFabric.Postgres
