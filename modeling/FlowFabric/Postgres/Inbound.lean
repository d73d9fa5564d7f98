import FlowFabric.Postgres.Advance
import FlowFabric.Postgres.Requests

/-! The edges that lead to an execution, the group that counts their upstreams and the events of these. -/
namespace FlowFabric.Postgres
open Foundation List Table Bool

/-! ### Edges -/

/-- The edge is one of the flow that leads to the execution and meets the condition. -/
def leadsTo (f d : Uuid) (p : EdgeRow → Bool) (edge : (Uuid × Uuid) × EdgeRow) : Bool :=
  decide (edge.1.1 = f ∧ edge.2.downstream = d) && p edge.2

def Db.edgesTo (db : Db) (f d : Uuid) (p : EdgeRow → Bool) : Nat := db.edges.rows.countP (leadsTo f d p)

open Db

section
variable {db db' : Db} {f d : Uuid} {p q : EdgeRow → Bool}

theorem edgesTo_congr (h : db'.edges = db.edges) : db'.edgesTo f d p = db.edgesTo f d p := by rw [edgesTo,edgesTo,h]

theorem edgesTo_mono (h : ∀ edge, p edge = true → q edge = true) : db.edgesTo f d p ≤ db.edgesTo f d q := by
  apply countP_mono_left
  intro edge _
  simp only [leadsTo,and_eq_true]
  exact And.imp_right (h edge.2)

theorem edgesTo_split (db : Db) (f d : Uuid) (p q : EdgeRow → Bool) :
    db.edgesTo f d p = db.edgesTo f d (fun edge => p edge && q edge) + db.edgesTo f d fun edge => p edge && !q edge := by
  unfold edgesTo
  induction db.edges.rows with
  | nil => rfl
  | cons edge edges ih =>
    rw [countP_cons,countP_cons,countP_cons,ih]
    by_cases hp : p edge.2 = true <;> by_cases hq : q edge.2 = true <;> simp [leadsTo,hp,hq] <;> omega

private theorem edgesTo_pos : 0 < db.edgesTo f d p ↔
    ∃ id edge, db.edges.lookup (f,id) = some edge ∧ edge.downstream = d ∧ p edge = true := by
  rw [edgesTo,countP_pos_iff]
  constructor
  · rintro ⟨⟨⟨f',id⟩,edge⟩,he,hp⟩
    simp only [leadsTo,and_eq_true,decide_eq_true_eq] at hp
    obtain ⟨⟨rfl,hd⟩,hp⟩ := hp
    exact ⟨id,edge,mem_rows.mp he,hd,hp⟩
  · rintro ⟨id,edge,he,hd,hp⟩
    exact ⟨((f,id),edge),mem_rows.mpr he,by simp [leadsTo,hd,hp]⟩

theorem edgesTo_ext (h : ∀ id edge, db.edges.lookup (f,id) = some edge → edge.downstream = d → p edge = q edge) :
    db.edgesTo f d p = db.edgesTo f d q := by
  apply countP_congr
  rintro ⟨⟨f',id⟩,edge⟩ he
  simp only [leadsTo,and_eq_true,decide_eq_true_eq]
  refine and_congr_right ?_
  rintro ⟨rfl,hd⟩
  rw [h id edge (mem_rows.mp he) hd]

theorem edgesTo_none (h : ∀ edge, p edge = false) : db.edgesTo f d p = 0 := by
  apply countP_eq_zero.mpr
  intro edge _
  rw [leadsTo,h,Bool.and_false]
  exact Bool.false_ne_true

theorem edgesTo_grow (db : Db) (f d : Uuid) (b : EdgeRow → Bool) {c c' : Uuid → Bool} {u : Uuid}
    (hc' : ∀ v, c' v = (c v || decide (v = u))) (hc : c u = false) :
    (db.edgesTo f d fun edge => b edge && c' edge.upstream) = (db.edgesTo f d fun edge => b edge && c edge.upstream) +
        db.edgesTo f d fun edge => b edge && decide (edge.upstream = u) := by
  rw [edgesTo_split db f d (fun edge => b edge && c' edge.upstream) fun edge => edge.upstream = u,add_comm]
  refine congrArg₂ (· + ·) (edgesTo_ext fun id edge _ _ => ?_) (edgesTo_ext fun id edge _ _ => ?_) <;>
    by_cases hu : edge.upstream = u <;> simp [hu,hc,hc']

theorem staged_iff : db.staged f d = true ↔ 0 < db.edgesTo f d fun _ => true := by
  rw [staged,edgesTo,countP_pos_iff,any_eq_true]
  simp [leadsTo]

def Db.leads (db : Db) (f u d : Uuid) : Prop := 0 < db.edgesTo f d fun edge => edge.upstream = u

theorem leads_of_lookup {id : Uuid} {edge : EdgeRow} (h : db.edges.lookup (f,id) = some edge)
    (hd : edge.downstream = d) : db.leads f edge.upstream d :=
  edgesTo_pos.mpr ⟨id,edge,h,hd,decide_eq_true rfl⟩

theorem count_outgoing (u : Uuid) : (db.outgoing f u).count d = db.edgesTo f d fun edge => edge.upstream = u := by
  rw [outgoing,edgesTo]
  induction db.edges.rows with
  | nil => rfl
  | cons edge edges ih =>
    rw [filter_cons,countP_cons,← ih]
    by_cases he : edge.1.1 = f ∧ edge.2.upstream = u
    · by_cases hd : edge.2.downstream = d <;> simp [leadsTo,he,hd]
    · rw [if_neg (by simpa using he),if_neg (by simp [leadsTo]; tauto),add_zero]

end

theorem edgesTo_insert (db : Db) (f d : Uuid) (p : EdgeRow → Bool) (k : Uuid × Uuid) (edge : EdgeRow) :
    ({ db with edges := db.edges.insert k edge } : Db).edgesTo f d p +
        ((db.edges.lookup k).elim 0 fun edge => (leadsTo f d p (k,edge)).toNat) =
      db.edgesTo f d p + (leadsTo f d p (k,edge)).toNat :=
  countP_insert (leadsTo f d p) k edge db.edges

theorem edgesTo_appliedTo (db : Db) (a : ApplyArgs) (f d : Uuid) (p : Uuid → Bool) :
    (db.appliedTo a).edgesTo f d (fun edge => p edge.upstream) = db.edgesTo f d fun edge => p edge.upstream := by
  unfold appliedTo update
  cases hl : db.edges.lookup (a.flowId,a.edgeId) with
  | none => exact edgesTo_congr rfl
  | some edge =>
    have inserted := edgesTo_insert db f d (fun edge => p edge.upstream) (a.flowId,a.edgeId) { edge with applied := true }
    rw [hl] at inserted
    exact add_right_cancel inserted

/-! ### Events -/

def Db.dispatched (db : Db) (p : Uuid → Completion → Bool) : Bool :=
  db.events.any fun event => event.dispatchedAtMs.isSome && p event.executionId event.completion

section
variable {db db' : Db} {p : Uuid → Completion → Bool}

theorem dispatched_iff : db.dispatched p = true ↔ ∃ (id : Nat) (event : EventRow),
    db.events[id]? = some event ∧ event.dispatchedAtMs ≠ none ∧ p event.executionId event.completion = true := by
  simp only [dispatched,any_eq_true,mem_iff_getElem?,and_eq_true,Option.isSome_iff_ne_none]
  constructor
  · rintro ⟨event,⟨id,he⟩,hp⟩
    exact ⟨id,event,he,hp⟩
  · rintro ⟨id,event,he,hp⟩
    exact ⟨event,⟨id,he⟩,hp⟩

theorem Appends.dispatched (h : Appends db db') (p : Uuid → Completion → Bool) :
    db'.dispatched p = db.dispatched p := by
  obtain ⟨new,hn,hu⟩ := h
  have fresh : (new.any fun event => event.dispatchedAtMs.isSome && p event.executionId event.completion) = false := by
    rw [any_eq_false]
    intro event he
    rw [hu event he]
    simp
  rw [Db.dispatched,hn,any_append,fresh,Bool.or_false]
  rfl

private theorem dispatched_marked {id : Nat} {event : EventRow} (he : db.events[id]? = some event) (now : Int) :
    (db.marked id now).dispatched p = (db.dispatched p || p event.executionId event.completion) := by
  rw [Bool.eq_iff_iff,Bool.or_eq_true,dispatched_iff,dispatched_iff]
  constructor
  · rintro ⟨id',event',he',hm,hp⟩
    rw [marked,List.getElem?_modify] at he'
    obtain ⟨old,ho,rfl⟩ := Option.map_eq_some_iff.mp he'
    by_cases hid : id = id'
    · subst hid
      cases he.symm.trans ho
      rw [if_pos rfl] at hp
      exact .inr hp
    · rw [if_neg hid] at hm hp
      exact .inl ⟨id',old,ho,hm,hp⟩
  · rintro (⟨id',old,ho,hm,hp⟩ | hp)
    · refine ⟨id',_,getElem?_marked ho,?_,?_⟩
      · split
        · exact Option.some_ne_none _
        · exact hm
      · split <;> exact hp
    · exact ⟨id,_,getElem?_marked he,by rw [if_pos rfl]; exact Option.some_ne_none _,by rw [if_pos rfl]; exact hp⟩

end

/-! ### Requests that leave the group alone -/

/-- Nothing that the group of the execution depends on has changed. -/
structure Quiet (f d : Uuid) (db db' : Db) : Prop where
  edges : ∀ p, db'.edgesTo f d p = db.edgesTo f d p
  group : (db'.groups.lookup (f,d)).map GroupRow.drained = (db.groups.lookup (f,d)).map GroupRow.drained
  events : Appends db db'

theorem Quiet.refl (f d : Uuid) (db : Db) : Quiet f d db db := ⟨fun _ => rfl,rfl,.of_eq rfl⟩

variable {f d e : Uuid} {r r' : Rows}

/-- The requests that build and advance other groups only. -/
def Request.quiet (f d : Uuid) : Request → Bool
  | .stageDependencyEdge a => (a.flowId,a.downstream) ≠ (f,d)
  | .setEdgeGroupPolicy f' d' _ => (f',d') ≠ (f,d)
  | .replayExecution e => e ≠ d
  | .applyDependencyToChild _ | .dispatchCompletion .. | .reconcileTick .. => false
  | _ => true

theorem group_resetGroups (h : e ≠ d) (f : Uuid) (db : Db) :
    (resetGroups e db).groups.lookup (f,d) = db.groups.lookup (f,d) := by
  unfold resetGroups
  dsimp only
  generalize db.groups = groups
  induction db.edges.rows.filter fun edge => edge.2.downstream = e generalizing groups with
  | nil => rfl
  | cons edge edges ih =>
    rw [foldl_cons,ih,lookup_update,if_neg]
    intro heq
    exact h (congrArg Prod.snd heq).symm

section
variable {f d : Uuid} {q : Request} {db db' : Db}

theorem not_dispatches_of_quiet (hq : q.quiet f d = true) : ¬ q.dispatches = true := by
  intro hd
  cases q with
  | dispatchCompletion | reconcileTick => cases hq
  | _ => cases hd

theorem Statement.quiet (h : Statement q db db') (hq : q.quiet f d = true) : Quiet f d db db' := by
  cases h with
  | commit => exact ⟨fun _ => rfl,rfl,.commitOn _ _ _ _⟩
  | create | beside | tokens => exact ⟨fun _ => rfl,rfl,.of_eq rfl⟩
  | stage a ha _ hn =>
    subst ha
    refine ⟨fun p => ?_,rfl,.of_eq rfl⟩
    have elsewhere : leadsTo f d p ((a.flowId,a.edgeId),⟨a.upstream,a.downstream,false⟩) = false := by
      rw [leadsTo,and_eq_false_iff,decide_eq_false_iff_not]
      exact .inl fun h => of_decide_eq_true hq (Prod.ext h.1 h.2)
    have inserted := edgesTo_insert db f d p (a.flowId,a.edgeId) ⟨a.upstream,a.downstream,false⟩
    rw [hn,elsewhere] at inserted
    exact inserted
  | apply a _ ha =>
    subst ha
    cases hq
  | policy f' d' policy ha =>
    subst ha
    refine ⟨fun _ => rfl,?_,.of_eq rfl⟩
    rw [lookup_upsert,if_neg]
    exact fun h => of_decide_eq_true hq h.symm
  | mark _ _ _ hd | count _ _ _ _ hd => exact absurd hd (not_dispatches_of_quiet hq)
  | flag k u hu => exact ⟨fun _ => rfl,map_lookup_update hu k (f,d) db.groups,.of_eq rfl⟩
  | @replay e r done now hr hs ha hk =>
    subst ha
    refine ⟨fun _ => rfl,?_,(Appends.commitOn db e now done).trans (.of_eq rfl)⟩
    rw [group_resetGroups (of_decide_eq_true hq)]
    rfl

theorem after_quiet {q : Arrival} (hq : q.request.quiet f d = true) (db : Db) : Quiet f d db (after q db) :=
  (after_statements q db).invariant (I := Quiet f d db)
    (fun _ _ hs h => ⟨fun p => ((hs.quiet hq).edges p).trans (h.edges p),(hs.quiet hq).group.trans h.group,
      h.events.trans (hs.quiet hq).events⟩) (.refl f d db)

end

/-! ### The flow of an execution -/

theorem issues_joinFlow {q : Request} (h : q.issues e r (.joinFlow f)) : r.core.flowId = none := by
  cases q with
  | call =>
    obtain ⟨-,rfl,ho⟩ := h
    cases ho
  | addExecutionToFlow => exact h.2.2
  | replayExecution => cases h.2
  | suspend | deliverSignal =>
    obtain ⟨-,_,ho⟩ := h
    cases ho
  | closeWaitpoint =>
    obtain ⟨_,ho⟩ := h
    cases ho
  | dispatchCompletion | reconcileTick =>
    obtain ho | ⟨_,ho⟩ := h
    · cases ho
    · cases ho
  | _ => cases h

/-- The execution is in the flow, and so are the edges that lead to it. -/
structure Rooted (f d : Uuid) (db : Db) : Prop where
  member : ∃ r, db.rowsOf d = some r ∧ r.core.flowId = some f
  edges : ∀ k edge, db.edges.lookup k = some edge → edge.downstream = d → k.1 = f

section
variable {f d : Uuid} {db db' : Db}

variable (h : Rooted f d db)
include h

theorem Rooted.statement {q : Request} (hs : Statement q db db') : Rooted f d db' := by
  obtain ⟨r,hr,hf⟩ := h.member
  constructor
  · rcases hs.rowsOf d with hsame | ⟨_,_,hn,-⟩ | ⟨r',c,hr',hi,hnext⟩
    · exact ⟨r,hsame.trans hr,hf⟩
    · cases hn.symm.trans hr
    · cases hr'.symm.trans hr
      refine ⟨next c r,hnext,?_⟩
      rcases next_writes c r with hkept | hw
      · rw [hkept]
        exact hf
      · rw [hw.kept.2.2.2,hf]
        intro f' ho
        rw [ho] at hi
        cases (issues_joinFlow hi).symm.trans hf
  · intro k edge hl hd
    cases hs with
    | commit | create | beside | tokens | policy | mark | count | flag | replay => exact h.edges k edge hl hd
    | stage a _ hm =>
      rw [lookup_insert] at hl
      split at hl
      · rename_i hk
        cases hl
        subst hd
        rw [isMember,hr,Option.any_some,decide_eq_true_eq] at hm
        rw [hk]
        exact Option.some.inj (hm.symm.trans hf)
      · exact h.edges k edge hl hd
    | apply =>
      change (db.edges.update _ _).lookup k = _ at hl
      rw [lookup_update] at hl
      split at hl
      · rename_i hk
        obtain ⟨old,ho,rfl⟩ := Option.map_eq_some_iff.mp hl
        rw [hk]
        exact h.edges _ old ho hd
      · exact h.edges k edge hl hd

theorem Rooted.after (q : Arrival) : Rooted f d (after q db) :=
  (after_statements q db).invariant (I := Rooted f d) (fun _ _ hs hI => hI.statement hs) h

theorem Rooted.outgoing {f' : Uuid} (hf : f' ≠ f) (u : Uuid) : d ∉ db.outgoing f' u := by
  intro hd
  obtain ⟨⟨k,edge⟩,he,rfl⟩ := mem_map.mp hd
  obtain ⟨he,hp⟩ := mem_filter.mp he
  exact hf ((of_decide_eq_true hp).1.symm.trans (h.edges k edge (mem_rows.mp he) rfl))

end

/-! ### Dispatching an event -/

/-- What the decisions write on the execution while its group counts an outcome for several edges. -/
def GroupRow.writes (f : Uuid) (outcome : OutcomeKind) (now : Int) : Nat → GroupRow → Rows → Rows
  | 0, _, r => r
  | n + 1, g, r => writes f outcome now n (g.count outcome) ((g.count outcome).decision.write f now r)

open GroupRow

theorem GroupRow.writes_drained (f : Uuid) (outcome : OutcomeKind) (now : Int) (n : Nat) (g : GroupRow) (r : Rows) :
    g.drained.writes f outcome now n r = g.writes f outcome now n r := by
  induction n generalizing g r with
  | zero => rfl
  | succ n ih =>
    rw [writes,writes,← drained_count,ih]
    rfl

theorem rowsOf_advances (f upstream : Uuid) (outcome : OutcomeKind) (now : Int) (ds : List Uuid) (db : Db) (d : Uuid) :
    (ds.foldl (advanceEdgeGroup f upstream outcome now) db).rowsOf d =
      (db.rowsOf d).map (((db.groups.lookup (f,d)).map (GroupRow.writes f outcome now (ds.count d))).getD id) := by
  -- The group is known only up to the flag of its siblings, which no decision reads.
  have blind (n : Nat) (o : Option GroupRow) : (o.map (GroupRow.writes f outcome now n)).getD id =
        ((o.map GroupRow.drained).map (GroupRow.writes f outcome now n)).getD id := by
    cases o with
    | none => rfl
    | some g =>
      funext r
      exact (g.writes_drained f outcome now n r).symm
  induction ds generalizing db with
  | nil =>
    cases db.groups.lookup (f,d) with
    | none | some => exact (Option.map_id_apply).symm
  | cons d' ds ih =>
    rw [foldl_cons,ih,rowsOf_advance,count_cons,blind,group_advance]
    by_cases hd : d = d'
    · subst hd
      rw [if_pos rfl,if_pos rfl,beq_self_eq_true,if_pos rfl,Option.map_map]
      cases db.groups.lookup (f,d) with
      | none => rfl
      | some =>
        simp only [Option.map_some,Option.getD_some]
        refine congrFun (congrArg Option.map (funext fun r => ?_)) _
        rw [Function.comp_apply,writes_drained]
        rfl
    · rw [if_neg hd,if_neg fun h => hd (congrArg Prod.snd h),if_neg (by simpa using Ne.symm hd),add_zero,← blind]

/-- What a dispatch does to an execution and its group. Only events of its flow that are not marked count. -/
inductive Counts (f d : Uuid) (eventId : Nat) (stop : Option Nat) (now : Int) (db db' : Db) : Prop
  | idle (hn : ∀ event, db.events[eventId]? = some event → event.dispatchedAtMs = none → event.completion.flowId ≠ some f)
      (hg : (db'.groups.lookup (f,d)).map drained = (db.groups.lookup (f,d)).map drained)
      (hr : db'.rowsOf d = db.rowsOf d)
      (hd : ∀ p, (∀ e c, p e c = true → c.flowId = some f) → db'.dispatched p = db.dispatched p)
  | due (event : EventRow) (he : db.events[eventId]? = some event) (hn : event.dispatchedAtMs = none)
      (hf : event.completion.flowId = some f)
      (hg : (db'.groups.lookup (f,d)).map drained = ((db.groups.lookup (f,d)).map drained).map
        (GroupRow.count event.completion.outcome.kind)^[(db.within f event.executionId stop).count d])
      (hr : db'.rowsOf d = (db.rowsOf d).map (((db.groups.lookup (f,d)).map
        (GroupRow.writes f event.completion.outcome.kind now ((db.within f event.executionId stop).count d))).getD id))
      (hd : ∀ p, db'.dispatched p = (db.dispatched p || p event.executionId event.completion))

section
variable {f d : Uuid} {db : Db}

theorem count_within_none (u : Uuid) : (db.within f u none).count d = db.edgesTo f d fun edge => edge.upstream = u := by
  rw [within,Option.getD_none,take_length,count_outgoing]

theorem Rooted.counts (h : Rooted f d db) (id : Nat) (stop : Option Nat) (now : Int) :
    Counts f d id stop now db (dispatchCompletion id stop now db).2 := by
  by_cases hdue : ∃ event, db.events[id]? = some event ∧ event.dispatchedAtMs = none
  · obtain ⟨event,he,hn⟩ := hdue
    have marked (p : Uuid → Completion → Bool) := dispatched_marked (p := p) he now
    rw [dispatch_due he hn]
    cases hf : event.completion.flowId with
    | none =>
      refine .idle ?_ rfl rfl ?_
      · intro event' he' _ hf'
        cases he.symm.trans he'
        cases hf.symm.trans hf'
      · intro p hp
        have other : p event.executionId event.completion = false := by
          rw [eq_false_iff]
          intro ht
          cases hf.symm.trans (hp _ _ ht)
        rw [marked,other,Bool.or_false]
    | some f' =>
      have hgroup := group_advances f' event.executionId event.completion.outcome.kind now
        (db.within f' event.executionId stop) (db.marked id now) (f,d)
      have hrows := rowsOf_advances f' event.executionId event.completion.outcome.kind now
        (db.within f' event.executionId stop) (db.marked id now) d
      have hevents (p : Uuid → Completion → Bool) := (appends_advances f' event.executionId
        event.completion.outcome.kind now (db.within f' event.executionId stop) (db.marked id now)).dispatched p
      by_cases hff : f' = f
      · subst hff
        have pairs : ((db.within f' event.executionId stop).map fun d => (f',d)).count (f',d) =
            (db.within f' event.executionId stop).count d :=
          count_map_of_injective _ _ (Prod.mk_right_injective f') d
        rw [pairs] at hgroup
        exact .due event he hn hf hgroup hrows fun p => (hevents p).trans (marked p)
      · have away : (db.within f' event.executionId stop).count d = 0 :=
          count_eq_zero.mpr fun hd => h.outgoing hff _ (mem_of_mem_take hd)
        refine .idle ?_ ?_ ?_ ?_
        · intro event' he' _ hf'
          cases he.symm.trans he'
          exact hff (Option.some.inj (hf.symm.trans hf'))
        · have other : ((db.within f' event.executionId stop).map fun d => (f',d)).count (f,d) = 0 := by
            rw [count_eq_zero,mem_map]
            rintro ⟨_,-,heq⟩
            exact hff (congrArg Prod.fst heq)
          rw [hgroup,other]
          exact Option.map_id_apply
        · rw [hrows,away]
          cases (db.marked id now).groups.lookup (f',d) with
          | none | some => exact Option.map_id_apply
        · intro p hp
          have other : p event.executionId event.completion = false := by
            rw [eq_false_iff]
            intro ht
            exact hff (Option.some.inj (hf.symm.trans (hp _ _ ht)))
          rw [hevents,marked,other,Bool.or_false]
  · rw [dispatch_idle fun event he hn => hdue ⟨event,he,hn⟩]
    exact .idle (fun event he hn => absurd ⟨event,he,hn⟩ hdue) rfl rfl fun _ _ => rfl

end
end FlowFabric.Postgres
