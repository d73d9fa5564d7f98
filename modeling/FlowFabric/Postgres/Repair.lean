import FlowFabric.Postgres.Advance
import FlowFabric.Postgres.Requests

/-! Dispatches that are cut short. The event is marked before its edges are advanced, and the reconciler
looks at events that are not marked. -/
namespace FlowFabric.Postgres
open Foundation List Along GroupRow

/-- The dispatcher and the reconciler, with the place where each dispatch stops. -/
inductive Dispatching where
  | dispatchCompletion (eventId : Nat) (stop : Option Nat)
  | reconcileTick (filter : ScannerFilter) (staleThresholdMs : Int) (stop : Nat → Option Nat)

namespace Dispatching

def request : Dispatching → Request
  | .dispatchCompletion id stop => .dispatchCompletion id stop
  | .reconcileTick filter staleThresholdMs stop => .reconcileTick filter staleThresholdMs stop

def jobs (now : Int) (db : Db) : Dispatching → List (Nat × Option Nat)
  | .dispatchCompletion id stop => [(id,stop)]
  | .reconcileTick filter staleThresholdMs stop =>
    (db.staleEvents filter (now - staleThresholdMs)).map fun id => (id,stop id)

/-- A tick of the reconciler in which no dispatch stops early. -/
def isSoundTick : Dispatching → Prop
  | .dispatchCompletion .. => False
  | .reconcileTick _ _ stop => ∀ id, stop id = none

end Dispatching

/-! ### The log of counted edges -/

/-- The tables, and a line for every edge that was counted, with its event and its group. -/
structure Ledger where
  db : Db
  log : List (Nat × Uuid × Uuid) := []

def lines (id : Nat) (f : Uuid) (edges : List Uuid) : List (Nat × Uuid × Uuid) := edges.map fun d => (id,f,d)

def Db.grouped (db : Db) (k : Uuid × Uuid) : Bool := (db.groups.lookup k).isSome

/-- The edges that a dispatch counts. One without a group is passed over. -/
def Db.reached (db : Db) (id : Nat) (stop : Option Nat) : List (Nat × Uuid × Uuid) :=
  match db.events[id]? with
  | none => []
  | some event =>
    match event.dispatchedAtMs, event.completion.flowId with
    | none, some f => (lines id f (db.within f event.executionId stop)).filter fun line => db.grouped line.2
    | _, _ => []

variable {id before : Nat} {k : Uuid × Uuid}

theorem reached_idle {db : Db} (h : ∀ event, db.events[id]? = some event → event.dispatchedAtMs ≠ none)
    (stop : Option Nat) : db.reached id stop = [] := by
  unfold Db.reached
  cases he : db.events[id]? with
  | none => rfl
  | some event =>
    dsimp only
    cases hn : event.dispatchedAtMs with
    | none => exact absurd hn (h event he)
    | some => rfl

theorem reached_due {db : Db} {event : EventRow} (he : db.events[id]? = some event)
    (hn : event.dispatchedAtMs = none) (stop : Option Nat) : db.reached id stop = match event.completion.flowId with
      | none => []
      | some f => (lines id f (db.within f event.executionId stop)).filter fun line => db.grouped line.2 := by
  rw [Db.reached,he]
  dsimp only
  rw [hn]
  cases event.completion.flowId <;> rfl

def account (now : Int) (job : Nat × Option Nat) (s : Ledger) : Ledger :=
  ⟨(dispatchCompletion job.1 job.2 now s.db).2,s.log ++ s.db.reached job.1 job.2⟩

def record (t : Dispatching × Int) (s : Ledger) : Ledger := runFrom (account t.2) s (t.1.jobs t.2 s.db)

private theorem runFrom_account (now : Int) (jobs : List (Nat × Option Nat)) (s : Ledger) :
    (runFrom (account now) s jobs).db = jobs.foldl (fun db job => (dispatchCompletion job.1 job.2 now db).2) s.db := by
  induction jobs generalizing s with
  | nil => rfl
  | cons job jobs ih => exact ih (account now job s)

private theorem record_db (t : Dispatching × Int) (s : Ledger) : (record t s).db = after ⟨t.1.request,t.2⟩ s.db := by
  obtain ⟨t,now⟩ := t
  rw [record,runFrom_account]
  cases t with
  | dispatchCompletion => rfl
  | reconcileTick => exact foldl_map

/-! ### What the groups have counted -/

/-- The group has one more settled upstream for every line of the log. -/
def Accounts (k : Uuid × Uuid) (before : Nat) (s : Ledger) : Prop :=
  (s.db.groups.lookup k).map settled = some (before + (s.log.map Prod.snd).count k)

private theorem settled_drained (o : Option GroupRow) : (o.map drained).map settled = o.map settled := by
  cases o <;> rfl

theorem settled_advances (f upstream : Uuid) (outcome : OutcomeKind) (now : Int) (ds : List Uuid) (db : Db)
    (k : Uuid × Uuid) : ((ds.foldl (advanceEdgeGroup f upstream outcome now) db).groups.lookup k).map settled =
      ((db.groups.lookup k).map settled).map (· + (ds.map fun d => (f,d)).count k) := by
  rw [← settled_drained,group_advances]
  cases db.groups.lookup k with
  | none => rfl
  | some g =>
    simp only [Option.map_some,Option.some.injEq]
    exact g.drained.settled_iterate outcome _

private theorem grouped_dispatch (id : Nat) (stop : Option Nat) (now : Int) (db : Db) :
    (dispatchCompletion id stop now db).2.grouped = db.grouped := by
  funext k
  by_cases hd : ∃ event, db.events[id]? = some event ∧ event.dispatchedAtMs = none
  · obtain ⟨event,he,hn⟩ := hd
    rw [dispatch_due he hn]
    cases event.completion.flowId with
    | none => rfl
    | some =>
      rw [Db.grouped,← Option.isSome_map (f := settled),settled_advances,Option.isSome_map,Option.isSome_map]
      rfl
  · rw [dispatch_idle fun event he hn => hd ⟨event,he,hn⟩]

private theorem accounts_account {s : Ledger} (h : Accounts k before s) (now : Int)
    (job : Nat × Option Nat) : Accounts k before (account now job s) := by
  obtain ⟨id,stop⟩ := job
  rw [Accounts,account,map_append,count_append,← Nat.add_assoc]
  by_cases hd : ∃ event, s.db.events[id]? = some event ∧ event.dispatchedAtMs = none
  · obtain ⟨event,he,hn⟩ := hd
    rw [dispatch_due he hn,reached_due he hn]
    cases event.completion.flowId with
    | none => exact h
    | some f =>
      have grouped : s.db.grouped k = true := by rw [Db.grouped,← Option.isSome_map (f := settled),h]; rfl
      have counted (ds : List Uuid) : (((lines id f ds).filter fun line => s.db.grouped line.2).map Prod.snd).count k =
          (ds.map fun d => (f,d)).count k := by
        rw [← count_filter grouped (l := ds.map fun d => (f,d)),lines,filter_map,filter_map,map_map]
        rfl
      rw [settled_advances]
      change (((s.db.groups.lookup k)).map _).map _ = _
      rw [h,counted]
      rfl
  · have idle : ∀ event, s.db.events[id]? = some event → event.dispatchedAtMs ≠ none :=
      fun event he hn => hd ⟨event,he,hn⟩
    rw [dispatch_idle idle,reached_idle idle]
    exact h

/-! ### One event -/

def Ledger.linesOf (s : Ledger) (id : Nat) : List (Nat × Uuid × Uuid) := s.log.filter (·.1 = id)

def Ledger.isMarked (s : Ledger) (id : Nat) : Bool := s.db.events[id]?.any fun event => event.dispatchedAtMs.isSome

/-- The event of an execution of the flow, whose outgoing edges are these. -/
structure Watches (id : Nat) (f e : Uuid) (edges : List Uuid) (grouped : Uuid × Uuid → Bool) (s : Ledger) : Prop where
  event : ∃ event, s.db.events[id]? = some event ∧ event.executionId = e ∧ event.completion.flowId = some f
  outgoing : s.db.outgoing f e = edges
  groups : s.db.grouped = grouped
  unmarked : s.isMarked id = false → s.linesOf id = []
  once : ∃ n, s.linesOf id = (lines id f (edges.take n)).filter fun line => grouped line.2

/-- The dispatch of the event, if it is the one that marks it, gets through all of its edges. -/
def WholeJob (id : Nat) (edges : List Uuid) (s : Ledger) (job : Nat × Option Nat) : Prop :=
  job.1 = id → s.isMarked id = false → edges.length ≤ job.2.getD edges.length

section
variable {id : Nat} {f e : Uuid} {edges : List Uuid} {grouped : Uuid × Uuid → Bool} {s : Ledger}

private theorem isMarked_of {event : EventRow} (he : s.db.events[id]? = some event) :
    s.isMarked id = event.dispatchedAtMs.isSome := by
  rw [Ledger.isMarked,he,Option.any_some]

private theorem account_event (h : Watches id f e edges grouped s) (now : Int) (job : Nat × Option Nat) :
    ((account now job s).isMarked id = true ↔ s.isMarked id = true ∨ job.1 = id) ∧
      (account now job s).linesOf id = s.linesOf id ++ if job.1 = id ∧ s.isMarked id = false then
          (lines id f (edges.take (job.2.getD edges.length))).filter fun line => grouped line.2 else [] := by
  obtain ⟨id',stop⟩ := job
  obtain ⟨⟨event,he,heid,hf⟩,ho,hg,-,-⟩ := h
  constructor
  · have later : (account now (id',stop) s).db.events[id]? = _ := getElem?_dispatch he
    rw [isMarked_of later,isMarked_of he]
    by_cases hid : id' = id
    · cases hn : event.dispatchedAtMs <;> simp [hid,hn]
    · simp [hid]
  · rw [Ledger.linesOf,account,filter_append]
    refine congrArg (s.linesOf id ++ ·) ?_
    rw [isMarked_of he]
    have first : ∀ line ∈ s.db.reached id' stop, line.1 = id' := by
      intro line hl
      unfold Db.reached at hl
      split at hl
      · cases hl
      · split at hl
        · obtain ⟨d,-,rfl⟩ := mem_map.mp (mem_filter.mp hl).1
          rfl
        · cases hl
    by_cases hid : id' = id
    · subst hid
      rw [filter_eq_self.mpr fun line hl => decide_eq_true (first line hl)]
      cases hn : event.dispatchedAtMs with
      | none =>
        rw [if_pos ⟨rfl,rfl⟩,reached_due he hn,hf,← hg,← ho,← heid]
        rfl
      | some =>
        rw [if_neg (by simp),reached_idle]
        intro event' he' hn'
        cases he.symm.trans he'
        rw [hn] at hn'
        cases hn'
    · rw [if_neg fun h => hid h.1,filter_eq_nil_iff]
      intro line hl
      simpa [first line hl] using hid

private theorem Watches.account (h : Watches id f e edges grouped s) (now : Int) (job : Nat × Option Nat) :
    Watches id f e edges grouped (account now job s) := by
  obtain ⟨hm,hl⟩ := account_event h now job
  constructor
  · obtain ⟨event,he,heid,hf⟩ := h.event
    refine ⟨_,getElem?_dispatch he,?_⟩
    split
    · exact ⟨heid,hf⟩
    · exact ⟨heid,hf⟩
  · have edges : (Postgres.account now job s).db.edges = s.db.edges := edges_dispatch
    rw [Db.outgoing,edges]
    exact h.outgoing
  · exact (grouped_dispatch _ _ _ _).trans h.groups
  · intro hn
    have hn' : ¬ (Postgres.account now job s).isMarked id = true := by rw [hn]; decide
    rw [hm,not_or] at hn'
    rw [hl,if_neg fun h => hn'.2 h.1,append_nil]
    exact h.unmarked (Bool.not_eq_true _ ▸ hn'.1)
  · rw [hl]
    split
    · rename_i hj
      rw [h.unmarked hj.2]
      exact ⟨_,rfl⟩
    · rw [append_nil]
      exact h.once

def Complete (id : Nat) (f : Uuid) (edges : List Uuid) (s : Ledger) : Prop :=
  s.isMarked id = true → s.linesOf id = lines id f edges

private theorem complete_account (h : Watches id f e edges grouped s) (hall : ∀ d ∈ edges, grouped (f,d) = true)
    (now : Int) (job : Nat × Option Nat) :
    Complete id f edges (account now job s) ↔ Complete id f edges s ∧ WholeJob id edges s job := by
  obtain ⟨hm,hl⟩ := account_event h now job
  have all (n : Nat) : (lines id f (edges.take n)).filter (fun line => grouped line.2) = lines id f (edges.take n) := by
    refine filter_eq_self.mpr fun line hline => ?_
    obtain ⟨d,hd,rfl⟩ := mem_map.mp hline
    exact hall d (mem_of_mem_take hd)
  rw [Complete,Complete,WholeJob,hm,hl,all]
  cases hmark : s.isMarked id with
  | true => simp
  | false =>
    rw [h.unmarked hmark]
    by_cases hid : job.1 = id
    · simp only [hid,or_true,and_self,if_true,nil_append,forall_const,Bool.false_eq_true,false_implies,true_and]
      constructor
      · intro heq
        have hlen := congrArg List.length heq
        simp only [lines,length_map,length_take] at hlen
        omega
      · intro hle
        rw [take_of_length_le hle]
    · simp [hid]

end

/-! ### Runs -/

section
variable {id : Nat} {f e : Uuid} {edges : List Uuid} {grouped : Uuid × Uuid → Bool} {s : Ledger}

def Whole (id : Nat) (edges : List Uuid) (s : Ledger) (t : Dispatching × Int) : Prop :=
  Along (account t.2) (WholeJob id edges) s (t.1.jobs t.2 s.db)

def Misses (id : Nat) (s : Ledger) (t : Dispatching × Int) : Prop := ∀ job ∈ t.1.jobs t.2 s.db, job.1 ≠ id

section
variable (h : Watches id f e edges grouped s) (t : Dispatching × Int)
include h

private theorem Watches.record : Watches id f e edges grouped (record t s) :=
  runFrom_invariant (I := Watches id f e edges grouped) (fun _ job hs => hs.account t.2 job) h _

private theorem complete_record (hall : ∀ d ∈ edges, grouped (f,d) = true) :
    Complete id f edges (record t s) ↔ Complete id f edges s ∧ Whole id edges s t :=
  runFrom_iff_along (I := Watches id f e edges grouped) (fun _ job hs => hs.account t.2 job)
    (fun _ job hs => complete_account hs hall t.2 job) h _

private theorem unmarked_record : ¬ (record t s).isMarked id = true ↔ ¬ s.isMarked id = true ∧ Misses id s t := by
  have misses : Along (account t.2) (fun _ job => job.1 ≠ id) s (t.1.jobs t.2 s.db) ↔ Misses id s t := by
    constructor
    · exact forall_mem (p := fun job : Nat × Option Nat => job.1 ≠ id) (fun _ _ hj => hj)
    · exact fun h => of_forall h s
  rw [← misses]
  refine runFrom_iff_along (I := Watches id f e edges grouped) (C := fun s => ¬ Ledger.isMarked s id = true)
    (fun _ job hs => hs.account t.2 job) ?_ h _
  intro s job hs
  rw [(account_event hs t.2 job).1,not_or]

end

theorem whole_of_soundTick {t : Dispatching × Int} (ht : t.1.isSoundTick) : Whole id edges s t := by
  obtain ⟨t,now⟩ := t
  cases t with
  | dispatchCompletion => exact ht.elim
  | reconcileTick filter staleThresholdMs stop =>
    have reaches : ∀ job ∈ (Dispatching.reconcileTick filter staleThresholdMs stop).jobs now s.db,job.2 = none := by
      intro job hj
      obtain ⟨id',-,rfl⟩ := mem_map.mp hj
      exact ht id'
    refine weaken (J := fun _ => True) (fun _ job _ hj _ _ => ?_) (fun _ _ _ _ => trivial) trivial (of_forall reaches s)
    rw [hj]
    exact le_refl edges.length

end

def arrivals (ts : List (Dispatching × Int)) : List Arrival := ts.map fun t => ⟨t.1.request,t.2⟩

theorem runFrom_record_db (ts : List (Dispatching × Int)) (s : Ledger) :
    (runFrom record s ts).db = runFrom after s.db (arrivals ts) := by
  induction ts generalizing s with
  | nil => rfl
  | cons t ts ih =>
    rw [runFrom,ih,record_db]
    rfl

/-- However the dispatches of an event are cut short, the groups count exactly the lines of the log and no
edge of the event has two of them. After ticks of the reconciler that are not interrupted each edge has its
line exactly when each has a group, no dispatch was cut short while it marked the event, and some request
looked at it. -/
theorem counted_once_iff {db : Db} {id : Nat} {event : EventRow} {f : Uuid} (he : db.events[id]? = some event)
    (hn : event.dispatchedAtMs = none) (hf : event.completion.flowId = some f)
    (faults : List (Dispatching × Int)) {ticks : List (Dispatching × Int)} (ht : ∀ t ∈ ticks, t.1.isSoundTick) :
    let edges := db.outgoing f event.executionId
    let s := runFrom record ⟨db,[]⟩ (faults ++ ticks)
    s.db = runFrom after db (arrivals (faults ++ ticks)) ∧ (∀ k g, db.groups.lookup k = some g →
        (s.db.groups.lookup k).map settled = some (g.settled + (s.log.map Prod.snd).count k)) ∧
      (∃ n, s.linesOf id = (lines id f (edges.take n)).filter fun line => db.grouped line.2) ∧
      (s.linesOf id = lines id f edges ↔ (∀ d ∈ edges, db.grouped (f,d) = true) ∧
        Along record (Whole id edges) ⟨db,[]⟩ faults ∧
          (edges = [] ∨ ¬ Along record (Misses id) ⟨db,[]⟩ (faults ++ ticks))) := by
  intro edges s
  have start : Watches id f event.executionId edges db.grouped ⟨db,[]⟩ :=
    ⟨⟨event,he,rfl,hf⟩,rfl,rfl,fun _ => rfl,⟨0,rfl⟩⟩
  have watches : Watches id f event.executionId edges db.grouped s :=
    runFrom_invariant (I := Watches id f event.executionId edges db.grouped) (fun _ t hs => hs.record t) start _
  refine ⟨runFrom_record_db _ _,?_,watches.once,?_⟩
  · intro k g hg
    refine runFrom_invariant (I := Accounts k g.settled) (fun _ t hs => ?_) ?_ _
    · exact runFrom_invariant (I := Accounts k g.settled) (fun _ job hs => accounts_account hs t.2 job) hs _
    rw [Accounts,hg]
    rfl
  by_cases hall : ∀ d ∈ edges, db.grouped (f,d) = true
  · have unmarked : ¬ (⟨db,[]⟩ : Ledger).isMarked id = true := by
      rw [isMarked_of he,hn]
      decide
    have complete : Complete id f edges s ↔ Along record (Whole id edges) ⟨db,[]⟩ faults := by
      have run := runFrom_iff_along (I := Watches id f event.executionId edges db.grouped)
        (fun _ t hs => hs.record t) (fun _ t hs => complete_record hs t hall) start (faults ++ ticks)
      have vacuous : Complete id f edges ⟨db,[]⟩ := fun h => absurd h unmarked
      rw [run,and_iff_right vacuous,append]
      exact and_iff_left (weaken (J := fun _ => True) (fun _ _ _ => whole_of_soundTick)
        (fun _ _ _ _ => trivial) trivial (of_forall ht _))
    have missed : ¬ s.isMarked id = true ↔ Along record (Misses id) ⟨db,[]⟩ (faults ++ ticks) := by
      have run := runFrom_iff_along (I := Watches id f event.executionId edges db.grouped)
        (C := fun s => ¬ Ledger.isMarked s id = true) (fun _ t hs => hs.record t)
        (fun _ t hs => unmarked_record hs t) start (faults ++ ticks)
      exact run.trans (and_iff_right unmarked)
    rw [and_iff_right hall,← complete,← missed,not_not]
    cases hm : s.isMarked id with
    | true => simp [Complete,hm]
    | false =>
      have vacuous : Complete id f edges s := fun h => by
        rw [hm] at h
        cases h
      rw [watches.unmarked hm,and_iff_right vacuous,eq_comm,lines,map_eq_nil_iff]
      exact (or_iff_left Bool.false_ne_true).symm
  · -- the line of an edge without a group is missing
    refine iff_of_false (fun h => hall fun d hd => ?_) fun h => hall h.1
    obtain ⟨n,once⟩ := watches.once
    have line : (id,f,d) ∈ s.linesOf id := h ▸ mem_map_of_mem hd
    rw [once] at line
    exact (mem_filter.mp line).2

namespace Client

def trio : Db := { partition with execs := (partition.execs.insert 2 fresh).insert 3 fresh }

/-- A flow in which the second and the third execution wait for the first, which is completed. -/
def fannedOut : Db :=
  runFrom after trio
    [⟨.createFlow 9,0⟩,⟨.addExecutionToFlow 9 1,1⟩,⟨.addExecutionToFlow 9 2,2⟩,⟨.addExecutionToFlow 9 3,3⟩,
      ⟨.stageDependencyEdge ⟨9,21,1,2,3⟩,4⟩,⟨.stageDependencyEdge ⟨9,22,1,3,4⟩,5⟩,
      ⟨.applyDependencyToChild ⟨9,21,2⟩,6⟩,⟨.applyDependencyToChild ⟨9,22,3⟩,7⟩,takes 1 alice 8,
      ⟨.call 1 (.worker ⟨0,1,10⟩ (.complete none)),9⟩]

def tick : Dispatching × Int := (.reconcileTick {} 0 (fun _ => none),30)

theorem tick_sound : ∀ t ∈ [tick], t.1.isSoundTick := by
  intro t ht
  rw [mem_singleton.mp ht]
  exact fun _ => rfl

/-- A dispatch that ended before it marked the event is made up for. -/
theorem unmarked_repaired : (runFrom record ⟨fannedOut,[]⟩ ([] ++ [tick])).linesOf 0 = [(0,9,3),(0,9,2)] := by
  have event : fannedOut.events[0]? = some ⟨1,⟨some 9,.success,9,none,none⟩,9,none⟩ := rfl
  have once := counted_once_iff event rfl rfl [] tick_sound
  refine once.2.2.2.mpr ⟨by decide,trivial,.inr ?_⟩
  intro h
  exact h.1 (0,none) (by decide) rfl

/-- One that ended after the first edge is not. -/
theorem marked_not_repaired : let s := runFrom record ⟨fannedOut,[]⟩ [(.dispatchCompletion 0 (some 1),20),tick]
    fannedOut.outgoing 9 1 = [3,2] ∧ s.linesOf 0 = [(0,9,3)] ∧ (s.db.groups.lookup (9,3)).map settled = some 1 ∧
      (s.db.groups.lookup (9,2)).map settled = some 0 ∧ after ⟨.reconcileTick {} 0 (fun _ => none),40⟩ s.db = s.db :=
  ⟨rfl,rfl,rfl,rfl,rfl⟩

end Client
end FlowFabric.Postgres
