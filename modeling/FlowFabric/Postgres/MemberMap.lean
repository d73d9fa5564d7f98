import FlowFabric.Postgres.Requests

/-! Signals and expiries of the waitpoints of a suspension. Both write under the key of the waitpoint, a
signal into an array and an expiry over whatever is there. -/
namespace FlowFabric.Postgres
open Foundation Option Function Db

def addSignal (key : String) (s : Signal) (byWp : SignalsByWaitpoint) : SignalsByWaitpoint :=
  update byWp key (byWp key ++ [s])

def takesSignals (memberMap : String → Option MemberSlot) (key : String) : Prop :=
  ∃ entries, slotEntries memberMap key = .ok entries

section
variable {memberMap : String → Option MemberSlot} {key : String}

private theorem signals_of_entries {entries : List MemberEntry} (h : slotEntries memberMap key = .ok entries) :
    signalsByWp memberMap key = entries.filterMap MemberEntry.signal? := by
  rw [signalsByWp]
  cases hm : memberMap key with
  | none =>
    rw [slotEntries,hm] at h
    cases h
    rfl
  | some slot =>
    rw [slotEntries,hm] at h
    cases slot with
    | array =>
      cases h
      rfl
    | neverCommitted => cases h

theorem signalsByWp_update (slot : MemberSlot) : signalsByWp (update memberMap key (some slot)) =
      update (signalsByWp memberMap) key slot.signals := by
  funext k
  rw [signalsByWp,update_apply,update_apply]
  split <;> rfl

private theorem takesSignals_array (entries : List MemberEntry) (k : String) :
    takesSignals (update memberMap key (some (.array entries))) k ↔ k = key ∨ takesSignals memberMap k := by
  by_cases hk : k = key
  · subst hk
    exact iff_of_true ⟨entries,by rw [slotEntries,update_self]⟩ (.inl rfl)
  · rw [takesSignals,takesSignals,slotEntries,slotEntries,update_of_ne hk]
    exact (or_iff_right hk).symm

theorem takesSignals_closed (now : Int) (k : String) :
    takesSignals (update memberMap key (some (.neverCommitted now))) k ↔ k ≠ key ∧ takesSignals memberMap k := by
  by_cases hk : k = key
  · subst hk
    refine iff_of_false ?_ (fun h => h.1 rfl)
    rintro ⟨entries,h⟩
    rw [slotEntries,update_self] at h
    cases h
  · rw [takesSignals,takesSignals,slotEntries,slotEntries,update_of_ne hk]
    exact (and_iff_right hk).symm

end

variable {key : String} {row recorded : SuspensionRow} {a : DeliverArgs} {e : Uuid}

theorem record_signals {s : Signal} (h : row.record key s = .ok recorded) :
    takesSignals row.memberMap key ∧ recorded.condition = row.condition ∧
      signalsByWp recorded.memberMap = addSignal key s (signalsByWp row.memberMap) ∧
      ∀ k, takesSignals row.memberMap k → takesSignals recorded.memberMap k := by
  rw [SuspensionRow.record,bind_ok] at h
  obtain ⟨entries,he,h⟩ := h
  cases h
  refine ⟨⟨entries,he⟩,rfl,?_,?_⟩
  · rw [signalsByWp_update,addSignal,signals_of_entries he,MemberSlot.signals,List.filterMap_append]
    rfl
  · intro k hk
    exact (takesSignals_array _ k).mpr (.inr hk)

theorem record_of_takes (h : takesSignals row.memberMap key) (s : Signal) :
    ∃ recorded, row.record key s = .ok recorded := by
  obtain ⟨entries,he⟩ := h
  rw [SuspensionRow.record,he]
  exact ⟨_,rfl⟩

/-! ### The waitpoints that take signals -/

variable {db db' : Db}

def Db.suspensionOf (db : Db) (e : Uuid) : Option SuspensionRow := (db.rowsOf e).bind Rows.suspension

def effectOf (satisfied : Bool) : SignalEffect :=
  if satisfied = true then .resumeConditionSatisfied else .appendedToWaitpoint

section
variable {a : DeliverArgs} {now : Int} {db : Db} {wp : WaitpointRow} {row : SuspensionRow}

private theorem deliverSignal_refused {err : EngineError} (ha : authenticate a db = .ok wp)
    (hs : db.suspensionOf a.executionId = some row) (hr : row.record wp.waitpointKey a.signal = .error err) :
    deliverSignal a now db = .error err := by
  obtain ⟨r,hrow,hsus⟩ := bind_eq_some_iff.mp hs
  rw [deliverSignal_of_ok ha,deliverTo,hrow]
  change (deliverUnder wp.waitpointKey a.signal now r >>= _) = _
  rw [deliverUnder,hsus]
  change ((row.record wp.waitpointKey a.signal >>= _) >>= _) = _
  rw [hr]
  rfl

theorem deliverSignal_recorded {recorded : SuspensionRow} (now : Int) (ha : authenticate a db = .ok wp)
    (hs : db.suspensionOf a.executionId = some row) (hr : row.record wp.waitpointKey a.signal = .ok recorded) :
    ∃ db', deliverSignal a now db = .ok (.reply (.accepted (effectOf recorded.satisfied)),db') ∧
      db'.suspensionOf a.executionId = some recorded := by
  obtain ⟨r,hrow,hsus⟩ := bind_eq_some_iff.mp hs
  obtain ⟨done,hd,hreply,hrows⟩ : ∃ done, deliverUnder wp.waitpointKey a.signal now r = .ok done ∧ done.reply =
      .accepted (effectOf recorded.satisfied) ∧ done.rows = r.signalled recorded := by
    rw [deliverUnder,hsus]
    change ∃ done, (row.record wp.waitpointKey a.signal >>= _) = .ok done ∧ _
    rw [hr]
    change ∃ done, (if recorded.satisfied = true then pure _ else pure _ : Transaction) = .ok done ∧ _
    cases recorded.satisfied with
    | true | false => exact ⟨_,rfl,rfl,rfl⟩
  have stored : (db.commitOn a.executionId now done).suspensionOf a.executionId = some recorded := by
    rw [suspensionOf,rowsOf_commitOn,if_pos rfl,bind_some,hrows]
    rfl
  rw [deliverSignal_of_ok ha,deliverTo,hrow]
  change ∃ db', (deliverUnder wp.waitpointKey a.signal now r >>= _) = _ ∧ _
  rw [hd,← hreply]
  change ∃ db', (if done.reply = _ then _ else _) = Except.ok _ ∧ _
  split <;> exact ⟨_,rfl,stored⟩

end

/-- The other executions keep their suspension row, and no waitpoint is written. -/
structure Spares (db db' : Db) : Prop where
  keystore : db'.keystore = db.keystore
  waitpoints : ∀ id wp, db'.waitpoints.lookup id = some wp → db.waitpoints.lookup id = some wp

theorem Spares.refl (db : Db) : Spares db db := ⟨rfl,fun _ _ h => h⟩

theorem deliverSignal_spares (a : DeliverArgs) (now : Int) (db : Db) : Spares db ((deliverSignal a now db).db db) := by
  cases ha : authenticate a db with
  | error =>
    rw [deliverSignal_of_error ha]
    exact .refl db
  | ok wp =>
    rw [deliverSignal,ha]
    change Spares db (Method.db db (demand _ _ >>= _))
    rw [Method.db_demand]
    cases db.rowsOf a.executionId with
    | none => exact .refl db
    | some r =>
      rw [map_some,getD_some]
      cases deliverUnder wp.waitpointKey a.signal now r with
      | error => exact .refl db
      | ok done =>
        change Spares db (Method.db db (if done.reply = _ then _ else _))
        split
        · refine ⟨rfl,?_⟩
          intro id row h
          rw [Method.db_pure,Table.lookup_keep,filter_eq_some_iff] at h
          exact h.1
        · exact ⟨rfl,fun _ _ h => h⟩

/-! ### Histories -/

inductive Traffic where
  | deliverSignal (a : DeliverArgs)
  | closeWaitpoint (waitpointId : String)

def Traffic.request : Traffic → Request
  | .deliverSignal a => .deliverSignal a
  | .closeWaitpoint waitpointId => .closeWaitpoint waitpointId

/-- The tables, and the accepted signals of one execution by the key of their waitpoint. -/
structure Recording where
  db : Db
  delivered : SignalsByWaitpoint

open Recording

/-- The signals after one more, if it is for the execution and is accepted. -/
def Recording.heard (e : Uuid) (a : DeliverArgs) (now : Int) (s : Recording) : SignalsByWaitpoint :=
  match authenticate a s.db, deliverSignal a now s.db with
  | .ok wp, .ok _ => if a.executionId = e then addSignal wp.waitpointKey a.signal s.delivered else s.delivered
  | _, _ => s.delivered

def receive (e : Uuid) (t : Traffic × Int) (s : Recording) : Recording where
  db := after ⟨t.1.request,t.2⟩ s.db
  delivered :=
    match t.1 with
    | .deliverSignal a => s.heard e a t.2
    | .closeWaitpoint _ => s.delivered

private theorem receive_of_ok {a : DeliverArgs} {s : Recording} {wp : WaitpointRow} {done : Answer × Db} (now : Int)
    (ha : authenticate a s.db = .ok wp) (hd : deliverTo wp a now s.db = .ok done) :
    receive a.executionId (.deliverSignal a,now) s = ⟨done.2,addSignal wp.waitpointKey a.signal s.delivered⟩ := by
  have delivered := (deliverSignal_of_ok ha now).trans hd
  change mk (Method.db s.db (deliverSignal a now s.db)) (s.heard a.executionId a now) = _
  rw [heard,ha,delivered]
  simp

/-- The suspension row has the signals so far, and the next signal for an open waitpoint is accepted and
evaluated together with them. -/
def Faithful (e : Uuid) (s : Recording) : Prop :=
  ∃ row, s.db.suspensionOf e = some row ∧ signalsByWp row.memberMap = s.delivered ∧
    ∀ a wp now, a.executionId = e → authenticate a s.db = .ok wp → (serve ⟨.deliverSignal a,now⟩ s.db).1 =
        .ok (.reply (.accepted (effectOf (evaluate (addSignal wp.waitpointKey a.signal s.delivered) row.condition))))

def Sound (e : Uuid) (s : Recording) (row : SuspensionRow) : Prop :=
  s.db.suspensionOf e = some row ∧ signalsByWp row.memberMap = s.delivered ∧
    ∀ a wp, a.executionId = e → authenticate a s.db = .ok wp → takesSignals row.memberMap wp.waitpointKey

variable {s : Recording}

theorem faithful_iff : Faithful e s ↔ ∃ row, Sound e s row := by
  constructor
  · rintro ⟨row,hs,hd,ha⟩
    refine ⟨row,hs,hd,?_⟩
    rintro a wp rfl hwp
    have answer := ha a wp 0 rfl hwp
    cases hr : row.record wp.waitpointKey a.signal with
    | ok => exact (record_signals hr).1
    | error =>
      change (Method.result s.db (deliverSignal a 0 s.db)).1 = _ at answer
      rw [deliverSignal_refused hwp hs hr] at answer
      cases answer
  · rintro ⟨row,hs,hd,ha⟩
    refine ⟨row,hs,hd,?_⟩
    rintro a wp now rfl hwp
    obtain ⟨recorded,hr⟩ := record_of_takes (ha a wp rfl hwp) a.signal
    obtain ⟨db',hdel,-⟩ := deliverSignal_recorded now hwp hs hr
    obtain ⟨-,hc,hsig,-⟩ := record_signals hr
    change (Method.result s.db (deliverSignal a now s.db)).1 = _
    rw [hdel,← hd,← hsig,← hc]
    rfl

/-! ### Deliveries -/

private theorem suspensionOf_deliverSignal_ne {now : Int} (he : a.executionId ≠ e) :
    ((deliverSignal a now db).db db).suspensionOf e = db.suspensionOf e := by
  cases ha : authenticate a db with
  | error => rw [deliverSignal_of_error ha]
  | ok => rw [suspensionOf,rowsOf_deliverSignal ha,if_neg (Ne.symm he),suspensionOf]

private theorem sound_deliver (h : Sound e s row) (a : DeliverArgs)
    (now : Int) : ∃ row', Sound e (receive e (.deliverSignal a,now) s) row' := by
  obtain ⟨hs,hd,ht⟩ := h
  have spares := deliverSignal_spares a now s.db
  -- a waitpoint that is open afterwards was open before
  have wasOpen {a' : DeliverArgs} {wp' : WaitpointRow}
      (h : authenticate a' ((deliverSignal a now s.db).db s.db) = .ok wp') : authenticate a' s.db = .ok wp' := by
    rw [authenticate_ok,spares.keystore] at h
    exact authenticate_ok.mpr ⟨spares.waitpoints _ _ h.1,h.2⟩
  by_cases he : a.executionId = e
  · subst he
    cases ha : authenticate a s.db with
    | error =>
      refine ⟨row,?_,?_,fun a' wp' he' h => ht a' wp' he' (wasOpen h)⟩
      · change ((deliverSignal a now s.db).db s.db).suspensionOf _ = _
        rw [deliverSignal_of_error ha]
        exact hs
      · change _ = s.heard a.executionId a now
        rw [heard,ha]
        exact hd
    | ok wp =>
      obtain ⟨recorded,hr⟩ := record_of_takes (ht a wp rfl ha) a.signal
      obtain ⟨db',hdel,hsus⟩ := deliverSignal_recorded now ha hs hr
      obtain ⟨-,-,hsig,htake⟩ := record_signals hr
      refine ⟨recorded,?_,?_,fun a' wp' he' h => htake _ (ht a' wp' he' (wasOpen h))⟩
      · change ((deliverSignal a now s.db).db s.db).suspensionOf _ = _
        rw [hdel]
        exact hsus
      · change _ = s.heard a.executionId a now
        rw [heard,ha,hdel,hsig,hd]
        exact (if_pos rfl).symm
  · refine ⟨row,?_,?_,fun a' wp' he' h => ht a' wp' he' (wasOpen h)⟩
    · exact (suspensionOf_deliverSignal_ne he).trans hs
    · change _ = s.heard e a now
      rw [heard]
      split
      · rw [if_neg he]
        exact hd
      · exact hd

/-! ### Expiries -/

section
variable {db : Db} {id : String} {wp : WaitpointRow} {now : Int}

theorem authenticate_closed {a : DeliverArgs} {wp' : WaitpointRow} :
    authenticate a (db.closed id wp now) = .ok wp' ↔ a.waitpointId ≠ id ∧ authenticate a db = .ok wp' := by
  have waitpoints : (db.closed id wp now).waitpoints = db.waitpoints.erase id := write_frame (by intros; rfl) _ _ _
  have keystore : (db.closed id wp now).keystore = db.keystore := write_frame (by intros; rfl) _ _ _
  by_cases hid : a.waitpointId = id
  · rw [authenticate_ok,waitpoints,hid,AList.lookup_erase]
    exact iff_of_false (fun h => by cases h.1) (fun h => h.1 rfl)
  · have same : authenticate a (db.closed id wp now) = authenticate a db := by
      rw [authenticate,authenticate,waitpoints,AList.lookup_erase_ne hid,keystore]
    rw [same]
    exact (and_iff_right hid).symm

theorem suspensionOf_closed (e : Uuid) : (db.closed id wp now).suspensionOf e =
      if e = wp.executionId then (db.suspensionOf e).map (.closedUnder (wp.closeKey id) now) else db.suspensionOf e := by
  rw [suspensionOf,closed,rowsOf_write]
  split
  · rename_i he
    subst he
    rw [suspensionOf]
    change ((db.rowsOf wp.executionId).map _).bind _ = _
    cases db.rowsOf wp.executionId <;> rfl
  · rfl

end

/-- The expiry of a waitpoint of the execution finds no signals under its key, and no other open waitpoint
has that key. -/
def Harmless (e : Uuid) (s : Recording) (t : Traffic × Int) : Prop :=
  match t.1 with
  | .deliverSignal _ => True
  | .closeWaitpoint id => ∀ wp, s.db.waitpoints.lookup id = some wp → wp.executionId = e → wp.expired t.2 = true →
      s.delivered (wp.closeKey id) = [] ∧
        ∀ a wp', a.executionId = e → a.waitpointId ≠ id → authenticate a s.db = .ok wp' →
          wp'.waitpointKey ≠ wp.closeKey id

theorem signals_closed (memberMap : String → Option MemberSlot) (key : String) (now : Int) :
    signalsByWp (update memberMap key (some (.neverCommitted now))) = signalsByWp memberMap ↔
      signalsByWp memberMap key = [] := by
  rw [signalsByWp_update,MemberSlot.signals,update_eq_self_iff,eq_comm]

private theorem sound_closed_iff (h : Sound e s row) {id : String} {wp : WaitpointRow} (now : Int)
    (he : wp.executionId = e) :
    (∃ row', Sound e ⟨s.db.closed id wp now,s.delivered⟩ row') ↔ s.delivered (wp.closeKey id) = [] ∧
        ∀ a wp', a.executionId = e → a.waitpointId ≠ id → authenticate a s.db = .ok wp' →
          wp'.waitpointKey ≠ wp.closeKey id := by
  obtain ⟨hs,hd,ht⟩ := h
  have closed : (s.db.closed id wp now).suspensionOf e = some (row.closedUnder (wp.closeKey id) now) := by
    rw [suspensionOf_closed,if_pos he.symm,hs,map_some]
  constructor
  · rintro ⟨row',hs',hd',ht'⟩
    cases closed.symm.trans hs'
    constructor
    · rw [← hd] at hd' ⊢
      exact (signals_closed row.memberMap _ now).mp hd'
    · intro a wp' hae hid ha
      exact ((takesSignals_closed now _).mp (ht' a wp' hae (authenticate_closed.mpr ⟨hid,ha⟩))).1
  · rintro ⟨hnone,hkeys⟩
    refine ⟨_,closed,?_,?_⟩
    · rw [← hd] at hnone ⊢
      exact (signals_closed row.memberMap _ now).mpr hnone
    · intro a wp' hae ha
      obtain ⟨hid,ha⟩ := authenticate_closed.mp ha
      exact (takesSignals_closed now _).mpr ⟨hkeys a wp' hae hid ha,ht a wp' hae ha⟩

private theorem sound_close_iff (h : Sound e s row) (id : String)
    (now : Int) : (∃ row', Sound e (receive e (.closeWaitpoint id,now) s) row') ↔ Harmless e s (.closeWaitpoint id,now) := by
  change (∃ row', Sound e ⟨closeWaitpoint id now s.db,s.delivered⟩ row') ↔ _
  unfold closeWaitpoint
  -- without an expired waitpoint of the execution both sides hold
  have vacuous (hn : ∀ wp, s.db.waitpoints.lookup id = some wp → wp.executionId = e → ¬ wp.expired now = true) :
      Harmless e s (.closeWaitpoint id,now) :=
    fun wp hwp he hx => absurd hx (hn wp hwp he)
  cases hl : s.db.waitpoints.lookup id with
  | none =>
    refine iff_of_true ⟨row,h⟩ (vacuous ?_)
    intro wp hwp
    cases hl.symm.trans hwp
  | some wp =>
    dsimp only
    by_cases hx : wp.expired now = true
    · rw [if_pos hx]
      by_cases he : wp.executionId = e
      · rw [sound_closed_iff h now he]
        constructor
        · intro hh wp' hwp' _ _
          cases hl.symm.trans hwp'
          exact hh
        · exact fun hh => hh wp hl he hx
      · refine iff_of_true ⟨row,?_,h.2.1,?_⟩ (vacuous ?_)
        · exact (suspensionOf_closed e).trans ((if_neg (Ne.symm he)).trans h.1)
        · exact fun a wp' hae ha => h.2.2 a wp' hae (authenticate_closed.mp ha).2
        · intro wp' hwp' he'
          cases hl.symm.trans hwp'
          exact absurd he' he
    · rw [if_neg hx]
      refine iff_of_true ⟨row,h⟩ (vacuous ?_)
      intro wp' hwp' _
      cases hl.symm.trans hwp'
      exact hx

private theorem faithful_receive_iff (e : Uuid) (s : Recording) (t : Traffic × Int) (h : Faithful e s) :
    Harmless e s t ↔ Faithful e (receive e t s) := by
  obtain ⟨row,hrow⟩ := faithful_iff.mp h
  rw [faithful_iff]
  obtain ⟨traffic,now⟩ := t
  cases traffic with
  | deliverSignal a => exact iff_of_true trivial (sound_deliver hrow a now)
  | closeWaitpoint id => exact (sound_close_iff hrow id now).symm

/-! ### Suspensions -/

theorem faithful_of_suspend {h h' : Handle} {a : SuspendArgs} {now : Int} {db₀ : Db}
    (hs : suspendOn e h a now db₀ = .ok (.reply (.suspended h'),db)) : Faithful e ⟨db,fun _ => []⟩ := by
  rw [suspendOn] at hs
  split at hs
  · cases hs
  · simp only [suspend,Bool.false_eq_true,if_false,bind_ok,demand_ok,ensure_ok,pure_ok] at hs
    obtain ⟨r,hr,done,⟨row,hrow,_,he,kid,hk,_,-,rfl⟩,hdb⟩ := hs
    cases hdb
    refine faithful_iff.mpr ⟨⟨a.suspensionId,a.timeoutAt,a.condition,fun _ => none,a.timeoutBehavior⟩,?_,rfl,?_⟩
    · change ((db₀.commitOn e now _).rowsOf e).bind _ = _
      rw [rowsOf_commitOn,if_pos rfl]
      rfl
    · exact fun _ _ _ _ => ⟨[],rfl⟩

/-- From any suspension on the signals are kept, and are what the condition is evaluated on, exactly as
long as every expiry is harmless. -/
theorem signals_kept_iff {e : Uuid} {h h' : Handle} {a : SuspendArgs} {now : Int} {db₀ db : Db}
    (hs : suspendOn e h a now db₀ = .ok (.reply (.suspended h'),db)) (ts : List (Traffic × Int)) :
    Throughout (receive e) (Faithful e) ⟨db,fun _ => []⟩ ts ↔ Along (receive e) (Harmless e) ⟨db,fun _ => []⟩ ts :=
  throughout_iff_along (faithful_receive_iff e) (faithful_of_suspend hs)

namespace Client

/-- The execution waits for a first approval of either of two people, under one key, and for an audit. -/
def approvals : SuspendArgs :=
  { suspensionId := 7
    waitpoints := [.fresh "w1" "approval",.fresh "w2" "approval",.fresh "w3" "audit"]
    condition := .allOf [.single "approval" .wildcard,.single "audit" .wildcard], timeoutAt := some 100 }

def claimed : Db := after (takes 1 alice 1) partition

def suspended : Db := (suspendOn 1 ⟨0,1,10⟩ approvals 2 claimed).db claimed

theorem suspendOn_claimed : suspendOn 1 ⟨0,1,10⟩ approvals 2 claimed = .ok (.reply (.suspended ⟨0,1,10⟩),suspended) := rfl

def approved : Recording := receive 1 (.deliverSignal (approves "w1"),3) ⟨suspended,fun _ => []⟩

/-- The signal is recorded under the key of the first waitpoint. -/
theorem approved_eq : approved =
    ⟨(deliverTo ⟨1,"k1",hmacSign "51" "k1" 1 "w1","approval",some 100⟩ (approves "w1") 3 suspended).db suspended,
      addSignal "approval" (approves "w1").signal fun _ => []⟩ := by
  have ha : authenticate (approves "w1") suspended = .ok _ := (serve_approves rfl rfl rfl 3).1
  exact receive_of_ok (s := ⟨suspended,fun _ => []⟩) 3 ha rfl

theorem keys_approved {id : String} {wp : WaitpointRow} (h : approved.db.waitpoints.lookup id = some wp)
    (hid : id ≠ "w3") : wp.waitpointKey = "approval" := by
  have hw := Table.mem_rows.mpr ((deliverSignal_spares (approves "w1") 3 suspended).waitpoints id wp h)
  change (id,wp) ∈ [_,_,_] at hw
  simp only [List.mem_cons,List.not_mem_nil,or_false,Prod.mk.injEq] at hw
  rcases hw with ⟨he,-⟩ | ⟨-,hw⟩ | ⟨-,hw⟩
  · exact absurd he hid
  · rw [hw]
    rfl
  · rw [hw]
    rfl

/-- The waitpoint of the audit expires with nothing delivered to it. -/
theorem audit_expires : Throughout (receive 1) (Faithful 1) ⟨suspended,fun _ => []⟩
    [(.deliverSignal (approves "w1"),3),(.closeWaitpoint "w3",101)] := by
  refine (signals_kept_iff suspendOn_claimed _).mpr ⟨trivial,?_,trivial⟩
  intro wp hwp _ _
  cases (deliverSignal_spares (approves "w1") 3 suspended).waitpoints "w3" wp hwp
  refine ⟨by rw [← approved,approved_eq]; rfl,?_⟩
  intro a wp' _ hid ha
  rw [keys_approved (authenticate_ok.mp ha).1 hid]
  decide

/-- The expiry of the approved waitpoint takes the approval with it. An audit is not enough then, and the
other approver is refused. -/
theorem approval_lost : let s := receive 1 (.closeWaitpoint "w1",101) approved
    s.delivered "approval" = [(approves "w1").signal] ∧
      (s.db.suspensionOf 1).map (fun row => signalsByWp row.memberMap "approval") = some [] ∧
      (serve ⟨.deliverSignal (approves "w3"),102⟩ approved.db).1 = .ok (.reply (.accepted .resumeConditionSatisfied)) ∧
      (serve ⟨.deliverSignal (approves "w3"),102⟩ s.db).1 = .ok (.reply (.accepted .appendedToWaitpoint)) ∧
      (serve ⟨.deliverSignal (approves "w2"),102⟩ s.db).1 =
        .error (.corruption "member_map[wp_key] not a JSON array") := by
  rw [approved_eq]
  refine ⟨rfl,rfl,?_,?_,?_⟩ <;> exact (congrArg Prod.fst (serve_approves rfl rfl rfl 102).2).trans rfl

end Client
end FlowFabric.Postgres
