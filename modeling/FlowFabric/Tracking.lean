import FlowFabric.Meaning
import FlowFabric.Refusal

/-! A suspension from its request on: what the store keeps of the signals on its waitpoints is
the satisfier set of the delivered signals. -/
namespace FlowFabric
open Foundation List Delivery SuspendRequest WaitpointBinding

def SuspendRequest.bindings (r : SuspendRequest) : List (String × String) := r.waitpoints.filterMap (·.fresh?)

def ResumeCondition.tree (condition : ResumeCondition) : Node := compositeNodeToJson "" condition

def ResumeCondition.names : ResumeCondition → List String
  | .single _ (.byName name) => [name]
  | .single _ .wildcard => [""]
  | .operatorOnly => [operatorSentinel]
  | .timeoutOnly => [timeoutSentinel]
  | .allOf _ | .count .. => []

private theorem requireAll_ok {known keys : List String} {detail : String}
    (h : requireAll known detail keys = .ok ()) : ∀ key ∈ keys, key ∈ known := by
  induction keys with
  | nil => nofun
  | cons key rest ih =>
    simp only [requireAll,bind_ok,ensure_ok] at h
    obtain ⟨_,hk,hr⟩ := h
    simpa [hk] using ih hr

structure ValidCondition (r : SuspendRequest) : Prop where
  keyed : ∀ key matcher, r.resumeCondition = .single key matcher → ∀ b ∈ r.bindings, b.2 = key
  named : ∀ key, r.resumeCondition ≠ .single key (.byName "")
  composite : r.resumeCondition.validateComposite = .ok ()

variable {r : SuspendRequest}

private theorem mem_keys_of_bindings {b : String × String} (h : b ∈ r.bindings) :
    b.2 ∈ r.waitpoints.filterMap (·.key?) := by
  obtain ⟨binding,hm,hb⟩ := mem_filterMap.mp h
  refine mem_filterMap.mpr ⟨binding,hm,?_⟩
  cases binding with
  | fresh => cases hb; rfl
  | usePending => cases hb

theorem validateSuspendArgs_ok (h : validateSuspendArgs r = .ok ()) : ValidCondition r := by
  simp only [validateSuspendArgs,bind_ok,ensure_ok] at h
  obtain ⟨_,-,_,hprimary,_,hbindings,_,-,_,hname,_,-,hcomposite⟩ := h
  refine ⟨fun key matcher hc b hb => ?_,fun key hc => by simp [hc] at hname,hcomposite⟩
  unfold validateBindings at hbindings
  split at hbindings
  · -- one waitpoint at most: its key is compared with that of the condition
    rename_i hlen
    rcases hw : r.waitpoints with _ | ⟨binding,rest⟩
    · simp [bindings,hw] at hb
    · have hrest : rest = [] := by
        rw [hw,length_cons] at hlen
        exact length_eq_zero_iff.mp (by omega)
      subst hrest
      cases binding with
      | fresh id key' =>
        have hb' : b = (id,key') := by simpa [bindings,hw,fresh?] using hb
        simpa [primaryKeyMatches,hw,hc,hb'] using hprimary
      | usePending => simp [bindings,hw,fresh?] at hb
  · simp only [bind_ok] at hbindings
    obtain ⟨_,-,_,-,hextra⟩ := hbindings
    have hk := requireAll_ok hextra b.2 (mem_keys_of_bindings hb)
    simpa [hc,ResumeCondition.referencedWaitpointKeys,ResumeCondition.waitpointKeys] using hk

/-- A stored condition that stands for the requested one. -/
structure Reads (condition : ResumeCondition) (cond : Condition) : Prop where
  composite : cond.composite = condition.isComposite
  tree : condition.isComposite → cond.tree = some condition.tree
  names : cond.matchers.map (·.name) = condition.names

/-- The waitpoints are open under their keys with the condition of the request. -/
structure Opened (condition : ResumeCondition) (bindings : List (String × String)) (w : WaitKeys) : Prop where
  waitpoint : ∀ b ∈ bindings, ∃ p, w.waitpoint b.1 = some p ∧ p.waitpointKey = b.2
  reads : ∀ b ∈ bindings, ∃ cond, w.condition b.1 = some cond ∧ Reads condition cond

structure OpensOnly (ids : List String) (w w' : WaitKeys) : Prop where
  waitpoint : ∀ j, j ∉ ids → w'.waitpoint j = w.waitpoint j
  condition : ∀ j, j ∉ ids → w'.condition j = w.condition j
  satisfiedSet : w'.satisfiedSet = w.satisfiedSet

variable {r : SuspendRequest} {condition : ResumeCondition} {bindings : List (String × String)}
  {a others : SuspendArgs} {hmac : HmacSecrets} {now : Int} {w w' w'' : WaitKeys} {s t : Store}

theorem OpensOnly.trans {ids ids' : List String} (h : OpensOnly ids w w') (h' : OpensOnly ids' w' w'') :
    OpensOnly (ids ++ ids') w w'' := by
  refine ⟨fun j hj => ?_,fun j hj => ?_,h'.satisfiedSet.trans h.satisfiedSet⟩
  · rw [mem_append,not_or] at hj
    exact (h'.waitpoint j hj.2).trans (h.waitpoint j hj.1)
  · rw [mem_append,not_or] at hj
    exact (h'.condition j hj.2).trans (h.condition j hj.1)

theorem Opened.keep (h : Opened condition bindings w) {ids : List String} (ho : OpensOnly ids w w')
    (hd : ∀ b ∈ bindings, b.1 ∉ ids) : Opened condition bindings w' := by
  refine ⟨fun b hb => ?_,fun b hb => ?_⟩
  · rw [ho.waitpoint b.1 (hd b hb)]
    exact h.waitpoint b hb
  · rw [ho.condition b.1 (hd b hb)]
    exact h.reads b hb

theorem Opened.append {bindings' : List (String × String)} (h : Opened condition bindings w)
    (h' : Opened condition bindings' w) : Opened condition (bindings ++ bindings') w := by
  refine ⟨fun b hb => ?_,fun b hb => ?_⟩
  · exact (mem_append.mp hb).elim (h.waitpoint b) (h'.waitpoint b)
  · exact (mem_append.mp hb).elim (h.reads b) (h'.reads b)

private theorem openWaitpoint_opens {id key token : String}
    (ha : a.resumeCondition = resumeConditionToJson condition) (hn : w.condition id = none)
    (h : openWaitpoint a hmac now id key w = .ok (token,w')) :
    Opened condition [(id,key)] w' ∧ OpensOnly [id] w w' := by
  obtain ⟨cond,hc,hr⟩ : ∃ cond, initializeCondition (resumeConditionToJson condition) = some cond ∧
      Reads condition (writeConditionHash none cond) := by
    cases condition with
    | single key matcher =>
      cases matcher
      · exact ⟨_,rfl,rfl,nofun,rfl⟩
      · exact ⟨_,rfl,rfl,nofun,rfl⟩
    | operatorOnly | timeoutOnly => exact ⟨_,rfl,rfl,nofun,rfl⟩
    | allOf | count => exact ⟨_,rfl,rfl,fun _ => rfl,rfl⟩
  unfold openWaitpoint at h
  split at h
  · cases h
  · dsimp only at h
    rw [ha,hc,WaitKeys.setWaitpoint_condition,hn] at h
    cases h
    refine ⟨⟨?_,?_⟩,fun j hj => ?_,fun j hj => ?_,rfl⟩
    · simp
    · simpa using hr
    · simp_all
    · simp_all

theorem openExtras_opens {extras : List (String × String)} {bound : List (String × String × String)}
    (ha : a.resumeCondition = resumeConditionToJson condition) (hd : (extras.map (·.1)).Nodup)
    (hn : ∀ b ∈ extras, w.condition b.1 = none) (h : openExtras a hmac now extras w = .ok (bound,w')) :
    Opened condition extras w' ∧ OpensOnly (extras.map (·.1)) w w' := by
  induction extras generalizing w bound with
  | nil =>
    cases h
    exact ⟨⟨nofun,nofun⟩,fun _ _ => rfl,fun _ _ => rfl,rfl⟩
  | cons e rest ih =>
    simp only [openExtras,bind_ok] at h
    obtain ⟨⟨token,w1⟩,h1,⟨rest',w2⟩,h2,h⟩ := h
    cases h
    rw [map_cons,nodup_cons] at hd
    obtain ⟨hopen,honly⟩ := openWaitpoint_opens ha (hn e (by simp)) h1
    have hother : ∀ b ∈ rest, b.1 ∉ [e.1] := by
      intro b hb he
      rw [mem_singleton] at he
      exact hd.1 (he ▸ mem_map_of_mem hb)
    obtain ⟨hopen',honly'⟩ := ih hd.2 (fun b hb => by
      rw [honly.condition b.1 (hother b hb)]
      exact hn b (by simp [hb])) h2
    refine ⟨(hopen.keep honly' fun b hb => ?_).append hopen',honly.trans honly'⟩
    rw [mem_singleton.mp hb]
    exact hd.1

theorem bindWaitpoints_guarded (w : WaitKeys) : Refuses (fun e => e.1.isError) (bindWaitpoints a hmac now w) := by
  have opens (id key : String) (w : WaitKeys) : Refuses (fun e => e.1.isError) (openWaitpoint a hmac now id key w) := by
    unfold openWaitpoint
    split
    · rename_i reply hm
      exact (refuses_error _).mpr (mintWaitpointToken_guarded hmac id key now reply hm)
    · dsimp only
      split <;> simp
  have extras (bs : List (String × String)) (w : WaitKeys) :
      Refuses (fun e => e.1.isError) (openExtras a hmac now bs w) := by
    induction bs generalizing w with
    | nil => simp [openExtras]
    | cons b rest ih => simp [openExtras,opens,ih]
  simp [bindWaitpoints,activatePending,opens,extras]

/-- A request has opened a suspension on new waitpoints. The store had nothing of them, and no
satisfier of an earlier suspension. -/
structure Started (r : SuspendRequest) (others : SuspendArgs) (now : Int) (s t : Store) : Prop where
  fresh : ∀ b ∈ r.waitpoints, b.fresh?.isSome
  distinct : (r.bindings.map (·.1)).Nodup
  unused : ∀ b ∈ r.bindings, s.wait.condition b.1 = none
  clean : s.wait.satisfiedSet = ∅
  accepted : ∃ a fields, suspendImpl r others = .ok a ∧ suspendReplay a now s.wait = none ∧
    step ⟨now,.suspend a⟩ s = (.ok fields,t)

theorem Started.valid (h : Started r others now s t) : validateSuspendArgs r = .ok () := by
  obtain ⟨a,-,ha,-⟩ := h.accepted
  simp only [suspendImpl,bind_ok] at ha
  exact ha.choose_spec.1

theorem toArgs_fresh (others : SuspendArgs) (hw : r.waitpoints ≠ []) (h : ∀ b ∈ r.waitpoints, b.fresh?.isSome) :
    (r.toArgs others).usePendingWaitpoint = false ∧
      ((r.toArgs others).waitpointId,(r.toArgs others).waitpointKey) :: (r.toArgs others).extras = r.bindings ∧
      (r.toArgs others).resumeCondition = resumeConditionToJson r.resumeCondition := by
  rcases hr : r.waitpoints with _ | ⟨b,rest⟩
  · exact (hw hr).elim
  · cases b with
    | usePending id =>
      have hb := h (.usePending id) (by simp [hr])
      cases hb
    | fresh => simp [toArgs,bindings,hr,fresh?]

theorem bindWaitpoints_opens {b : Binding} (hp : a.usePendingWaitpoint = false)
    (hb : (a.waitpointId,a.waitpointKey) :: a.extras = bindings) (hd : (bindings.map (·.1)).Nodup)
    (hn : ∀ b ∈ bindings, w.condition b.1 = none) (ha : a.resumeCondition = resumeConditionToJson condition)
    (h : bindWaitpoints a hmac now w = .ok (b,w')) :
    b.satisfied = false ∧ Opened condition bindings w' ∧ OpensOnly (bindings.map (·.1)) w w' := by
  subst hb
  -- the first waitpoint is opened like the additional ones
  obtain ⟨hs,bound,ho⟩ : b.satisfied = false ∧ ∃ bound,
      openExtras a hmac now ((a.waitpointId,a.waitpointKey) :: a.extras) w = .ok (bound,w') := by
    simp only [bindWaitpoints,hp,Bool.false_eq_true,if_false,bind_ok,pure_ok] at h
    obtain ⟨⟨token,w1⟩,h1,⟨extras,w2⟩,h2,h⟩ := h
    cases h
    exact ⟨rfl,by simp [openExtras,h1,h2]⟩
  exact ⟨hs,openExtras_opens ha hd hn ho⟩

theorem Started.opened (h : Started r others now s t) :
    Opened r.resumeCondition r.bindings t.wait ∧ t.wait.satisfiedSet = ∅ := by
  obtain ⟨a,fields,ha,hnew,hstep⟩ := h.accepted
  simp only [suspendImpl,bind_ok,pure_ok] at ha
  obtain ⟨_,hv,rfl⟩ := ha
  have hw : r.waitpoints ≠ [] := by
    intro he
    simp [validateSuspendArgs,he,ensure,bind,Except.bind] at hv
  obtain ⟨hp,hb,hc⟩ := toArgs_fresh others hw h.fresh
  have ho : suspendExecution (r.toArgs others) now s = .ok (.ok fields,t) := by
    rcases step_cases ⟨now,.suspend (r.toArgs others)⟩ s with ⟨he,-⟩ | ho
    · rw [hstep] at he
      cases he
    · rw [next,hstep] at ho
      exact ho
  rcases suspendExecution_ok ho with ⟨hr,-⟩ | ⟨c,-,-,⟨-,hr,-⟩ | ⟨-,hu⟩⟩
  · simp [hnew] at hr
  · cases hr
  · have hn : ∀ b ∈ r.bindings, s.wait.delSuspension.condition b.1 = none := h.unused
    rcases suspendUnderLease_eq hu with ⟨w,he,-⟩ | ⟨b,w,he,hs,-⟩ | ⟨b,w,he,-,rfl⟩
    · have := bindWaitpoints_guarded _ _ he
      cases this
    · have := (bindWaitpoints_opens hp hb h.distinct hn hc he).1
      simp [hs] at this
    · obtain ⟨-,hopen,honly⟩ := bindWaitpoints_opens hp hb h.distinct hn hc he
      refine ⟨⟨fun b hb => ?_,fun b hb => ?_⟩,?_⟩
      · simpa using hopen.waitpoint b hb
      · simpa using hopen.reads b hb
      · simpa using honly.satisfiedSet.trans h.clean

abbrev Sent := Int × SignalArgs

namespace Sent
variable (i : Sent) (s : Store)

def call : Call := ⟨i.1,.deliverSignal i.2⟩

/-- The signal as it is delivered; nothing when it is refused or a duplicate. -/
def delivered : Option Delivery :=
  match (step i.call s).1 with
  | .ok _ => (s.wait.waitpoint i.2.waitpointId).map fun p => ⟨i.2.waitpointId,p.waitpointKey,i.2.signal⟩
  | _ => none

/-- The caller is told that the signal satisfied the condition. -/
def reports : Bool := decide ((step i.call s).1 = .ok [i.2.signal.signalId,SignalEffect.resumeConditionSatisfied.text])

theorem cases_step : (i.delivered s = none ∧ i.reports s = false ∧ next i.call s = s) ∨
    ∃ c p cond, Deliverable i.2 i.1 s c p cond ∧ step i.call s =
      if cond.composite then deliverComposite i.2 c p cond i.1 (s.setWait (s.wait.recordSignal i.2 i.1))
      else deliverPlain i.2 c cond i.1 (s.setWait (s.wait.recordSignal i.2 i.1)) := by
  have silent (reply : Reply) (h : ∀ fields, reply ≠ .ok fields) (hs : (step i.call s).1 = reply) :
      i.delivered s = none ∧ i.reports s = false := by
    refine ⟨?_,?_⟩
    · rw [delivered,hs]
      cases reply with
      | ok fields => exact (h fields rfl).elim
      | _ => rfl
    · rw [reports,hs]
      exact decide_eq_false (h _)
  rcases step_cases i.call s with ⟨he,hn⟩ | ho
  · left
    have hne : ∀ fields, (step i.call s).1 ≠ .ok fields := by
      intro fields hf
      simp [hf,Reply.isError] at he
    obtain ⟨hd,hr⟩ := silent _ hne rfl
    exact ⟨hd,hr,hn⟩
  · rcases deliverSignal_ok ho with ⟨ht,existing,hr⟩ | ⟨c,p,cond,hd,hs⟩
    · left
      obtain ⟨hd,hr⟩ := silent (.duplicate [existing]) (by simp) hr
      exact ⟨hd,hr,ht⟩
    · exact .inr ⟨c,p,cond,hd,hs⟩

end Sent

/-- The signals of a list that are delivered, one after the other. -/
def deliveries : Store → List Sent → List Delivery
  | _, [] => []
  | s, i :: is => (i.delivered s).toList ++ deliveries (next i.call s) is

/-- The waitpoints still have the condition of the request, and the satisfiers are those of
the signals delivered so far. -/
structure Tracks (condition : ResumeCondition) (bindings : List (String × String)) (ds : List Delivery)
    (s : Store) : Prop extends Opened condition bindings s.wait where
  satisfiedSet : condition.isComposite → s.wait.satisfiedSet = compositeTokens condition.tree ds
  listed : ∀ d ∈ ds, (d.waitpointId,d.waitpointKey) ∈ bindings

theorem Started.tracks (h : Started r others now s t) : Tracks r.resumeCondition r.bindings [] t :=
  ⟨h.opened.1,fun _ => h.opened.2,nofun⟩

/-- What makes a signal resume: the tokens for a composite condition, the name of a matcher for
a plain one. -/
def Delivery.resumes (condition : ResumeCondition) (ds : List Delivery) (d : Delivery) : Bool :=
  if condition.isComposite then d.reports condition.tree ds
  else condition.names.any fun name => decide (name = "" ∨ name = d.signal.signalName)

theorem fillMatcher_names {name id : String} {slots filled : List MatcherSlot}
    (h : fillMatcher name id slots = some filled) :
    filled.map (·.name) = slots.map (·.name) ∧ ∃ slot ∈ slots, slot.name = "" ∨ slot.name = name := by
  induction slots generalizing filled with
  | nil => cases h
  | cons m ms ih =>
    rw [fillMatcher] at h
    split at h
    · rename_i hm
      cases h
      exact ⟨rfl,m,by simp,hm.2⟩
    · obtain ⟨rest,hr,rfl⟩ := Option.map_eq_some_iff.mp h
      obtain ⟨hn,slot,hs,hname⟩ := ih hr
      exact ⟨by simp [hn],slot,by simp [hs],hname⟩

variable {ds : List Delivery} {i : Sent} {c : ExecCore} {p : Waitpoint} {cond : Condition}

theorem Tracks.of_same (h : Tracks condition bindings ds s) (hw : t.wait.waitpoint = s.wait.waitpoint)
    (hc : ∀ b ∈ bindings, t.wait.condition b.1 = s.wait.condition b.1 ∨
      ∃ cond, t.wait.condition b.1 = some cond ∧ Reads condition cond)
    {ds' : List Delivery} (hl : ∀ d ∈ ds', (d.waitpointId,d.waitpointKey) ∈ bindings)
    (hs : condition.isComposite → t.wait.satisfiedSet = compositeTokens condition.tree ds') :
    Tracks condition bindings ds' t := by
  refine ⟨⟨fun b hb => hw ▸ h.waitpoint b hb,fun b hb => ?_⟩,hs,hl⟩
  rcases hc b hb with hc | hc
  · exact hc ▸ h.reads b hb
  · exact hc

theorem Sent.delivered_mem (hp : s.wait.waitpoint i.2.waitpointId = some p) {d : Delivery}
    (h : d ∈ (i.delivered s).toList) : d = ⟨i.2.waitpointId,p.waitpointKey,i.2.signal⟩ := by
  rw [Option.mem_toList,Sent.delivered,hp] at h
  split at h
  · exact (Option.mem_some_iff.mp h).symm
  · cases h

section
variable (h : Tracks condition bindings ds s)
include h

theorem Tracks.listed_append
    (hp : s.wait.waitpoint i.2.waitpointId = some p) (hb : (i.2.waitpointId,p.waitpointKey) ∈ bindings) :
    ∀ d ∈ ds ++ (i.delivered s).toList, (d.waitpointId,d.waitpointKey) ∈ bindings := by
  intro d hd
  rcases mem_append.mp hd with hd | hd
  · exact h.listed d hd
  · rw [Sent.delivered_mem hp hd]
    exact hb

theorem Tracks.listed_delivered (hi : i.2.waitpointId ∈ bindings.map (·.1)) :
    ∀ d ∈ ds ++ (i.delivered s).toList, (d.waitpointId,d.waitpointKey) ∈ bindings := by
  obtain ⟨b,hb,hid⟩ := mem_map.mp hi
  obtain ⟨p,hp,hkey⟩ := h.waitpoint b hb
  rw [hid] at hp
  exact h.listed_append hp (by rwa [hkey,← hid])

theorem Tracks.composite_step (hc : condition.isComposite)
    (hd : Deliverable i.2 i.1 s c p cond) (hr : Reads condition cond) (hb : (i.2.waitpointId,p.waitpointKey) ∈ bindings)
    (hs : step i.call s = deliverComposite i.2 c p cond i.1 (s.setWait (s.wait.recordSignal i.2 i.1))) :
    let d : Delivery := ⟨i.2.waitpointId,p.waitpointKey,i.2.signal⟩
    i.delivered s = some d ∧ i.reports s = d.reports condition.tree ds ∧
      (i.reports s = false → Tracks condition bindings (ds ++ (i.delivered s).toList) (next i.call s)) := by
  intro d
  have hset := h.satisfiedSet hc
  have hp := authenticate_waitpoint hd.authentic
  have hreports : i.reports s = d.reports condition.tree ds := by
    rw [Sent.reports,hs,reports]
    simp [deliverComposite,hr.tree hc,hset,text_eq_satisfied,d]
  have hdel : i.delivered s = some d := by
    rw [Sent.delivered,hs]
    simp [deliverComposite,hp,d]
  refine ⟨hdel,hreports,fun hno => ?_⟩
  obtain ⟨signalIds,hnext⟩ : ∃ signalIds, (next i.call s).wait = (s.wait.recordSignal i.2 i.1).setSatisfied
      (compositeTokens condition.tree (ds ++ [d])) signalIds := by
    rw [hreports,reports,decide_eq_false_iff_not] at hno
    rw [next,hs,compositeTokens_append]
    exact ⟨_,by simp [deliverComposite,hr.tree hc,hset,d,hno]; rfl⟩
  refine h.of_same (by rw [hnext]; rfl) (fun b _ => .inl (by rw [hnext]; rfl)) (h.listed_append hp hb)
    fun _ => ?_
  rw [hnext,hdel]
  rfl

theorem Tracks.plain_step (hc : condition.isComposite = false)
    (hd : Deliverable i.2 i.1 s c p cond) (hr : Reads condition cond) (hb : (i.2.waitpointId,p.waitpointKey) ∈ bindings)
    (hs : step i.call s = deliverPlain i.2 c cond i.1 (s.setWait (s.wait.recordSignal i.2 i.1))) :
    (i.reports s → ∃ d, i.delivered s = some d ∧ d.resumes condition ds) ∧
      (i.reports s = false → Tracks condition bindings (ds ++ (i.delivered s).toList) (next i.call s)) := by
  have hp := authenticate_waitpoint hd.authentic
  have tracks (w : WaitKeys) (hw : w.waitpoint = s.wait.waitpoint)
      (hcond : ∀ b ∈ bindings, w.condition b.1 = s.wait.condition b.1 ∨
        ∃ cond, w.condition b.1 = some cond ∧ Reads condition cond)
      (hn : next i.call s = s.setWait w) :
      Tracks condition bindings (ds ++ (i.delivered s).toList) (next i.call s) := by
    rw [hn]
    exact h.of_same hw hcond (h.listed_append hp hb) fun hn => by simp [hc] at hn
  unfold deliverPlain at hs
  split at hs
  · refine ⟨fun hrep => ?_,fun _ => tracks (s.wait.recordSignal i.2 i.1) rfl (fun b _ => .inl rfl)
      (congrArg Prod.snd hs)⟩
    simp [Sent.reports,hs,SignalEffect.text] at hrep
  · rename_i matchers hm
    obtain ⟨hnames,slot,hslot,hname⟩ := fillMatcher_names hm
    let filled := (s.wait.recordSignal i.2 i.1).setCondition i.2.waitpointId (cond.fill matchers)
    have hfill : ∀ b ∈ bindings, filled.condition b.1 = s.wait.condition b.1 ∨
        ∃ cond, filled.condition b.1 = some cond ∧ Reads condition cond := by
      intro b _
      by_cases hbid : b.1 = i.2.waitpointId
      · refine .inr ⟨cond.fill matchers,by simp [filled,hbid],hr.composite,hr.tree,?_⟩
        exact hnames.trans hr.names
      · exact .inl (by simp [filled,hbid])
    split at hs
    · refine ⟨fun hrep => ?_,fun _ => tracks filled rfl hfill (congrArg Prod.snd hs)⟩
      simp [Sent.reports,hs] at hrep
    · refine ⟨fun _ => ?_,fun hrep => ?_⟩
      · refine ⟨⟨i.2.waitpointId,p.waitpointKey,i.2.signal⟩,by simp [Sent.delivered,hs,hp],?_⟩
        rw [resumes,if_neg (by simp [hc]),any_eq_true]
        exact ⟨slot.name,hr.names ▸ mem_map_of_mem hslot,decide_eq_true hname⟩
      · simp [Sent.reports,hs] at hrep
    · refine ⟨fun hrep => ?_,fun _ => tracks filled rfl hfill (congrArg Prod.snd hs)⟩
      simp [Sent.reports,hs,SignalEffect.text] at hrep

theorem Tracks.step (hi : i.2.waitpointId ∈ bindings.map (·.1)) :
    (i.reports s → ∃ d, i.delivered s = some d ∧ d.resumes condition ds) ∧
      (i.reports s = false → Tracks condition bindings (ds ++ (i.delivered s).toList) (next i.call s) ∧
        ∀ d, i.delivered s = some d → condition.isComposite → d.reports condition.tree ds = false) := by
  obtain ⟨b,hb,hid⟩ := mem_map.mp hi
  rcases i.cases_step s with ⟨hd,hr,hn⟩ | ⟨c,p,cond,hd,hs⟩
  · refine ⟨fun hrep => by simp [hr] at hrep,fun _ => ⟨?_,by simp [hd]⟩⟩
    rw [hd,hn,Option.toList_none,append_nil]
    exact h
  · obtain ⟨p',hp',hkey⟩ := h.waitpoint b hb
    obtain ⟨cond',hcond',hreads⟩ := h.reads b hb
    rw [hid] at hp' hcond'
    cases (authenticate_waitpoint hd.authentic).symm.trans hp'
    cases hd.condition.symm.trans hcond'
    have hbound : (i.2.waitpointId,p.waitpointKey) ∈ bindings := by rwa [hkey,← hid]
    rw [hreads.composite] at hs
    cases hc : condition.isComposite with
    | true =>
      rw [if_pos hc] at hs
      obtain ⟨hdel,hrep,htracks⟩ := h.composite_step hc hd hreads hbound hs
      refine ⟨fun hr => ⟨_,hdel,?_⟩,fun hr => ⟨htracks hr,fun d hd' _ => ?_⟩⟩
      · rw [resumes,if_pos hc,← hrep]
        exact hr
      · cases hdel.symm.trans hd'
        exact hrep.symm.trans hr
    | false =>
      rw [if_neg (by simp [hc])] at hs
      obtain ⟨hres,htracks⟩ := h.plain_step hc hd hreads hbound hs
      exact ⟨hres,fun hr => ⟨htracks hr,nofun⟩⟩

end

def sendAll (s : Store) (is : List Sent) : Store := runFrom (fun i s => next i.call s) s is

def anyReports : Store → List Sent → Bool
  | _, [] => false
  | s, i :: is => i.reports s || anyReports (next i.call s) is

theorem anyReports_append (s : Store) (is js : List Sent) :
    anyReports s (is ++ js) = (anyReports s is || anyReports (sendAll s is) js) := by
  induction is generalizing s with
  | nil => rfl
  | cons i is ih =>
    rw [cons_append,anyReports,anyReports,ih,Bool.or_assoc]
    rfl

theorem Tracks.run (h : Tracks condition bindings ds s) {is : List Sent}
    (hi : ∀ i ∈ is, i.2.waitpointId ∈ bindings.map (·.1)) (hr : anyReports s is = false) :
    Tracks condition bindings (ds ++ deliveries s is) (sendAll s is) := by
  induction is generalizing ds s with
  | nil => simpa [deliveries,sendAll,runFrom] using h
  | cons i is ih =>
    rw [anyReports,Bool.or_eq_false_iff] at hr
    have hstep := ((h.step (hi i (by simp))).2 hr.1).1
    have := ih hstep (fun j hj => hi j (by simp [hj])) hr.2
    rwa [append_assoc] at this

namespace Client

def claimed : Store := run [secret 10,create 10,grant 11,claim 12 "L1" "a1"]

variable (resumeCondition : ResumeCondition)

def request : SuspendRequest :=
  { suspensionId := "s1", waitpoints := [.fresh "w1" "k1"], resumeCondition, now := 13 }

def handle : SuspendArgs :=
  { executionId := "e", attemptIndex := "0", fence := ⟨"L1","1","a1"⟩, suspensionId := "", waitpointId := ""
    waitpointKey := "", resumeCondition := .malformed, keys := { workerInstanceId := "wi" } }

def waitingFor : Store := next ⟨13,.suspend ((request resumeCondition).toArgs handle)⟩ claimed

def sent (now : Int) (signalId signalName : String) (sourceType : String := "user")
    (sourceIdentity : String := "u") : Sent :=
  (now,{ executionId := "e", waitpointId := "w1"
         waitpointToken := "k:5e7dac493a353f287758cb267ee77f24a0647d10"
         signal := { signalId, signalName, sourceType, sourceIdentity } })

theorem started {resumeCondition : ResumeCondition} (hv : validateSuspendArgs (request resumeCondition) = .ok ())
    (ho : (step ⟨13,.suspend ((request resumeCondition).toArgs handle)⟩ claimed).1 =
      .ok ["s1","w1","k1","k:5e7dac493a353f287758cb267ee77f24a0647d10","0"]) :
    Started (request resumeCondition) handle 13 claimed (waitingFor resumeCondition) := by
  have hone : (request resumeCondition).bindings = [("w1","k1")] := rfl
  refine ⟨by simp [request,fresh?],by simp [hone],fun b hb => ?_,by decide +kernel,
    (request resumeCondition).toArgs handle,_,?_,rfl,Prod.ext ho rfl⟩
  · rw [hone] at hb
    cases mem_singleton.mp hb
    rfl
  · simp [suspendImpl,hv]

end Client

end FlowFabric
