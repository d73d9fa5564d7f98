import FlowFabric.Tracking

/-! A signal is not told to resume before the condition holds, as long as the counts of the
condition do not get into each other's way. -/
namespace FlowFabric
open List Node ResumeCondition Client

def Node.countsBy (kind : CountKind) : Node → Bool
  | .count _ _ kind' _ _ => decide (kind' = kind)
  | _ => false

/-- What keeps the tokens of a tree apart: counts of one kind take the same signals, and
signals with one waitpoint key came in on one waitpoint when waitpoints are counted. -/
structure Apart (root : Node) (ds : List Delivery) : Prop where
  agree : ∀ d ∈ ds, ∀ kind x y, root.Within x → root.Within y → x.countsBy kind → y.counts kind d → x.accepts d
  keyed : ∀ x, root.Within x → x.countsBy .distinctWaitpoints →
    ∀ d ∈ ds, ∀ e ∈ ds, d.waitpointKey = e.waitpointKey → d.waitpointId = e.waitpointId

variable {root x : Node} {ds ds' : List Delivery} {tokens : Finset String}

theorem Apart.mono (h : Apart root ds') (hs : ds ⊆ ds') : Apart root ds :=
  ⟨fun d hd => h.agree d (hs hd),fun x hx hk d hd e he => h.keyed x hx hk d (hs hd) e (hs he)⟩

structure Justified (root : Node) (ds : List Delivery) (tokens : Finset String) : Prop
    extends Collected root ds tokens where
  held : ∀ x, root.Below x → x.isSingle = false → "node:" ++ x.path ∈ tokens → x.holds ds

theorem Justified.add (h : Justified root ds tokens) (d : Delivery) :
    Justified root (ds ++ [d]) ((d.tokens root).toFinset ∪ tokens) := by
  refine ⟨h.toCollected.add d,fun x hx hs ht => ?_⟩
  rcases Finset.mem_union.mp ht with ht | ht
  · obtain ⟨y,-,ha,hy⟩ := mem_tokens.mp (mem_toFinset.mp ht)
    exact (node_ne_tokenFor ha x.path hy).elim
  · exact holds_mono (by simp) x (h.held x hx hs ht)

section
variable (hl : root.Labelled) (hr : root.isSingle = false) (hp : ∀ x, root.Within x → x.proper)
include hl hr

theorem Justified.member (h : Justified root ds tokens) (hx : root.Below x) (ht : x.memberToken ∈ tokens) :
    x.holds ds := by
  cases hs : x.isSingle with
  | true => exact (holds_of_isSingle hs).mpr ((h.mem_leaf hl hr hx hs).mp ht)
  | false =>
    refine h.held x hx hs ?_
    cases x with
    | single => cases hs
    | _ => exact ht

include hp

theorem Justified.holds (h : Justified root ds tokens) (ha : Apart root ds) (hx : root.Within x)
    (he : compositeEvaluateNode tokens x) : x.holds ds := by
  cases x with
  | single =>
    rcases hx with rfl | hx
    · cases hr
    · exact h.member hl hr hx (of_decide_eq_true he)
  | allOf =>
    refine holds_allOf.mpr ⟨by simpa [proper] using hp _ hx,fun m hm => ?_⟩
    have hb : root.Below m := by
      rcases hx with rfl | hx
      · exact .child hm
      · exact .step hx hm
    simp only [compositeEvaluateNode,all_eq_true,decide_eq_true_eq] at he
    exact h.member hl hr hb (he m hm)
  | count path n kind =>
    simp only [compositeEvaluateNode,Bool.or_eq_true,decide_eq_true_eq,h.timeout_notMem,false_or] at he
    simp only [holds,decide_eq_true_eq]
    calc n ≤ countNodeSatisfiers kind tokens := he
      _ ≤ _ := h.countNodeSatisfiers_le fun d hd y hy hk => ha.agree d hd kind _ y hx hy (by simp [countsBy]) hk
      _ ≤ _ := card_ownTokens_le fun hk => ha.keyed _ hx (by simp [countsBy,hk])
  | neverBySignal => cases he

theorem Justified.walk (ha : Apart root ds) : root.KeptByWalk (Justified root ds) := by
  intro tokens p x hpw hxp hs he h
  have hx := hpw.below hxp
  refine ⟨Collected.walk root ds tokens p x hpw hxp hs he h.toCollected,fun y hy hys ht => ?_⟩
  rcases Finset.mem_insert.mp ht with heq | ht
  · have hpath : y.path = x.path := by simpa using heq
    rw [hl.distinct y x hy hx hpath]
    exact h.holds hl hr hp ha (.inr hx) he
  · exact h.held y hy hys ht

private theorem compositeTokens_justified (ha : Apart root ds) : Justified root ds (compositeTokens root ds) := by
  refine compositeTokens_invariant (G := fun ds tokens => Apart root ds → Justified root ds tokens)
    (fun _ => ?_) (fun ds d tokens h ha => ?_) (fun ds tokens p x hw hm hs he h ha => ?_) ds ha
  · exact ⟨compositeTokens_collected root [],fun x _ _ ht => by simp at ht⟩
  · exact (h (ha.mono (by simp))).add d
  · exact Justified.walk hl hr hp ha tokens p x hw hm hs he (h ha)

private theorem holds_of_reports {d : Delivery} (ha : Apart root (ds ++ [d])) (h : d.reports root ds) :
    root.holds (ds ++ [d]) := by
  have hrep := of_decide_eq_true h
  rcases compositeDeliverSignal_cases root (compositeTokens root ds) d with ⟨-,-,hn⟩ | ⟨-,hiff⟩
  · exact (hn hrep).elim
  · have he := hiff.mp hrep
    rw [← compositeTokens_append] at he
    exact (compositeTokens_justified hl hr hp ha).holds hl hr hp ha (.inl rfl) he

end

structure Counter where
  kind : CountKind
  matcher : Option SignalMatcher
  waitpoints : List String

def Counter.takes (c : Counter) (d : Delivery) : Bool :=
  decide (d.waitpointKey ∈ c.waitpoints) && c.matcher.all (matcherMatches · d.signal)

mutual
def ResumeCondition.counters : ResumeCondition → List Counter
  | .single _ _ | .operatorOnly | .timeoutOnly => []
  | .allOf members => memberCounters members
  | .count _ kind matcher waitpoints => [⟨kind,matcher,waitpoints⟩]

def memberCounters : List ResumeCondition → List Counter
  | [] => []
  | m :: rest => m.counters ++ memberCounters rest
end

mutual
theorem mem_counters {path path' : String} {n : Nat} {kind : CountKind} {matcher : Option SignalMatcher}
    {waitpoints : List String} (condition : ResumeCondition)
    (h : (compositeNodeToJson path condition).Within (.count path' n kind matcher waitpoints)) :
    ⟨kind,matcher,waitpoints⟩ ∈ condition.counters := by
  match condition with
  | .single key m => cases (within_leaf rfl).mp h
  | .operatorOnly => cases (within_leaf rfl).mp h
  | .timeoutOnly => cases (within_leaf rfl).mp h
  | .count n' kind' matcher' waitpoints' =>
    cases (within_leaf rfl).mp h
    simp [counters]
  | .allOf members =>
    rcases h with h | h
    · cases h
    · obtain ⟨m,hm,h⟩ := below_iff.mp h
      exact mem_memberCounters members hm h

theorem mem_memberCounters {path path' : String} {i n : Nat} {kind : CountKind}
    {matcher : Option SignalMatcher} {waitpoints : List String} (members : List ResumeCondition) {m : Node}
    (hm : m ∈ compositeMembersToJson path i members) (h : m.Within (.count path' n kind matcher waitpoints)) :
    ⟨kind,matcher,waitpoints⟩ ∈ memberCounters members := by
  match members with
  | [] => cases hm
  | c :: rest =>
    rw [memberCounters,mem_append]
    rcases mem_cons.mp hm with rfl | hm
    · exact .inl (mem_counters c h)
    · exact .inr (mem_memberCounters rest hm h)
end

/-- Two counts of one kind that take different signals share their tokens, and the reserved
names satisfy a condition that no signal should. The signal does neither. -/
def ResumeCondition.keepsApart (condition : ResumeCondition) (d : Delivery) : Bool :=
  match condition with
  | .operatorOnly => decide (d.signal.signalName ≠ operatorSentinel)
  | .timeoutOnly => decide (d.signal.signalName ≠ timeoutSentinel)
  | condition => condition.counters.all fun c => condition.counters.all fun c' =>
      decide (c.kind = c'.kind → c.takes d = c'.takes d)

def ResumeCondition.countsWaitpoints (condition : ResumeCondition) : Bool :=
  condition.counters.any fun c => decide (c.kind = .distinctWaitpoints)

variable {d : Delivery} {r : SuspendRequest}

private theorem countsBy_of_counts {kind : CountKind} (h : x.counts kind d) : x.countsBy kind := by
  cases x with
  | count =>
    rw [counts,Bool.and_eq_true] at h
    exact h.1
  | _ => cases h

variable {condition : ResumeCondition}

theorem apart_of_keepsApart {bindings : List (String × String)}
    (hc : condition.isComposite) (hd : ∀ d ∈ ds, condition.keepsApart d)
    (hk : condition.countsWaitpoints → (bindings.map (·.2)).Nodup)
    (hb : ∀ d ∈ ds, (d.waitpointId,d.waitpointKey) ∈ bindings) : Apart condition.tree ds := by
  have counter {x : Node} {kind : CountKind} (hx : condition.tree.Within x) (h : x.countsBy kind) :
      ∃ c ∈ condition.counters, c.kind = kind ∧ ∀ d, x.accepts d = c.takes d := by
    cases x with
    | count => exact ⟨_,mem_counters condition hx,of_decide_eq_true h,fun _ => rfl⟩
    | _ => cases h
  refine ⟨fun d hmem kind x y hx hy hxk hyk => ?_,fun x hx hxk d hd e he hkey => ?_⟩
  · obtain ⟨c,hc',hck,hct⟩ := counter hx hxk
    obtain ⟨c',hc'',hck',hct'⟩ := counter hy (countsBy_of_counts hyk)
    have hall : ∀ c ∈ condition.counters, ∀ c' ∈ condition.counters, c.kind = c'.kind → c.takes d = c'.takes d := by
      cases condition with
      | allOf | count => simpa [keepsApart,imp_iff_not_or] using hd d hmem
      | _ => cases hc
    rw [hct,hall c hc' c' hc'' (hck.trans hck'.symm),← hct']
    exact (tokenFor_of_counts hyk).1
  · obtain ⟨c,hc',hck,-⟩ := counter hx hxk
    have hnodup := hk (any_eq_true.mpr ⟨c,hc',decide_eq_true hck⟩)
    exact congrArg Prod.fst (inj_on_of_nodup_map hnodup (hb d hd) (hb e he) hkey)

section
variable (hv : ValidCondition r)
include hv

theorem evaluate_of_named (hc : r.resumeCondition.isComposite = false) (hd : d ∈ ds)
    (hb : (d.waitpointId,d.waitpointKey) ∈ r.bindings) (ha : r.resumeCondition.keepsApart d)
    {name : String} (hn : name ∈ r.resumeCondition.names) (hm : name = "" ∨ name = d.signal.signalName) :
    evaluate (byWaitpoint ds) r.resumeCondition := by
  cases hcond : r.resumeCondition with
  | single key matcher =>
    have hkey : d.waitpointKey = key := hv.keyed key matcher hcond _ hb
    rw [hcond] at hn
    have hmatch : matcherMatches matcher d.signal := by
      cases matcher with
      | wildcard => rfl
      | byName wanted =>
        cases mem_singleton.mp hn
        have hne : name ≠ "" := fun he => hv.named key (he ▸ hcond)
        simp [matcherMatches,hm.resolve_left hne]
    exact any_eq_true.mpr ⟨d.signal,mem_byWaitpoint.mpr ⟨d,hd,hkey,rfl⟩,hmatch⟩
  | operatorOnly | timeoutOnly =>
    rw [hcond] at hn ha
    cases mem_singleton.mp hn
    exact (of_decide_eq_true ha (hm.resolve_left (by decide)).symm).elim
  | allOf | count =>
    rw [hcond] at hc
    cases hc

theorem evaluate_of_resumes (hb : ∀ e ∈ ds ++ [d], (e.waitpointId,e.waitpointKey) ∈ r.bindings)
    (hd : ∀ e ∈ ds ++ [d], r.resumeCondition.keepsApart e)
    (hk : r.resumeCondition.countsWaitpoints → (r.bindings.map (·.2)).Nodup)
    (h : d.resumes r.resumeCondition ds) : evaluate (byWaitpoint (ds ++ [d])) r.resumeCondition := by
  cases hc : r.resumeCondition.isComposite with
  | true =>
    rw [Delivery.resumes,if_pos hc] at h
    rw [evaluate_eq_holds _ ""]
    refine holds_of_reports (compositeNodeToJson_labelled _) ?_ (fun x hx => ?_) (apart_of_keepsApart hc hd hk hb) h
    · cases hcond : r.resumeCondition with
      | allOf | count => rfl
      | _ => simp [hcond,isComposite] at hc
    · exact validateBody_proper _ hv.composite hx
  | false =>
    rw [Delivery.resumes,if_neg (by simp [hc]),any_eq_true] at h
    obtain ⟨name,hn,hm⟩ := h
    have hmem : d ∈ ds ++ [d] := by simp
    exact evaluate_of_named hv hc hmem (hb d hmem) (hd d hmem) hn (of_decide_eq_true hm)

theorem Tracks.evaluate_of_anyReports {s : Store} {is : List Sent} (h : Tracks r.resumeCondition r.bindings ds s)
    (hon : ∀ i ∈ is, i.2.waitpointId ∈ r.bindings.map (·.1))
    (hd : ∀ d ∈ ds ++ deliveries s is, r.resumeCondition.keepsApart d)
    (hk : r.resumeCondition.countsWaitpoints → (r.bindings.map (·.2)).Nodup) (hrep : anyReports s is) :
    evaluate (byWaitpoint (ds ++ deliveries s is)) r.resumeCondition := by
  induction is generalizing ds s with
  | nil => cases hrep
  | cons i is ih =>
    obtain ⟨resumes,tracks⟩ := h.step (hon i (by simp))
    rw [deliveries,← append_assoc] at hd ⊢
    cases hi : i.reports s with
    | true =>
      -- the first report; later signals do not take it back
      obtain ⟨d,hdel,hres⟩ := resumes hi
      have hlisted := h.listed_delivered (hon i (by simp))
      rw [hdel] at hd hlisted ⊢
      refine evaluate_mono (subset_append_left _ _) (evaluate_of_resumes hv hlisted ?_ hk hres)
      exact fun e he => hd e (mem_append_left _ he)
    | false =>
      rw [anyReports,hi,Bool.false_or] at hrep
      exact ih (tracks hi).1 (fun j hj => hon j (by simp [hj])) hd hrep

end

/-- A signal on a new suspension is told to resume only when the condition of the request holds
for the signals delivered up to it. -/
theorem resumes_only_when_evaluated {r : SuspendRequest} {others : SuspendArgs} {now : Int} {s t : Store}
    (h : Started r others now s t) (is : List Sent) (i : Sent)
    (hon : ∀ j ∈ is ++ [i], j.2.waitpointId ∈ r.bindings.map (·.1))
    (hd : ∀ d ∈ deliveries t (is ++ [i]), r.resumeCondition.keepsApart d)
    (hk : r.resumeCondition.countsWaitpoints → (r.bindings.map (·.2)).Nodup) (hrep : i.reports (sendAll t is)) :
    evaluate (byWaitpoint (deliveries t (is ++ [i]))) r.resumeCondition := by
  have hany : anyReports t (is ++ [i]) := by
    rw [anyReports_append,anyReports,hrep]
    simp
  exact h.tracks.evaluate_of_anyReports (validateSuspendArgs_ok h.valid) hon hd hk hany

/-- A condition that asks for a signal by name and for two signals. -/
theorem second_signal_resumes :
    let condition : ResumeCondition := .allOf [.single "k1" (.byName "a"),.count 2 .distinctSignals none ["k1"]]
    let t := waitingFor condition
    (sent 15 "g2" "b").reports (sendAll t [sent 14 "g1" "a"]) ∧
      evaluate (byWaitpoint (deliveries t [sent 14 "g1" "a",sent 15 "g2" "b"])) condition := by
  intro condition t
  have hrep : (sent 15 "g2" "b").reports (sendAll t [sent 14 "g1" "a"]) := by decide +kernel
  have hstart : Started (request condition) handle 13 claimed t := started rfl (by decide +kernel)
  refine ⟨hrep,resumes_only_when_evaluated hstart [sent 14 "g1" "a"] (sent 15 "g2" "b")
    (by decide) (by decide +kernel) (by decide) hrep⟩

/-- Two counts that ask for different names: two signals with the first name satisfy both. -/
theorem pooled_count_resumes_early :
    let condition : ResumeCondition :=
      .allOf [.count 2 .distinctSignals (some (.byName "a")) ["k1"],
        .count 2 .distinctSignals (some (.byName "b")) ["k1"]]
    let t := waitingFor condition
    validateSuspendArgs (request condition) = .ok () ∧ (sent 15 "g2" "a").reports (sendAll t [sent 14 "g1" "a"]) ∧
      evaluate (byWaitpoint (deliveries t [sent 14 "g1" "a",sent 15 "g2" "a"]))
        condition = false := by
  refine ⟨rfl,?_,?_⟩ <;> decide +kernel

end FlowFabric
