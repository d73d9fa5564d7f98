import FlowFabric.Tracking

/-! A condition that holds has been reported, for the trees whose satisfied nodes the scripts
get to see and whose sources they can tell apart. -/
namespace FlowFabric
open Foundation Node List Bool Client
variable {root x : Node} {ds : List Delivery} {tokens : Finset String}

/-- Some signal of the list satisfied the condition for the scripts. -/
def reported (root : Node) (ds : List Delivery) : Prop :=
  ∃ before d after, ds = before ++ d :: after ∧ d.reports root before

private theorem compositeTokens_subset_append (root : Node) (ds : List Delivery) (d : Delivery) :
    compositeTokens root ds ⊆ compositeTokens root (ds ++ [d]) := by
  rw [compositeTokens_append]
  rcases compositeDeliverSignal_cases root (compositeTokens root ds) d with ⟨-,ht,-⟩ | ⟨ht,-⟩
  · rw [ht]
  · rw [ht]
    exact Finset.subset_union_right.trans (subset_propagate _ _)

private theorem compositeTokens_subset (root : Node) (ds later : List Delivery) :
    compositeTokens root ds ⊆ compositeTokens root (ds ++ later) := by
  induction later generalizing ds with
  | nil => simp
  | cons d later ih =>
    have h := ih (ds ++ [d])
    rw [append_assoc] at h
    exact (compositeTokens_subset_append root ds d).trans h

private theorem evaluate_empty (h : x.proper) (hs : x.isSingle = false) : compositeEvaluateNode ∅ x = false := by
  cases x with
  | single => cases hs
  | allOf path members =>
    cases members with
    | nil => cases h
    | cons => simp [compositeEvaluateNode]
  | count path n =>
    have hn : n ≠ 0 := of_decide_eq_true h
    simp [compositeEvaluateNode,countNodeSatisfiers,hn]
  | neverBySignal => rfl

private theorem reported_iff (hp : root.proper) (hs : root.isSingle = false) :
    reported root ds ↔ compositeEvaluateNode (compositeTokens root ds) root := by
  constructor
  · rintro ⟨before,d,after,rfl,hr⟩
    have hrep := of_decide_eq_true hr
    rcases compositeDeliverSignal_cases root (compositeTokens root before) d with ⟨-,-,hn⟩ | ⟨-,hiff⟩
    · exact (hn hrep).elim
    · have he := hiff.mp hrep
      rw [← compositeTokens_append] at he
      have hsub := compositeTokens_subset root (before ++ [d]) after
      rw [append_assoc] at hsub
      exact compositeEvaluateNode_mono hsub he
  · intro he
    induction ds using reverseRecOn with
    | nil =>
      rw [show compositeTokens root [] = ∅ from rfl,evaluate_empty hp hs] at he
      cases he
    | append_singleton ds d ih =>
      rcases compositeDeliverSignal_cases root (compositeTokens root ds) d with ⟨-,ht,-⟩ | ⟨-,hiff⟩
      · rw [compositeTokens_append,ht] at he
        obtain ⟨before,e,after,rfl,hr⟩ := ih he
        exact ⟨before,e,after ++ [d],by simp,hr⟩
      · rw [compositeTokens_append] at he
        exact ⟨ds,d,[],rfl,decide_eq_true (hiff.mpr he)⟩

private theorem mem_compositeTokens_of_member (hp : ∀ x, root.Within x → x.proper) (hx : x ∈ root.members)
    (hs : x.isSingle = false) (he : compositeEvaluateNode (collected root ds) x) :
    "node:" ++ x.path ∈ compositeTokens root ds := by
  induction ds using reverseRecOn with
  | nil =>
    rw [show collected root [] = ∅ from rfl,evaluate_empty (hp x (.inr (.child hx))) hs] at he
    cases he
  | append_singleton ds d ih =>
    have hc := compositeTokens_collected root ds
    rw [collected_append] at he
    rw [compositeTokens_append]
    rcases compositeDeliverSignal_cases root (compositeTokens root ds) d with ⟨hsub,ht,-⟩ | ⟨ht,-⟩
    · rw [Finset.union_eq_right.mpr (hc.tokens_subset hsub)] at he
      rw [ht]
      exact ih he
    · rw [ht]
      refine mem_propagate_of_member hx hs (compositeEvaluateNode_mono ?_ he)
      exact Finset.union_subset_union subset_rfl hc.sub

/-- A member of the root that is seen once it holds: a count, unless it tells two sources
apart, and a conjunction of single signals. -/
def Node.memberResumes : Node → Bool
  | .single .. | .neverBySignal _ => true
  | .count _ n kind _ _ => decide (kind = .distinctSources → n ≤ 1)
  | .allOf _ members => members.all (·.isSingle)

def Node.resumable : Node → Bool
  | .allOf _ members => members.all (·.memberResumes)
  | x => x.memberResumes

variable {m : Node} {waitpoints : List String} {kind : CountKind} {n : Nat} {path : String}
    {d : Delivery} {condition : ResumeCondition}

theorem Node.Within.member (hx : root.Within x) (hm : m ∈ x.members) : root.Below m := by
  rcases hx with rfl | hx
  · exact .child hm
  · exact .step hx hm

theorem mem_collected_of_holds (hx : root.Within x) (hs : x.isSingle) (h : x.holds ds) :
    x.memberToken ∈ collected root ds := by
  obtain ⟨d,hd,ha⟩ := (holds_of_isSingle hs).mp h
  rw [← tokenFor_of_isSingle hs d]
  exact mem_collected.mpr ⟨d,hd,x,hx,ha,rfl⟩

variable {matcher : Option SignalMatcher}

private theorem le_countNodeSatisfiers_of_holds
    (keyed : ∀ d ∈ ds, ∀ e ∈ ds, d.waitpointId = e.waitpointId → d.waitpointKey = e.waitpointKey)
    (hx : root.Within (.count path n kind matcher waitpoints)) (hk : kind = .distinctSources → n ≤ 1)
    (h : (Node.count path n kind matcher waitpoints).holds ds) : n ≤ countNodeSatisfiers kind (collected root ds) := by
  have hc : Collected root ds (collected root ds) := ⟨subset_rfl,fun _ ht => .inl ht⟩
  have hle := hc.le_countNodeSatisfiers hx fun d _ ha =>
    show counts kind d (.count path n kind matcher waitpoints) by simpa [counts] using ha
  refine le_trans ?_ hle
  simp only [holds,decide_eq_true_eq] at h
  by_cases hsrc : kind = .distinctSources
  · -- one source is enough, and every signal leaves some token
    have hn := hk hsrc
    rcases Nat.eq_zero_or_pos n with rfl | hpos
    · exact Nat.zero_le _
    · have hne := Finset.card_pos.mp (hpos.trans_le h)
      have htok : ((count path n kind matcher waitpoints).ownTokens kind ds).Nonempty := by
        rw [identities,Finset.image_nonempty] at hne
        exact hne.image _
      exact hn.trans (Finset.card_pos.mpr htok)
  · exact h.trans (card_identities_le hsrc keyed)

theorem evaluate_collected_of_holds
    (keyed : ∀ d ∈ ds, ∀ e ∈ ds, d.waitpointId = e.waitpointId → d.waitpointKey = e.waitpointKey)
    (hx : root.Within x) (hm : x.memberResumes) (h : x.holds ds) : compositeEvaluateNode (collected root ds) x := by
  cases x with
  | single => exact decide_eq_true (mem_collected_of_holds hx rfl h)
  | count =>
    have hn := le_countNodeSatisfiers_of_holds keyed hx (of_decide_eq_true hm) h
    simp [compositeEvaluateNode,hn]
  | allOf =>
    have hall := (holds_allOf.mp h).2
    simp only [compositeEvaluateNode,all_eq_true,decide_eq_true_eq]
    intro m hmem
    have hs : m.isSingle := all_eq_true.mp hm m hmem
    exact mem_collected_of_holds (.inr (hx.member hmem)) hs (hall m hmem)
  | neverBySignal => cases h

theorem evaluate_of_holds (hp : ∀ x, root.Within x → x.proper) (hr : root.resumable)
    (keyed : ∀ d ∈ ds, ∀ e ∈ ds, d.waitpointId = e.waitpointId → d.waitpointKey = e.waitpointKey)
    (h : root.holds ds) : compositeEvaluateNode (compositeTokens root ds) root := by
  have hsub := (compositeTokens_collected root ds).sub
  cases hroot : root with
  | allOf path members =>
    rw [hroot] at hr h
    have hall := (holds_allOf.mp h).2
    have hres : ∀ m ∈ members, m.memberResumes := all_eq_true.mp hr
    simp only [compositeEvaluateNode,all_eq_true,decide_eq_true_eq]
    intro m hm
    have hmem : m ∈ root.members := by rwa [hroot]
    have hw : root.Within m := .inr (.child hmem)
    rw [← hroot]
    cases hs : m.isSingle with
    | true => exact hsub (mem_collected_of_holds hw hs (hall m hm))
    | false =>
      have he := evaluate_collected_of_holds keyed hw (hres m hm) (hall m hm)
      have hrec := mem_compositeTokens_of_member hp hmem hs he
      cases m with
      | single => cases hs
      | _ => exact hrec
  | single =>
    rw [← hroot]
    exact compositeEvaluateNode_mono hsub (evaluate_collected_of_holds keyed (.inl rfl) (by rw [hroot]; rfl) h)
  | count =>
    rw [hroot] at hr
    rw [← hroot]
    exact compositeEvaluateNode_mono hsub (evaluate_collected_of_holds keyed (.inl rfl) (by rw [hroot]; exact hr) h)
  | neverBySignal =>
    rw [hroot] at h
    cases h

def OneSource (ds : List Delivery) : Prop :=
  ∀ d ∈ ds, ∀ e ∈ ds, d.countToken .distinctSources = e.countToken .distinctSources

theorem OneSource.init (h : OneSource (ds ++ [d])) : OneSource ds :=
  fun e he e' he' => h e (by simp [he]) e' (by simp [he'])

theorem evaluate_oneSource (hc : Collected root ds tokens) (ho : OneSource ds) (hn : 1 < n) :
    compositeEvaluateNode tokens (.count path n .distinctSources matcher waitpoints) = false := by
  have hcard : countNodeSatisfiers .distinctSources tokens ≤ 1 := by
    refine Finset.card_le_one.mpr fun a ha b hb => ?_
    obtain ⟨d,hd,-,rfl⟩ := hc.mem_owned.mp ha
    obtain ⟨e,he,-,rfl⟩ := hc.mem_owned.mp hb
    exact ho d hd e he
  have hlt : ¬ n ≤ countNodeSatisfiers .distinctSources tokens := by omega
  simp [compositeEvaluateNode,hc.timeout_notMem,hlt]

section
variable {m : Node} (hl : root.Labelled) (hm : root.Below m)

theorem node_notMem_add {path : String} {d : Delivery} (h : "node:" ++ path ∉ tokens) :
    "node:" ++ path ∉ (d.tokens root).toFinset ∪ tokens := by
  intro ht
  rcases Finset.mem_union.mp ht with ht | ht
  · obtain ⟨y,-,ha,hy⟩ := mem_tokens.mp (mem_toFinset.mp ht)
    exact node_ne_tokenFor ha path hy
  · exact h ht

include hl hm

theorem node_notMem_walk {p : Node} (hw : root.Walked tokens p) (hx : x ∈ p.members)
    (hne : x = m → False) (h : "node:" ++ m.path ∉ tokens) : "node:" ++ m.path ∉ insert ("node:" ++ x.path) tokens := by
  intro ht
  rcases Finset.mem_insert.mp ht with heq | ht
  · have hpath : m.path = x.path := by simpa using heq
    exact hne (hl.distinct x m (hw.below hx) hm hpath.symm)
  · exact h ht

private theorem sources_notMem (hbad : ∀ ds tokens, Collected root ds tokens → OneSource ds →
    compositeEvaluateNode tokens m = false) (ho : OneSource ds) : "node:" ++ m.path ∉ compositeTokens root ds := by
  refine (compositeTokens_invariant
    (G := fun ds tokens => OneSource ds → Collected root ds tokens ∧ "node:" ++ m.path ∉ tokens)
    (fun _ => ⟨compositeTokens_collected root [],by simp⟩) (fun ds d tokens h ho => ?_)
    (fun ds tokens p x hw hx hs he h ho => ?_) ds ho).2
  · obtain ⟨hc,hnot⟩ := h ho.init
    exact ⟨hc.add d,node_notMem_add hnot⟩
  · obtain ⟨hc,hnot⟩ := h ho
    refine ⟨Collected.walk root ds tokens p x hw hx hs he hc,node_notMem_walk hl hm hw hx ?_ hnot⟩
    rintro rfl
    simp [hbad ds tokens hc ho] at he

end

theorem memberToken_of_not_isSingle (hs : x.isSingle = false) : x.memberToken = "node:" ++ x.path := by
  cases x with
  | single => cases hs
  | _ => rfl

theorem evaluate_member (hm : m ∈ x.members) (he : compositeEvaluateNode tokens x) : m.memberToken ∈ tokens := by
  cases x with
  | allOf =>
    simp only [compositeEvaluateNode,all_eq_true,decide_eq_true_eq] at he
    exact he m hm
  | _ => cases hm

private theorem inner_notMem (hl : root.Labelled) {g : Node} (hm : m ∈ root.members) (hms : m.isSingle = false)
    (hg : g ∈ m.members) (hgs : g.isSingle = false) : "node:" ++ m.path ∉ compositeTokens root ds := by
  have hbm : root.Below m := .child hm
  have hbg : root.Below g := .step hbm hg
  refine (compositeTokens_invariant
    (G := fun _ tokens => "node:" ++ g.path ∉ tokens ∧ "node:" ++ m.path ∉ tokens) (by simp)
    (fun _ d tokens h => ⟨node_notMem_add h.1,node_notMem_add h.2⟩)
    (fun _ tokens p x hw hx hs he h => ⟨?_,?_⟩) ds).2
  · refine node_notMem_walk hl hbg hw hx ?_ h.1
    rintro rfl
    rcases hw with rfl | ⟨-,hpe⟩
    · exact hl.shallow x m x hx hbm hg rfl
    · have ht := evaluate_member hx hpe
      rw [memberToken_of_not_isSingle hs] at ht
      exact h.1 ht
  · refine node_notMem_walk hl hbm hw hx ?_ h.2
    rintro rfl
    have ht := evaluate_member hg he
    rw [memberToken_of_not_isSingle hgs] at ht
    exact h.1 ht

private theorem member_notMem (hl : root.Labelled) (hm : m ∈ root.members)
    (hr : m.memberResumes = false) (ho : OneSource ds) : m.memberToken ∉ compositeTokens root ds := by
  cases m with
  | count =>
    simp only [memberResumes,decide_eq_false_iff_not,Classical.not_imp,not_le] at hr
    obtain ⟨rfl,hn⟩ := hr
    exact sources_notMem hl (.child hm) (fun ds tokens hc ho => evaluate_oneSource hc ho hn) ho
  | allOf =>
    obtain ⟨g,hg,hgs⟩ := all_eq_false.mp hr
    exact inner_notMem hl hm rfl hg (by simpa using hgs)
  | single | neverBySignal => cases hr

private theorem evaluate_of_not_resumable (hl : root.Labelled) (hr : root.resumable = false) (ho : OneSource ds) :
    compositeEvaluateNode (compositeTokens root ds) root = false := by
  cases root with
  | allOf path members =>
    obtain ⟨m,hm,hres⟩ := all_eq_false.mp hr
    have hmem : m ∈ (allOf path members).members := hm
    rw [eq_false_iff]
    intro he
    exact member_notMem hl hmem (by simpa using hres) ho (evaluate_member hmem he)
  | count =>
    simp only [resumable,memberResumes,decide_eq_false_iff_not,Classical.not_imp,not_le] at hr
    obtain ⟨rfl,hn⟩ := hr
    exact evaluate_oneSource (compositeTokens_collected _ ds) ho hn
  | single => cases hr
  | neverBySignal => rfl

mutual
def Node.satisfiable (keys : List String) : Node → Bool
  | .single _ key _ => decide (key ∈ keys)
  | .count _ n .distinctWaitpoints _ waitpoints =>
    decide (n ≤ (waitpoints.filter fun key => decide (key ∈ keys)).toFinset.card)
  | .count _ _ _ _ waitpoints => waitpoints.any fun key => decide (key ∈ keys)
  | .allOf _ members => !members.isEmpty && membersSatisfiable keys members
  | .neverBySignal _ => false

def membersSatisfiable (keys : List String) : List Node → Bool
  | [] => true
  | m :: rest => m.satisfiable keys && membersSatisfiable keys rest
end

def SignalMatcher.names : SignalMatcher → List String
  | .byName name => [name]
  | .wildcard => []

mutual
def Node.signalNames : Node → List String
  | .single _ _ matcher => matcher.names
  | .count _ _ _ matcher _ => matcher.toList.flatMap (·.names)
  | .allOf _ members => memberNames members
  | .neverBySignal _ => []

def memberNames : List Node → List String
  | [] => []
  | m :: rest => m.signalNames ++ memberNames rest
end

mutual
def Node.countBound : Node → Nat
  | .count _ n _ _ _ => n
  | .allOf _ members => membersBound members
  | .single .. | .neverBySignal _ => 0

def membersBound : List Node → Nat
  | [] => 0
  | m :: rest => m.countBound + membersBound rest
end

def colons (n : Nat) : String := String.ofList (replicate n ':')

/-- On every waitpoint and under every name there are signals from many sources. -/
structure Rich (keys names : List String) (n : Nat) (ds : List Delivery) : Prop where
  signal : ∀ key ∈ keys, ∀ name ∈ names, ∀ j < n, ∃ d ∈ ds, d.waitpointKey = key ∧
    d.signal.signalName = name ∧ d.signal.sourceType = colons j
  distinct : ∀ d ∈ ds, ∀ e ∈ ds, d.signal.signalId = e.signal.signalId → d = e

variable {keys names : List String} {n : Nat}

private theorem colons_injective : Function.Injective colons := by
  intro i j h
  have hl := congrArg (·.toList.length) h
  simpa [colons] using hl

theorem Rich.card_le (h : Rich keys names n ds) (hk : kind ≠ .distinctWaitpoints)
    {key : String} (hkey : key ∈ keys) (hname : name ∈ names)
    (ha : ∀ d ∈ ds, d.waitpointKey = key → d.signal.signalName = name → x.accepts d) :
    n ≤ (x.identities kind ds).card := by
  have : Nonempty Delivery := ⟨⟨"","",⟨"","","",""⟩⟩⟩
  choose! f hf using fun j (hj : j < n) => h.signal key hkey name hname j hj
  have hmaps : ∀ j ∈ Finset.range n, (f j).identity kind ∈ x.identities kind ds := by
    intro j hj
    obtain ⟨hd,hdk,hdn,-⟩ := hf j (Finset.mem_range.mp hj)
    refine Finset.mem_image_of_mem _ ?_
    rw [mem_toFinset,mem_filter]
    exact ⟨hd,ha _ hd hdk hdn⟩
  have hinj : Set.InjOn (fun j => (f j).identity kind) (Finset.range n) := by
    intro i hi j hj hij
    obtain ⟨hdi,-,-,hsi⟩ := hf i (Finset.mem_range.mp hi)
    obtain ⟨hdj,-,-,hsj⟩ := hf j (Finset.mem_range.mp hj)
    have hsource : (f i).signal.sourceType = (f j).signal.sourceType := by
      cases kind with
      | distinctWaitpoints => exact (hk rfl).elim
      | distinctSignals => rw [h.distinct _ hdi _ hdj (congrArg Prod.fst hij)]
      | distinctSources => exact congrArg Prod.fst hij
    exact colons_injective (hsi.symm.trans (hsource.trans hsj))
  calc n = (Finset.range n).card := (Finset.card_range n).symm
    _ ≤ _ := Finset.card_le_card_of_injOn _ hmaps hinj

theorem exists_name (matcher : Option SignalMatcher) (h0 : "" ∈ names) (hm : matcher.toList.flatMap (·.names) ⊆ names) :
    ∃ name ∈ names, ∀ signal : Signal, signal.signalName = name → matcher.all (matcherMatches · signal) := by
  rcases matcher with _ | ⟨name⟩ | _
  · exact ⟨"",h0,fun _ _ => rfl⟩
  · refine ⟨name,hm (by simp [SignalMatcher.names]),fun signal hs => ?_⟩
    simp [matcherMatches,hs]
  · exact ⟨"",h0,fun _ _ => rfl⟩

theorem Rich.card_keys_le (h : Rich keys names n ds) (hn : 0 < n) (hname : name ∈ names)
    (hm : ∀ signal : Signal, signal.signalName = name → matcher.all (matcherMatches · signal)) :
    (waitpoints.filter fun key => decide (key ∈ keys)).toFinset.card ≤
      ((Node.count path k .distinctWaitpoints matcher waitpoints).identities .distinctWaitpoints ds).card := by
  refine Finset.card_le_card_of_injOn (fun key => (key,"")) (fun key hkey => ?_) ?_
  · rw [Finset.mem_coe,mem_toFinset,mem_filter,decide_eq_true_eq] at hkey
    obtain ⟨d,hd,hdk,hdn,-⟩ := h.signal key hkey.2 name hname 0 hn
    refine Finset.mem_image.mpr ⟨d,?_,by rw [← hdk]; rfl⟩
    rw [mem_toFinset,mem_filter]
    exact ⟨hd,by simp [accepts,hdk,hkey.1,hm d.signal hdn]⟩
  · intro a _ b _ hab
    exact congrArg Prod.fst hab

mutual
theorem holds_of_rich (h : Rich keys names n ds) (hn : 0 < n) (h0 : "" ∈ names) (x : Node)
    (hs : x.satisfiable keys) (hx : x.signalNames ⊆ names) (hb : x.countBound ≤ n) : x.holds ds := by
  match x with
  | .single path key matcher =>
    obtain ⟨name,hname,hm⟩ := exists_name (some matcher) h0 (by simpa [signalNames] using hx)
    obtain ⟨d,hd,hdk,hdn,-⟩ := h.signal key (of_decide_eq_true hs) name hname 0 hn
    refine (holds_of_isSingle rfl).mpr ⟨d,hd,?_⟩
    simpa [accepts,hdk] using hm d.signal hdn
  | .count path k kind matcher waitpoints =>
    obtain ⟨name,hname,hm⟩ := exists_name matcher h0 hx
    simp only [holds,decide_eq_true_eq]
    by_cases hk : kind = .distinctWaitpoints
    · subst hk
      simp only [satisfiable,decide_eq_true_eq] at hs
      exact hs.trans (h.card_keys_le hn hname hm)
    · have hany : waitpoints.any fun key => decide (key ∈ keys) := by
        cases kind with
        | distinctWaitpoints => exact (hk rfl).elim
        | distinctSignals | distinctSources => exact hs
      obtain ⟨key,hw,hkey⟩ := any_eq_true.mp hany
      refine le_trans hb (h.card_le hk (of_decide_eq_true hkey) hname fun d _ hdk hdn => ?_)
      simp [accepts,hdk,hw,hm d.signal hdn]
  | .allOf path members =>
    simp only [satisfiable,and_eq_true] at hs
    simp only [holds,and_eq_true]
    exact ⟨hs.1,membersHold_of_rich h hn h0 members hs.2 hx hb⟩
  | .neverBySignal path => cases hs

theorem membersHold_of_rich (h : Rich keys names n ds) (hn : 0 < n) (h0 : "" ∈ names) (members : List Node)
    (hs : membersSatisfiable keys members) (hx : memberNames members ⊆ names)
    (hb : membersBound members ≤ n) : membersHold ds members := by
  match members with
  | [] => rfl
  | m :: rest =>
    simp only [membersSatisfiable,and_eq_true] at hs
    simp only [memberNames,append_subset] at hx
    simp only [membersBound] at hb
    simp only [membersHold,and_eq_true]
    exact ⟨holds_of_rich h hn h0 m hs.1 hx.1 (by omega),membersHold_of_rich h hn h0 rest hs.2 hx.2 (by omega)⟩
end

mutual
theorem satisfiable_of_holds (hk : ∀ d ∈ ds, d.waitpointKey ∈ keys) (x : Node)
    (hp : ∀ y, x.Within y → y.proper) (h : x.holds ds) : x.satisfiable keys := by
  match x with
  | .single path key matcher =>
    obtain ⟨d,hd,ha⟩ := (holds_of_isSingle rfl).mp h
    simp only [accepts,and_eq_true,decide_eq_true_eq] at ha
    exact decide_eq_true (ha.1 ▸ hk d hd)
  | .count path k kind matcher waitpoints =>
    let x := count path k kind matcher waitpoints
    have taken {d : Delivery} (hd : d ∈ (ds.filter x.accepts).toFinset) :
        d.waitpointKey ∈ waitpoints ∧ d.waitpointKey ∈ keys := by
      rw [mem_toFinset,mem_filter] at hd
      have ha : x.accepts d := hd.2
      simp only [x,accepts,and_eq_true,decide_eq_true_eq] at ha
      exact ⟨ha.1,hk d hd.1⟩
    simp only [holds,decide_eq_true_eq] at h
    by_cases hw : kind = .distinctWaitpoints
    · subst hw
      simp only [satisfiable,decide_eq_true_eq]
      refine h.trans (Finset.card_le_card_of_injOn Prod.fst (fun c hc => ?_) fun a ha b hb hab => ?_)
      · obtain ⟨d,hd,rfl⟩ := Finset.mem_image.mp (Finset.mem_coe.mp hc)
        rw [Finset.mem_coe,mem_toFinset,mem_filter,decide_eq_true_eq]
        exact taken hd
      · obtain ⟨d,-,rfl⟩ := Finset.mem_image.mp (Finset.mem_coe.mp ha)
        obtain ⟨e,-,rfl⟩ := Finset.mem_image.mp (Finset.mem_coe.mp hb)
        exact Prod.ext hab rfl
    · have hne := Finset.card_pos.mp ((Nat.pos_of_ne_zero (of_decide_eq_true (hp _ (.inl rfl)))).trans_le h)
      rw [identities,Finset.image_nonempty] at hne
      obtain ⟨d,hd⟩ := hne
      have hany : waitpoints.any fun key => decide (key ∈ keys) :=
        any_eq_true.mpr ⟨d.waitpointKey,(taken hd).1,decide_eq_true (taken hd).2⟩
      cases kind with
      | distinctWaitpoints => exact (hw rfl).elim
      | distinctSignals | distinctSources => exact hany
  | .allOf path members =>
    simp only [holds,and_eq_true] at h
    simp only [satisfiable,and_eq_true]
    refine ⟨h.1,membersSatisfiable_of_hold hk members (fun m hm y hy => ?_) h.2⟩
    exact hp y (.inr (below_iff.mpr ⟨m,hm,hy⟩))
  | .neverBySignal path => cases h

theorem membersSatisfiable_of_hold (hk : ∀ d ∈ ds, d.waitpointKey ∈ keys) (members : List Node)
    (hp : ∀ m ∈ members, ∀ y, m.Within y → y.proper) (h : membersHold ds members) :
    membersSatisfiable keys members := by
  match members with
  | [] => rfl
  | m :: rest =>
    simp only [membersHold,and_eq_true] at h
    simp only [membersSatisfiable,and_eq_true]
    exact ⟨satisfiable_of_holds hk m (hp m (by simp)) h.1,
      membersSatisfiable_of_hold hk rest (fun m' hm' => hp m' (by simp [hm'])) h.2⟩
end

/-- A signal of every source, under every name and on every waitpoint. All of them leave one
source token. -/
def everySignal (bindings : List (String × String)) (names : List String) (n : Nat) : List Delivery :=
  (bindings.product (names.product (range n))).zipIdx.map fun c =>
    { waitpointId := c.1.1.1
      waitpointKey := c.1.1.2
      signal := { signalId := toString c.2, signalName := c.1.2.1, sourceType := colons c.1.2.2
                  sourceIdentity := colons (n - c.1.2.2) } }

variable {bindings : List (String × String)}

theorem mem_everySignal (h : d ∈ everySignal bindings names n) :
    (d.waitpointId,d.waitpointKey) ∈ bindings ∧ ∃ j < n, d.signal.sourceType = colons j ∧
      d.signal.sourceIdentity = colons (n - j) := by
  obtain ⟨⟨⟨b,name,j⟩,i⟩,hc,rfl⟩ := mem_map.mp h
  have hmem := fst_mem_of_mem_zipIdx hc
  rw [pair_mem_product,pair_mem_product,mem_range] at hmem
  exact ⟨hmem.1,j,hmem.2.2,rfl,rfl⟩

theorem everySignal_nodup (bindings : List (String × String)) (names : List String) (n : Nat) :
    ((everySignal bindings names n).map (·.signal.signalId)).Nodup := by
  have hmap : (everySignal bindings names n).map (·.signal.signalId) =
      ((bindings.product (names.product (range n))).zipIdx.map Prod.snd).map toString := by
    rw [everySignal,map_map,map_map]
    rfl
  rw [hmap,zipIdx_map_snd]
  exact List.Nodup.map toString_injective nodup_range'

private theorem everySignal_oneSource : OneSource (everySignal bindings names n) := by
  have token {d : Delivery} (hd : d ∈ everySignal bindings names n) :
      (d.countToken .distinctSources).toList = "src:".toList ++ replicate (n + 1) ':' := by
    obtain ⟨-,j,hj,ht,hi⟩ := mem_everySignal hd
    have hsplit : n + 1 = j + (1 + (n - j)) := by omega
    rw [hsplit,replicate_add,replicate_add]
    simp [Delivery.countToken,countSatisfierToken,ht,hi,colons,String.toList_append]
  intro d hd e he
  exact String.toList_inj.mp ((token hd).trans (token he).symm)

private theorem everySignal_rich : Rich (bindings.map (·.2)) names n (everySignal bindings names n) := by
  refine ⟨fun key hkey name hname j hj => ?_,fun d hd e he hid => ?_⟩
  · obtain ⟨b,hb,rfl⟩ := mem_map.mp hkey
    have hmem : (b,name,j) ∈ bindings.product (names.product (range n)) := by simp [pair_mem_product,hb,hname,hj]
    obtain ⟨i,hi⟩ := mem_iff_getElem?.mp hmem
    exact ⟨_,mem_map_of_mem (mk_mem_zipIdx_iff_getElem?.mpr hi),rfl,rfl,rfl⟩
  · exact inj_on_of_nodup_map (everySignal_nodup bindings names n) hd he hid

theorem keyed_of_bindings (hd : (bindings.map (·.1)).Nodup) (hb : ∀ d ∈ ds, (d.waitpointId,d.waitpointKey) ∈ bindings) :
    ∀ d ∈ ds, ∀ e ∈ ds, d.waitpointId = e.waitpointId → d.waitpointKey = e.waitpointKey := by
  intro d hd' e he hid
  exact congrArg Prod.snd (inj_on_of_nodup_map hd (hb d hd') (hb e he) hid)

theorem tree_isSingle (hc : condition.isComposite) : condition.tree.isSingle = false := by
  cases condition with
  | allOf | count => rfl
  | _ => cases hc

/-- A composite condition that holds for the delivered signals has always been reported exactly
when it cannot be satisfied on the waitpoints at all, or has the shape that the scripts see. -/
theorem evaluated_is_reported_iff (condition : ResumeCondition) (bindings : List (String × String))
    (hc : condition.isComposite) (hv : condition.validateComposite = .ok ()) (hd : (bindings.map (·.1)).Nodup) :
    (∀ ds : List Delivery, (∀ d ∈ ds, (d.waitpointId,d.waitpointKey) ∈ bindings) →
      (ds.map (·.signal.signalId)).Nodup → evaluate (byWaitpoint ds) condition → reported condition.tree ds) ↔
      (condition.tree.satisfiable (bindings.map (·.2)) → condition.tree.resumable) := by
  have hl : condition.tree.Labelled := compositeNodeToJson_labelled condition
  have hp : ∀ x, condition.tree.Within x → x.proper := fun x hx => validateBody_proper condition hv hx
  have hr : ∀ ds, reported condition.tree ds ↔
      compositeEvaluateNode (compositeTokens condition.tree ds) condition.tree :=
    fun ds => reported_iff (hp _ (.inl rfl)) (tree_isSingle hc)
  constructor
  · intro h hs
    let names := "" :: condition.tree.signalNames
    let n := condition.tree.countBound + 1
    let ds := everySignal bindings names n
    have hholds : condition.tree.holds ds :=
      holds_of_rich everySignal_rich (by omega) (by simp [names]) _ hs (by simp [names]) (by omega)
    have hev : evaluate (byWaitpoint ds) condition := by
      rw [evaluate_eq_holds ds ""]
      exact hholds
    have hrep := h ds (fun d hd => (mem_everySignal hd).1) (everySignal_nodup bindings names n) hev
    rw [hr] at hrep
    by_contra hnot
    rw [evaluate_of_not_resumable hl (by simpa using hnot) everySignal_oneSource] at hrep
    cases hrep
  · intro h ds hb _ hev
    rw [evaluate_eq_holds ds ""] at hev
    have hkeys : ∀ d ∈ ds, d.waitpointKey ∈ bindings.map (·.2) := fun d hd => mem_map_of_mem (hb d hd)
    rw [hr]
    exact evaluate_of_holds hp (h (satisfiable_of_holds hkeys _ hp hev)) (keyed_of_bindings hd hb) hev

/-- A condition of that shape, with one signal by name and two signals. -/
theorem two_signals_are_reported :
    let condition : ResumeCondition := .allOf [.single "k1" (.byName "a"),.count 2 .distinctSignals none ["k1"]]
    reported condition.tree [⟨"w1","k1","g1","a","user","u"⟩,⟨"w1","k1","g2","b","user","u"⟩] := by
  intro condition
  refine (evaluated_is_reported_iff condition [("w1","k1")] rfl rfl (by decide)).mpr (by decide) _
    (by decide) (by decide) (by decide)

/-- A conjunction in a conjunction with a count in it holds and is never reported. Two sources
are told apart by the reference and leave the same token. -/
theorem nested_count_is_not_reported :
    let nested : ResumeCondition := .allOf [.allOf [.count 1 .distinctSignals none ["k1"]]]
    let sources : ResumeCondition := .count 2 .distinctSources none ["k1"]
    let one := [sent 14 "g1" "go"]
    let two := [sent 14 "g1" "go" "a:b" "c",sent 15 "g2" "go" "a" "b:c"]
    (nested.validateComposite = .ok () ∧ evaluate (byWaitpoint (deliveries (waitingFor nested) one)) nested ∧
      anyReports (waitingFor nested) one = false) ∧ sources.validateComposite = .ok () ∧
      evaluate (byWaitpoint (deliveries (waitingFor sources) two)) sources ∧
      anyReports (waitingFor sources) two = false := by
  refine ⟨⟨rfl,?_,?_⟩,rfl,?_,?_⟩ <;> decide +kernel

private theorem reported_append : reported root (ds ++ [d]) → reported root ds ∨ d.reports root ds := by
  rintro ⟨before,e,after,heq,hr⟩
  rcases eq_nil_or_concat after with rfl | ⟨after,e',rfl⟩
  · obtain ⟨rfl,he⟩ := append_inj' heq rfl
    cases he
    exact .inr hr
  · rw [concat_eq_append,← cons_append,← append_assoc] at heq
    obtain ⟨rfl,-⟩ := append_inj' heq rfl
    exact .inl ⟨before,e,after,rfl,hr⟩

theorem Tracks.anyReports_of_reported {s : Store} {is : List Sent}
    (h : Tracks condition bindings ds s) (hc : condition.isComposite)
    (hon : ∀ i ∈ is, i.2.waitpointId ∈ bindings.map (·.1)) (hn : ¬ reported condition.tree ds)
    (hr : reported condition.tree (ds ++ deliveries s is)) : anyReports s is := by
  induction is generalizing ds s with
  | nil =>
    rw [deliveries,append_nil] at hr
    exact (hn hr).elim
  | cons i is ih =>
    rw [anyReports,or_eq_true]
    cases hi : i.reports s with
    | true => exact .inl rfl
    | false =>
      obtain ⟨htracks,hsilent⟩ := (h.step (hon i (by simp))).2 hi
      rw [deliveries,← append_assoc] at hr
      refine .inr (ih htracks (fun j hj => hon j (by simp [hj])) ?_ hr)
      intro hrep
      cases hd : i.delivered s with
      | none =>
        rw [hd,Option.toList_none,append_nil] at hrep
        exact hn hrep
      | some d =>
        rw [hd] at hrep
        rcases reported_append hrep with hrep | hrep
        · exact hn hrep
        · rw [hsilent d hd hc] at hrep
          cases hrep

theorem Started.anyReports_of_evaluate {r : SuspendRequest} {others : SuspendArgs} {now : Int}
    {s t : Store} (h : Started r others now s t) (hc : r.resumeCondition.isComposite)
    (hr : r.resumeCondition.tree.resumable) {is : List Sent} (hon : ∀ i ∈ is, i.2.waitpointId ∈ r.bindings.map (·.1))
    (he : evaluate (byWaitpoint (deliveries t is)) r.resumeCondition) : anyReports t is := by
  have hv := (validateSuspendArgs_ok h.valid).composite
  have hp : ∀ x, r.resumeCondition.tree.Within x → x.proper := fun x hx => validateBody_proper _ hv hx
  have hempty : ¬ reported r.resumeCondition.tree [] := by
    rintro ⟨before,d,after,heq,-⟩
    cases before <;> cases heq
  by_contra hno
  rw [not_eq_true] at hno
  have hlisted := (h.tracks.run hon hno).listed
  rw [evaluate_eq_holds _ ""] at he
  have hev := evaluate_of_holds hp hr (keyed_of_bindings h.distinct hlisted) he
  have hrep := (reported_iff (hp _ (.inl rfl)) (tree_isSingle hc)).mpr hev
  rw [h.tracks.anyReports_of_reported hc hon hempty hrep] at hno
  cases hno

theorem second_signal_is_answered : anyReports (waitingFor (.count 2 .distinctSignals none ["k1"]))
      [sent 14 "g1" "a",sent 15 "g2" "b"] :=
  (started rfl (by decide +kernel)).anyReports_of_evaluate rfl rfl (by decide) (by decide +kernel)

end FlowFabric
