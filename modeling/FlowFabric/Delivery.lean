import FlowFabric.Composite

/-! Signals delivered one after the other to a composite condition, and the tokens they leave. -/
namespace FlowFabric
open List Option String CountKind

structure Delivery where
  (waitpointId waitpointKey : String)
  signal : Signal
  deriving DecidableEq

def byWaitpoint (ds : List Delivery) : SignalsByWaitpoint := fun key =>
  (ds.filter fun d => decide (d.waitpointKey = key)).map (·.signal)

theorem mem_byWaitpoint {ds : List Delivery} {key : String} {signal : Signal} :
    signal ∈ byWaitpoint ds key ↔ ∃ d ∈ ds, d.waitpointKey = key ∧ d.signal = signal := by
  simp [byWaitpoint,and_assoc]

def compositeTokens (root : Node) (ds : List Delivery) : Finset String :=
  ds.foldl (fun tokens d => (compositeDeliverSignal (some root) tokens d.waitpointId d.waitpointKey d.signal).2) ∅

/-- The signal, after the others, satisfies the condition for the scripts. -/
def Delivery.reports (root : Node) (ds : List Delivery) (d : Delivery) : Bool :=
  decide ((compositeDeliverSignal (some root) (compositeTokens root ds) d.waitpointId d.waitpointKey
    d.signal).1 = .resumeConditionSatisfied)

def Delivery.tokens (root : Node) (d : Delivery) : List String :=
  (compositeCollectCandidateNodes d.waitpointKey root).filterMap (candidateToken d.signal d.waitpointId)

/-- The tokens of all signals, before any satisfied node is recorded. -/
def collected (root : Node) (ds : List Delivery) : Finset String := (ds.flatMap (·.tokens root)).toFinset

theorem compositeDeliverSignal_cases (root : Node) (tokens : Finset String) (d : Delivery) :
    let r := compositeDeliverSignal (some root) tokens d.waitpointId d.waitpointKey d.signal
    ((d.tokens root).toFinset ⊆ tokens ∧ r.2 = tokens ∧ r.1 ≠ .resumeConditionSatisfied) ∨
      (r.2 = propagate ((d.tokens root).toFinset ∪ tokens) root ∧
        (r.1 = .resumeConditionSatisfied ↔ compositeEvaluateNode r.2 root)) := by
  dsimp only [compositeDeliverSignal]
  have all_in (h : d.tokens root ⊆ []) : (d.tokens root).toFinset ⊆ tokens := by simp [subset_nil.mp h]
  split
  · rename_i he
    simp [Delivery.tokens,isEmpty_iff.mp he]
  · split
    · rename_i he
      exact .inl ⟨all_in (by simp [Delivery.tokens,isEmpty_iff.mp he]),rfl,nofun⟩
    · split
      · rename_i hall
        refine .inl ⟨fun t ht => ?_,rfl,nofun⟩
        exact of_decide_eq_true (all_eq_true.mp hall t (mem_toFinset.mp ht))
      · right
        split
        · rename_i he
          exact ⟨rfl,fun _ => he,fun _ => rfl⟩
        · rename_i he
          exact ⟨rfl,nofun,fun h => (he h).elim⟩

def CountKind.owns (kind : CountKind) (token : String) : Bool := kind.tokenPrefix.toList.isPrefixOf token.toList

theorem owns_leaf (kind : CountKind) (path : String) : kind.owns ("leaf:" ++ path) = false := by
  cases kind <;> simp [owns,tokenPrefix,toList_append,List.isPrefixOf]

private theorem owns_node (kind : CountKind) (path : String) : kind.owns ("node:" ++ path) = false := by
  cases kind <;> simp [owns,tokenPrefix,toList_append,List.isPrefixOf]

theorem owns_countSatisfierToken (kind kind' : CountKind) (signal : Signal) (waitpointId : String) :
    kind.owns (countSatisfierToken kind' signal waitpointId) = decide (kind = kind') := by
  cases kind <;> cases kind' <;> simp [owns,tokenPrefix,countSatisfierToken,toList_append,List.isPrefixOf]

variable {root x : Node} {ds : List Delivery} {d : Delivery} {tokens : Finset String}

def Node.accepts (d : Delivery) : Node → Bool
  | .single _ key matcher => decide (key = d.waitpointKey) && matcherMatches matcher d.signal
  | .count _ _ _ matcher waitpoints => decide (d.waitpointKey ∈ waitpoints) && matcher.all (matcherMatches · d.signal)
  | .allOf _ _ | .neverBySignal _ => false

open Node

def Node.tokenFor (d : Delivery) : Node → String
  | .count _ _ kind _ _ => countSatisfierToken kind d.signal d.waitpointId
  | x => "leaf:" ++ x.path

theorem matcherAccepts_eq (matcher : Option SignalMatcher) (signal : Signal) :
    matcherAccepts matcher signal.signalName = matcher.all (matcherMatches · signal) := by
  rcases matcher with _ | ⟨name⟩ | _
  · rfl
  · simp [matcherAccepts,matcherMatches,Bool.beq_comm]
  · rfl

variable {token path : String}

theorem candidateToken_eq_some (hl : x.listens d.waitpointKey) :
    candidateToken d.signal d.waitpointId x = some token ↔ x.accepts d ∧ token = x.tokenFor d := by
  cases x with
  | single =>
    simp only [listens] at hl
    simp only [candidateToken,ite_none_right_eq_some,Option.some.injEq,matcherAccepts_eq,
      all_some,accepts,hl,Bool.true_and,@eq_comm _ token]
    rfl
  | count =>
    simp only [listens] at hl
    simp only [candidateToken,ite_none_right_eq_some,Option.some.injEq,matcherAccepts_eq,
      accepts,hl,Bool.true_and,@eq_comm _ token]
    rfl
  | _ => cases hl

theorem mem_tokens : token ∈ d.tokens root ↔ ∃ x, root.Within x ∧ x.accepts d ∧ token = x.tokenFor d := by
  simp only [Delivery.tokens,mem_filterMap,mem_collect]
  constructor
  · rintro ⟨x,⟨hx,hl⟩,ht⟩
    exact ⟨x,hx,(candidateToken_eq_some hl).mp ht⟩
  · rintro ⟨x,hx,ha,ht⟩
    have hl : x.listens d.waitpointKey := by cases x <;> simp_all [accepts,listens]
    exact ⟨x,⟨hx,hl⟩,(candidateToken_eq_some hl).mpr ⟨ha,ht⟩⟩

theorem mem_collected :
    token ∈ collected root ds ↔ ∃ d ∈ ds, ∃ x, root.Within x ∧ x.accepts d ∧ token = x.tokenFor d := by
  simp [collected,mem_tokens]

theorem collected_append (root : Node) (ds : List Delivery) (d : Delivery) :
    collected root (ds ++ [d]) = (d.tokens root).toFinset ∪ collected root ds := by
  ext token
  simp [collected,or_comm]

theorem compositeTokens_append (root : Node) (ds : List Delivery) (d : Delivery) :
    compositeTokens root (ds ++ [d]) = (compositeDeliverSignal (some root) (compositeTokens root ds)
      d.waitpointId d.waitpointKey d.signal).2 := by
  simp [compositeTokens]

theorem compositeTokens_invariant {G : List Delivery → Finset String → Prop} (start : G [] ∅)
    (add : ∀ ds d tokens, G ds tokens → G (ds ++ [d]) ((d.tokens root).toFinset ∪ tokens))
    (walk : ∀ ds, root.KeptByWalk (G ds)) (ds : List Delivery) : G ds (compositeTokens root ds) := by
  induction ds using List.reverseRecOn with
  | nil => exact start
  | append_singleton ds d ih =>
    have h := add ds d _ ih
    rw [compositeTokens_append]
    rcases compositeDeliverSignal_cases root (compositeTokens root ds) d with ⟨hsub,ht,-⟩ | ⟨ht,-⟩
    · rw [ht]
      exact Finset.union_eq_right.mpr hsub ▸ h
    · rw [ht]
      exact (propagate_invariant (walk (ds ++ [d])) root (.inl rfl) h).2

/-- The set holds the tokens of the signals and, besides them, only records of nodes. -/
structure Collected (root : Node) (ds : List Delivery) (tokens : Finset String) : Prop where
  sub : collected root ds ⊆ tokens
  only : ∀ token ∈ tokens, token ∈ collected root ds ∨ ∃ path, token = "node:" ++ path

theorem Collected.walk (root : Node) (ds : List Delivery) : root.KeptByWalk (Collected root ds) := by
  intro tokens p x _ _ _ _ h
  refine ⟨h.sub.trans (Finset.subset_insert _ _),fun token ht => ?_⟩
  rcases Finset.mem_insert.mp ht with rfl | ht
  · exact .inr ⟨_,rfl⟩
  · exact h.only token ht

theorem Collected.add (h : Collected root ds tokens) (d : Delivery) :
    Collected root (ds ++ [d]) ((d.tokens root).toFinset ∪ tokens) := by
  refine ⟨?_,fun token ht => ?_⟩
  · rw [collected_append]
    exact Finset.union_subset_union subset_rfl h.sub
  · rw [collected_append,Finset.mem_union]
    rcases Finset.mem_union.mp ht with ht | ht
    · exact .inl (.inl ht)
    · exact (h.only token ht).imp_left .inr

theorem compositeTokens_collected (root : Node) (ds : List Delivery) : Collected root ds (compositeTokens root ds) :=
  compositeTokens_invariant ⟨by simp [collected],by simp⟩ (fun _ d _ h => h.add d) (Collected.walk root) ds

def Delivery.countToken (kind : CountKind) (d : Delivery) : String := countSatisfierToken kind d.signal d.waitpointId

def Node.counts (kind : CountKind) (d : Delivery) : Node → Bool
  | .count path n kind' matcher waitpoints => decide (kind' = kind) && (count path n kind' matcher waitpoints).accepts d
  | _ => false

variable {kind : CountKind}

theorem owns_tokenFor (ha : x.accepts d) : kind.owns (x.tokenFor d) = x.counts kind d := by
  cases x with
  | single path => exact owns_leaf kind path
  | count =>
    simp only [tokenFor,owns_countSatisfierToken,counts,ha,Bool.and_true]
    exact decide_eq_decide.mpr eq_comm
  | _ => cases ha

theorem tokenFor_of_counts (h : x.counts kind d) : x.accepts d ∧ x.tokenFor d = d.countToken kind := by
  cases x with
  | count =>
    simp only [counts,Bool.and_eq_true,decide_eq_true_eq] at h
    obtain ⟨rfl,ha⟩ := h
    exact ⟨ha,rfl⟩
  | _ => cases h

theorem Collected.mem_owned (h : Collected root ds tokens) : token ∈ tokens.filter (fun token => kind.owns token) ↔
      ∃ d ∈ ds, (∃ y, root.Within y ∧ y.counts kind d) ∧ token = d.countToken kind := by
  rw [Finset.mem_filter]
  constructor
  · rintro ⟨ht,ho⟩
    rcases h.only token ht with ht | ⟨path,rfl⟩
    · obtain ⟨d,hd,y,hy,ha,rfl⟩ := mem_collected.mp ht
      rw [owns_tokenFor ha] at ho
      exact ⟨d,hd,⟨y,hy,ho⟩,(tokenFor_of_counts ho).2⟩
    · rw [owns_node] at ho
      cases ho
  · rintro ⟨d,hd,⟨y,hy,hk⟩,rfl⟩
    obtain ⟨ha,ht⟩ := tokenFor_of_counts hk
    refine ⟨h.sub (mem_collected.mpr ⟨d,hd,y,hy,ha,ht.symm⟩),?_⟩
    rw [← ht,owns_tokenFor ha,hk]

/-- The number of different tokens among the signals that a count takes. -/
def Node.ownTokens (kind : CountKind) (ds : List Delivery) (x : Node) : Finset String :=
  (ds.filter x.accepts).toFinset.image (·.countToken kind)

theorem Collected.countNodeSatisfiers_le (h : Collected root ds tokens)
    (agree : ∀ d ∈ ds, ∀ y, root.Within y → y.counts kind d → x.accepts d) :
    countNodeSatisfiers kind tokens ≤ (x.ownTokens kind ds).card := by
  refine Finset.card_le_card fun token ht => ?_
  obtain ⟨d,hd,⟨y,hy,hk⟩,rfl⟩ := h.mem_owned.mp ht
  refine Finset.mem_image_of_mem _ ?_
  simpa using ⟨hd,agree d hd y hy hk⟩

theorem Collected.le_countNodeSatisfiers (h : Collected root ds tokens)
    (hx : root.Within x) (own : ∀ d ∈ ds, x.accepts d → x.counts kind d) :
    (x.ownTokens kind ds).card ≤ countNodeSatisfiers kind tokens := by
  refine Finset.card_le_card fun token ht => ?_
  obtain ⟨d,hd,rfl⟩ := Finset.mem_image.mp ht
  rw [List.mem_toFinset,List.mem_filter] at hd
  exact h.mem_owned.mpr ⟨d,hd.1,⟨x,hx,own d hd.1 hd.2⟩,rfl⟩

theorem head_tokenFor (ha : x.accepts d) : (x.tokenFor d).toList.head? ∈ [some 'l',some 's',some 'w'] := by
  cases x with
  | single => simp [tokenFor,toList_append]
  | count path n kind =>
    cases kind <;> simp [tokenFor,countSatisfierToken,toList_append]
  | _ => cases ha

theorem node_ne_tokenFor (ha : x.accepts d) (path : String) : "node:" ++ path ≠ x.tokenFor d := by
  intro h
  have hh := head_tokenFor ha
  simp [← h,toList_append] at hh

theorem Collected.timeout_notMem (h : Collected root ds tokens) : "timeout:*" ∉ tokens := by
  intro ht
  rcases h.only _ ht with ht | ⟨path,hp⟩
  · obtain ⟨d,-,y,-,ha,hy⟩ := mem_collected.mp ht
    have hh := head_tokenFor ha
    simp [← hy] at hh
  · have hh := congrArg (·.toList.head?) hp
    simp [toList_append] at hh

theorem Collected.tokens_subset (h : Collected root ds tokens) (hd : (d.tokens root).toFinset ⊆ tokens) :
    (d.tokens root).toFinset ⊆ collected root ds := by
  intro token ht
  rcases h.only token (hd ht) with hc | ⟨path,rfl⟩
  · exact hc
  · obtain ⟨y,-,ha,hy⟩ := mem_tokens.mp (mem_toFinset.mp ht)
    exact (node_ne_tokenFor ha path hy).elim

private theorem isSingle_of_leaf (ha : x.accepts d) (h : "leaf:" ++ path = x.tokenFor d) :
    x.isSingle ∧ x.path = path := by
  cases x with
  | single =>
    refine ⟨rfl,?_⟩
    simpa [Node.tokenFor,Node.path,eq_comm] using h
  | count path' n kind =>
    have hk := owns_countSatisfierToken kind kind d.signal d.waitpointId
    rw [show countSatisfierToken kind d.signal d.waitpointId = _ from h.symm,owns_leaf] at hk
    simp at hk
  | _ => cases ha

private theorem memberToken_of_isSingle (hs : x.isSingle) : x.memberToken = "leaf:" ++ x.path := by
  cases x with
  | single => rfl
  | _ => cases hs

theorem tokenFor_of_isSingle (hs : x.isSingle) (d : Delivery) : x.tokenFor d = x.memberToken := by
  cases x with
  | single => rfl
  | _ => cases hs

theorem Collected.mem_leaf (h : Collected root ds tokens) (hl : root.Labelled) (hr : root.isSingle = false)
    (hx : root.Below x) (hs : x.isSingle) : x.memberToken ∈ tokens ↔ ∃ d ∈ ds, x.accepts d := by
  constructor
  · intro ht
    rw [memberToken_of_isSingle hs] at ht
    rcases h.only _ ht with ht | ⟨path,hp⟩
    · obtain ⟨d,hd,y,hy,ha,hyt⟩ := mem_collected.mp ht
      obtain ⟨hys,hyp⟩ := isSingle_of_leaf ha hyt
      rcases hy with rfl | hy
      · simp [hys] at hr
      · exact ⟨d,hd,hl.distinct y x hy hx hyp ▸ ha⟩
    · have hh := congrArg (·.toList.head?) hp
      simp [toList_append] at hh
  · rintro ⟨d,hd,ha⟩
    rw [← tokenFor_of_isSingle hs d]
    exact h.sub (mem_collected.mpr ⟨d,hd,x,.inr hx,ha,rfl⟩)

end FlowFabric
