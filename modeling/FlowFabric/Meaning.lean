import FlowFabric.Delivery

/-! The reference meaning of a condition over the signals delivered so far, beside the tokens
that the scripts keep of them. -/
namespace FlowFabric
open Foundation List Node
variable {x : Node} {ds : List Delivery}

def CountKind.identity : CountKind → String × Signal → String × String
  | .distinctWaitpoints, c => (c.1,"")
  | .distinctSignals, c => (c.2.signalId,"")
  | .distinctSources, c => (c.2.sourceType,c.2.sourceIdentity)

variable (kind : CountKind)

theorem distinctCount_eq (candidates : List (String × Signal)) :
    distinctCount kind candidates = (candidates.map kind.identity).toFinset.card := by
  have blank (f : String × Signal → String) : (candidates.map f).toFinset.card =
      (candidates.map fun c => (f c,"")).toFinset.card := by
    have hmap : (candidates.map fun c => (f c,"")).toFinset =
        (candidates.map f).toFinset.image fun name => (name,"") := by
      ext; simp
    rw [hmap,Finset.card_image_of_injective _ fun a b h => congrArg Prod.fst h]
  cases kind with
  | distinctWaitpoints | distinctSignals => exact blank _
  | distinctSources => rfl

def Delivery.identity (d : Delivery) : String × String := kind.identity (d.waitpointKey,d.signal)

def Node.identities (ds : List Delivery) (x : Node) : Finset (String × String) :=
  (ds.filter x.accepts).toFinset.image (·.identity kind)

theorem mem_countCandidates {matcher : Option SignalMatcher} {waitpoints : List String} {c : String × Signal} :
    c ∈ countCandidates (byWaitpoint ds) matcher waitpoints ↔
      ∃ d ∈ ds, (d.waitpointKey ∈ waitpoints ∧ matcher.all (matcherMatches · d.signal)) ∧
        (d.waitpointKey,d.signal) = c := by
  simp only [countCandidates,mem_flatMap,mem_map,mem_filter,mem_byWaitpoint]
  constructor
  · rintro ⟨key,hk,signal,⟨⟨d,hd,rfl,rfl⟩,hm⟩,rfl⟩
    exact ⟨d,hd,⟨hk,hm⟩,rfl⟩
  · rintro ⟨d,hd,⟨hk,hm⟩,rfl⟩
    exact ⟨_,hk,_,⟨⟨d,hd,rfl,rfl⟩,hm⟩,rfl⟩

theorem distinctCount_eq_identities (path : String) (n : Nat) (kind : CountKind)
    (matcher : Option SignalMatcher) (waitpoints : List String) :
    distinctCount kind (countCandidates (byWaitpoint ds) matcher waitpoints) =
      ((Node.count path n kind matcher waitpoints).identities kind ds).card := by
  rw [distinctCount_eq]
  congr 1
  ext c
  simp only [mem_toFinset,mem_map,mem_countCandidates,identities,Finset.mem_image,
    mem_filter,accepts,Bool.and_eq_true,decide_eq_true_eq]
  constructor
  · rintro ⟨_,⟨d,hd,ha,rfl⟩,rfl⟩
    exact ⟨d,⟨hd,ha⟩,rfl⟩
  · rintro ⟨d,⟨hd,ha⟩,rfl⟩
    exact ⟨_,⟨d,hd,ha,rfl⟩,rfl⟩

mutual
def Node.holds (ds : List Delivery) : Node → Bool
  | .single path key matcher => ds.any fun d => (Node.single path key matcher).accepts d
  | .count path n kind matcher waitpoints =>
    decide (n ≤ ((Node.count path n kind matcher waitpoints).identities kind ds).card)
  | .allOf _ members => !members.isEmpty && membersHold ds members
  | .neverBySignal _ => false

def membersHold (ds : List Delivery) : List Node → Bool
  | [] => true
  | m :: rest => m.holds ds && membersHold ds rest
end

mutual
theorem evaluate_eq_holds (ds : List Delivery) (path : String) (condition : ResumeCondition) :
    evaluate (byWaitpoint ds) condition = (compositeNodeToJson path condition).holds ds := by
  match condition with
  | .single key matcher =>
    rw [Bool.eq_iff_iff]
    simp only [evaluate,compositeNodeToJson,holds,any_eq_true,mem_byWaitpoint,accepts,
      Bool.and_eq_true,decide_eq_true_eq]
    constructor
    · rintro ⟨_,⟨d,hd,hk,rfl⟩,hm⟩
      exact ⟨d,hd,hk.symm,hm⟩
    · rintro ⟨d,hd,hk,hm⟩
      exact ⟨_,⟨d,hd,hk.symm,rfl⟩,hm⟩
  | .operatorOnly => rfl
  | .timeoutOnly => rfl
  | .allOf members =>
    simp only [evaluate,compositeNodeToJson,holds,evaluateMembers_eq_membersHold ds path 0 members]
    cases members <;> rfl
  | .count n kind matcher waitpoints =>
    simp only [evaluate,compositeNodeToJson,holds,distinctCount_eq_identities path n kind]

theorem evaluateMembers_eq_membersHold (ds : List Delivery) (path : String) (i : Nat)
    (members : List ResumeCondition) : evaluateMembers (byWaitpoint ds) members =
      membersHold ds (compositeMembersToJson path i members) := by
  match members with
  | [] => rfl
  | m :: rest =>
    rw [evaluateMembers,compositeMembersToJson,membersHold,evaluate_eq_holds ds (childPath path i) m,
      evaluateMembers_eq_membersHold ds path (i + 1) rest]
end

variable {members : List Node}

private theorem membersHold_iff : membersHold ds members ↔ ∀ m ∈ members, m.holds ds := by
  induction members with
  | nil => simp [membersHold]
  | cons m rest ih => simp [membersHold,ih]

theorem holds_allOf {path : String} :
    (Node.allOf path members).holds ds ↔ members ≠ [] ∧ ∀ m ∈ members, m.holds ds := by
  simp [holds,membersHold_iff]

theorem holds_of_isSingle (hs : x.isSingle) : x.holds ds ↔ ∃ d ∈ ds, x.accepts d := by
  cases x with
  | single => simp [holds]
  | _ => cases hs

variable {ds' : List Delivery}

theorem Node.identities_mono (kind : CountKind) (h : ds ⊆ ds') : x.identities kind ds ⊆ x.identities kind ds' := by
  refine Finset.image_subset_image fun d hd => ?_
  rw [mem_toFinset,mem_filter] at hd ⊢
  exact ⟨h hd.1,hd.2⟩

mutual
theorem holds_mono {ds ds' : List Delivery} (h : ds ⊆ ds') (x : Node) (hx : x.holds ds) : x.holds ds' := by
  match x with
  | .single path key matcher =>
    obtain ⟨d,hd,ha⟩ := (holds_of_isSingle rfl).mp hx
    exact (holds_of_isSingle rfl).mpr ⟨d,h hd,ha⟩
  | .count path n kind matcher waitpoints =>
    simp only [holds,decide_eq_true_eq] at hx ⊢
    exact hx.trans (Finset.card_le_card (identities_mono kind h))
  | .allOf path members =>
    simp only [holds,Bool.and_eq_true] at hx ⊢
    exact ⟨hx.1,membersHold_mono h members hx.2⟩
  | .neverBySignal path => cases hx

theorem membersHold_mono {ds ds' : List Delivery} (h : ds ⊆ ds') (members : List Node)
    (hm : membersHold ds members) : membersHold ds' members := by
  match members with
  | [] => rfl
  | m :: rest =>
    simp only [membersHold,Bool.and_eq_true] at hm ⊢
    exact ⟨holds_mono h m hm.1,membersHold_mono h rest hm.2⟩
end

theorem evaluate_mono {condition : ResumeCondition} (h : ds ⊆ ds')
    (he : evaluate (byWaitpoint ds) condition) : evaluate (byWaitpoint ds') condition := by
  rw [evaluate_eq_holds _ ""] at he ⊢
  exact holds_mono h _ he

variable {kind : CountKind}

theorem card_ownTokens_le
    (keyed : kind = .distinctWaitpoints → ∀ d ∈ ds, ∀ e ∈ ds, d.waitpointKey = e.waitpointKey →
      d.waitpointId = e.waitpointId) : (x.ownTokens kind ds).card ≤ (x.identities kind ds).card := by
  refine card_image_le_of_factors fun d hd e he h => ?_
  rw [mem_toFinset,mem_filter] at hd he
  cases kind with
  | distinctWaitpoints =>
    have hid := keyed rfl d hd.1 e he.1 (congrArg Prod.fst h)
    exact congrArg ("wp:" ++ ·) hid
  | distinctSignals => exact congrArg ("sig:" ++ ·) (congrArg Prod.fst h)
  | distinctSources =>
    have ht : d.signal.sourceType = e.signal.sourceType := congrArg Prod.fst h
    have hi : d.signal.sourceIdentity = e.signal.sourceIdentity := congrArg Prod.snd h
    simp only [Delivery.countToken,countSatisfierToken,ht,hi]

theorem card_identities_le (hk : kind ≠ .distinctSources)
    (keyed : ∀ d ∈ ds, ∀ e ∈ ds, d.waitpointId = e.waitpointId → d.waitpointKey = e.waitpointKey) :
    (x.identities kind ds).card ≤ (x.ownTokens kind ds).card := by
  refine card_image_le_of_factors fun d hd e he h => ?_
  rw [mem_toFinset,mem_filter] at hd he
  cases kind with
  | distinctWaitpoints =>
    have hid : d.waitpointId = e.waitpointId := by simpa [Delivery.countToken,countSatisfierToken] using h
    exact congrArg (·,"") (keyed d hd.1 e he.1 hid)
  | distinctSignals =>
    have hid : d.signal.signalId = e.signal.signalId := by simpa [Delivery.countToken,countSatisfierToken] using h
    exact congrArg (·,"") hid
  | distinctSources => exact (hk rfl).elim

end FlowFabric
