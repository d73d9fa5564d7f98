import FlowFabric.Meaning

/-! Whether signals to the waitpoints of an accepted request can meet its condition. -/
namespace FlowFabric
open Foundation List

mutual
/-- The reference meaning as it is computed: what a count tells apart is numbered by a u32. -/
def evaluateU32 (byWp : SignalsByWaitpoint) : ResumeCondition → Bool
  | .single waitpointKey matcher => (byWp waitpointKey).any (matcherMatches matcher)
  | .operatorOnly | .timeoutOnly => false
  | .allOf members => !members.isEmpty && evaluateMembersU32 byWp members
  | .count n countKind matcher waitpoints =>
    decide (n ≤ distinctCount countKind (countCandidates byWp matcher waitpoints) % 2 ^ 32)

def evaluateMembersU32 (byWp : SignalsByWaitpoint) : List ResumeCondition → Bool
  | [] => true
  | m :: rest => evaluateU32 byWp m && evaluateMembersU32 byWp rest
end

/-- The waitpoint of a binding. The key of a pending one is in its record. -/
def WaitpointBinding.waitpoint (pendingKey : String → String) : WaitpointBinding → String × String
  | .fresh waitpointId waitpointKey => (waitpointId,waitpointKey)
  | .usePending waitpointId => (waitpointId,pendingKey waitpointId)

def SuspendRequest.boundKeys (pendingKey : String → String) (r : SuspendRequest) : List String :=
  r.waitpoints.map fun b => (b.waitpoint pendingKey).2

def Delivery.To (pendingKey : String → String) (r : SuspendRequest) (d : Delivery) : Prop :=
  (d.waitpointId,d.waitpointKey) ∈ r.waitpoints.map (·.waitpoint pendingKey)

mutual
/-- The keys a condition depends on are bound: that of every leaf, one of every count of signals or
sources, and as many different ones of every count of waitpoints as it asks for. -/
def ResumeCondition.metBy (bound : List String) : ResumeCondition → Bool
  | .single waitpointKey _ => decide (waitpointKey ∈ bound)
  | .operatorOnly | .timeoutOnly => false
  | .allOf members => membersMetBy bound members
  | .count n .distinctWaitpoints _ waitpoints => decide (n ≤ (waitpoints.filter (· ∈ bound)).toFinset.card)
  | .count _ .distinctSignals _ waitpoints | .count _ .distinctSources _ waitpoints => waitpoints.any (· ∈ bound)

def membersMetBy (bound : List String) : List ResumeCondition → Bool
  | [] => true
  | m :: rest => m.metBy bound && membersMetBy bound rest
end

section
variable {ds : List Delivery} {kind : CountKind} {matcher : Option SignalMatcher} {waitpoints : List String}

theorem card_le_distinctCount {β : Type} {s : Finset β} {f : β → Delivery}
    (taken : ∀ b ∈ s, f b ∈ ds ∧ (f b).waitpointKey ∈ waitpoints ∧ matcher.all (matcherMatches · (f b).signal))
    (apart : Set.InjOn (fun b => (f b).identity kind) s) :
    s.card ≤ distinctCount kind (countCandidates (byWaitpoint ds) matcher waitpoints) := by
  rw [distinctCount_eq]
  refine Finset.card_le_card_of_injOn (fun b => (f b).identity kind) ?_ apart
  intro b hb
  obtain ⟨mem,key,name⟩ := taken b hb
  rw [Finset.mem_coe,mem_toFinset,mem_map]
  exact ⟨_,mem_countCandidates.mpr ⟨f b,mem,⟨key,name⟩,rfl⟩,rfl⟩

private theorem distinctCount_le_length :
    distinctCount kind (countCandidates (byWaitpoint ds) matcher waitpoints) ≤ ds.length := by
  rw [distinctCount_eq_identities "" 0]
  calc (Node.identities kind ds _).card
      ≤ (ds.filter _).toFinset.card := Finset.card_image_le
    _ ≤ (ds.filter _).length := toFinset_card_le _
    _ ≤ ds.length := length_filter_le _ _

end

variable {members : List ResumeCondition} {byWp : SignalsByWaitpoint}

private theorem evaluateMembers_iff : evaluateMembers byWp members = true ↔ ∀ m ∈ members, evaluate byWp m = true := by
  induction members with
  | nil => simp [evaluateMembers]
  | cons m rest ih => simp [evaluateMembers,ih]

private theorem evaluate_allOf :
    evaluate byWp (.allOf members) = true ↔ members ≠ [] ∧ ∀ m ∈ members, evaluate byWp m = true := by
  simp [evaluate,evaluateMembers_iff]

mutual
private theorem evaluateU32_eq {ds : List Delivery} (few : ds.length < 2 ^ 32) (condition : ResumeCondition) :
    evaluateU32 (byWaitpoint ds) condition = evaluate (byWaitpoint ds) condition := by
  match condition with
  | .single waitpointKey matcher => rfl
  | .operatorOnly => rfl
  | .timeoutOnly => rfl
  | .allOf members => rw [evaluateU32,evaluate,evaluateMembersU32_eq few members]
  | .count n kind matcher waitpoints =>
    have small : distinctCount kind (countCandidates (byWaitpoint ds) matcher waitpoints) < 2 ^ 32 :=
      Nat.lt_of_le_of_lt distinctCount_le_length few
    rw [evaluateU32,evaluate,Nat.mod_eq_of_lt small]

private theorem evaluateMembersU32_eq {ds : List Delivery} (few : ds.length < 2 ^ 32) (members : List ResumeCondition) :
    evaluateMembersU32 (byWaitpoint ds) members = evaluateMembers (byWaitpoint ds) members := by
  match members with
  | [] => rfl
  | m :: rest => rw [evaluateMembersU32,evaluateMembers,evaluateU32_eq few m,evaluateMembersU32_eq few rest]
end

/-- A numbered signal that the matcher takes, from a source of its own. -/
def sampleSignal (matcher : Option SignalMatcher) (i : Nat) : Signal where
  signalId := toString i
  signalName :=
    match matcher with
    | some (.byName name) => name
    | some .wildcard | none => ""
  sourceType := ""
  sourceIdentity := toString i

theorem sampleSignal_matches (matcher : Option SignalMatcher) (i : Nat) :
    matcher.all (matcherMatches · (sampleSignal matcher i)) = true := by
  rcases matcher with _ | (name | _)
  · rfl
  · simp [matcherMatches,sampleSignal]
  · rfl

section
variable {pendingKey : String → String} {r : SuspendRequest}

theorem exists_to {key : String} (h : key ∈ r.boundKeys pendingKey) :
    ∃ waitpointId, ∀ signal, (⟨waitpointId,key,signal⟩ : Delivery).To pendingKey r := by
  obtain ⟨b,hb,rfl⟩ := mem_map.mp h
  exact ⟨_,fun _ => mem_map.mpr ⟨b,hb,rfl⟩⟩

theorem Delivery.To.bound {d : Delivery} (h : d.To pendingKey r) : d.waitpointKey ∈ r.boundKeys pendingKey := by
  obtain ⟨b,hb,eq⟩ := mem_map.mp h
  exact mem_map.mpr ⟨b,hb,congrArg Prod.snd eq⟩

variable {waitpoints : List String} {kind : CountKind}

private theorem exists_count {n : Nat} (hk : kind ≠ .distinctWaitpoints) (matcher : Option SignalMatcher)
    (h : waitpoints.any (· ∈ r.boundKeys pendingKey) = true) : ∃ ds : List Delivery, (∀ d ∈ ds, d.To pendingKey r) ∧
      n ≤ distinctCount kind (countCandidates (byWaitpoint ds) matcher waitpoints) := by
  obtain ⟨key,mem,bound⟩ := any_eq_true.mp h
  obtain ⟨waitpointId,sent⟩ := exists_to (of_decide_eq_true bound)
  refine ⟨(List.range n).map fun i => ⟨waitpointId,key,sampleSignal matcher i⟩,?_,?_⟩
  · simp only [forall_mem_map]
    exact fun i _ => sent _
  · refine (Finset.card_range n).symm.trans_le ?_
    apply card_le_distinctCount (f := fun i => ⟨waitpointId,key,sampleSignal matcher i⟩)
    · intro i hi
      refine ⟨mem_map.mpr ⟨i,mem_range.mpr (Finset.mem_range.mp hi),rfl⟩,mem,sampleSignal_matches matcher i⟩
    · intro i _ j _ same
      cases kind with
      | distinctWaitpoints => exact absurd rfl hk
      | distinctSignals => exact toString_injective (congrArg Prod.fst same)
      | distinctSources => exact toString_injective (congrArg Prod.snd same)

private theorem exists_countWaitpoints (matcher : Option SignalMatcher) (waitpoints : List String) :
    ∃ ds : List Delivery, (∀ d ∈ ds, d.To pendingKey r) ∧
      (waitpoints.filter (· ∈ r.boundKeys pendingKey)).toFinset.card ≤
        distinctCount .distinctWaitpoints (countCandidates (byWaitpoint ds) matcher waitpoints) := by
  have choice (key : String) : ∃ waitpointId, key ∈ r.boundKeys pendingKey →
      ∀ signal, (⟨waitpointId,key,signal⟩ : Delivery).To pendingKey r := by
    by_cases h : key ∈ r.boundKeys pendingKey
    · obtain ⟨waitpointId,sent⟩ := exists_to h
      exact ⟨waitpointId,fun _ => sent⟩
    · exact ⟨"",fun bound => absurd bound h⟩
  choose waitpointId sent using choice
  refine ⟨(waitpoints.filter (· ∈ r.boundKeys pendingKey)).map fun key =>
    ⟨waitpointId key,key,sampleSignal matcher 0⟩,?_,?_⟩
  · simp only [forall_mem_map,mem_filter,decide_eq_true_eq]
    exact fun key h => sent key h.2 _
  · apply card_le_distinctCount (f := fun key => ⟨waitpointId key,key,sampleSignal matcher 0⟩)
    · intro key h
      rw [mem_toFinset] at h
      exact ⟨mem_map.mpr ⟨key,h,rfl⟩,(mem_filter.mp h).1,sampleSignal_matches matcher 0⟩
    · intro key _ key' _ same
      exact congrArg Prod.fst same

mutual
theorem exists_evaluate {depth : Nat} {path : String} (condition : ResumeCondition)
    (valid : validateBody depth path condition = .ok ()) (met : condition.metBy (r.boundKeys pendingKey) = true) :
    ∃ ds : List Delivery, (∀ d ∈ ds, d.To pendingKey r) ∧ evaluate (byWaitpoint ds) condition = true := by
  match condition with
  | .single waitpointKey matcher =>
    obtain ⟨waitpointId,sent⟩ := exists_to (of_decide_eq_true met)
    refine ⟨[⟨waitpointId,waitpointKey,sampleSignal (some matcher) 0⟩],?_,?_⟩
    · simpa using sent _
    · simpa [evaluate,byWaitpoint] using sampleSignal_matches (some matcher) 0
  | .operatorOnly => cases met
  | .timeoutOnly => cases met
  | .allOf members =>
    simp only [validateBody,bind_ok,ensure_ok] at valid
    obtain ⟨_,-,_,nonempty,valid⟩ := valid
    obtain ⟨ds,sent,holds⟩ := exists_evaluateMembers members valid met
    exact ⟨ds,sent,evaluate_allOf.mpr ⟨by simpa using nonempty,holds⟩⟩
  | .count n .distinctWaitpoints matcher waitpoints =>
    obtain ⟨ds,sent,enough⟩ := exists_countWaitpoints matcher waitpoints
    exact ⟨ds,sent,decide_eq_true ((of_decide_eq_true met).trans enough)⟩
  | .count n .distinctSignals matcher waitpoints =>
    obtain ⟨ds,sent,enough⟩ := exists_count (show .distinctSignals ≠ CountKind.distinctWaitpoints by decide) matcher met
    exact ⟨ds,sent,decide_eq_true enough⟩
  | .count n .distinctSources matcher waitpoints =>
    obtain ⟨ds,sent,enough⟩ := exists_count (show .distinctSources ≠ CountKind.distinctWaitpoints by decide) matcher met
    exact ⟨ds,sent,decide_eq_true enough⟩

theorem exists_evaluateMembers {depth i : Nat} {path : String} (members : List ResumeCondition)
    (valid : validateMembers depth path i members = .ok ()) (met : membersMetBy (r.boundKeys pendingKey) members = true) :
    ∃ ds : List Delivery, (∀ d ∈ ds, d.To pendingKey r) ∧ ∀ m ∈ members, evaluate (byWaitpoint ds) m = true := by
  match members with
  | [] => exact ⟨[],by simp,by simp⟩
  | m :: rest =>
    simp only [validateMembers,bind_ok] at valid
    obtain ⟨_,first,valid⟩ := valid
    rw [membersMetBy,Bool.and_eq_true] at met
    obtain ⟨ds,sent,holds⟩ := exists_evaluate m first met.1
    obtain ⟨ds',sent',holds'⟩ := exists_evaluateMembers rest valid met.2
    -- Signals that meet one member do no harm to another.
    refine ⟨ds ++ ds',?_,?_⟩
    · simpa [or_imp,forall_and] using ⟨sent,sent'⟩
    · rw [forall_mem_cons]
      exact ⟨evaluate_mono (by simp) holds,fun m hm => evaluate_mono (by simp) (holds' m hm)⟩
end

theorem any_of_count {depth n : Nat} {path : String} {matcher : Option SignalMatcher}
    {ds : List Delivery} (sent : ∀ d ∈ ds, d.To pendingKey r)
    (valid : validateBody depth path (.count n kind matcher waitpoints) = .ok ())
    (holds : evaluate (byWaitpoint ds) (.count n kind matcher waitpoints) = true) :
    waitpoints.any (· ∈ r.boundKeys pendingKey) = true := by
  simp only [validateBody,bind_ok,ensure_ok] at valid
  have enough : n ≤ distinctCount kind (countCandidates (byWaitpoint ds) matcher waitpoints) := of_decide_eq_true holds
  rw [distinctCount_eq] at enough
  have pos : 0 < ((countCandidates (byWaitpoint ds) matcher waitpoints).map kind.identity).toFinset.card := by omega
  obtain ⟨_,hc⟩ := Finset.card_pos.mp pos
  obtain ⟨c,hc,-⟩ := mem_map.mp (mem_toFinset.mp hc)
  obtain ⟨d,hd,⟨key,-⟩,-⟩ := mem_countCandidates.mp hc
  exact any_eq_true.mpr ⟨_,key,decide_eq_true (sent d hd).bound⟩

mutual
theorem metBy_of_evaluate {depth : Nat} {path : String} {ds : List Delivery} (sent : ∀ d ∈ ds, d.To pendingKey r)
    (condition : ResumeCondition) (valid : validateBody depth path condition = .ok ())
    (holds : evaluate (byWaitpoint ds) condition = true) : condition.metBy (r.boundKeys pendingKey) = true := by
  match condition with
  | .single waitpointKey matcher =>
    obtain ⟨signal,mem,-⟩ := any_eq_true.mp holds
    obtain ⟨d,hd,rfl,-⟩ := mem_byWaitpoint.mp mem
    exact decide_eq_true (sent d hd).bound
  | .operatorOnly => cases holds
  | .timeoutOnly => cases holds
  | .allOf members =>
    simp only [validateBody,bind_ok,ensure_ok] at valid
    obtain ⟨_,-,_,-,valid⟩ := valid
    exact membersMetBy_of_evaluate sent members valid (evaluate_allOf.mp holds).2
  | .count n .distinctWaitpoints matcher waitpoints =>
    have enough := of_decide_eq_true holds
    refine decide_eq_true (enough.trans ?_)
    refine Finset.card_le_card ?_
    intro key hk
    rw [mem_toFinset,mem_map] at hk
    obtain ⟨c,hc,rfl⟩ := hk
    obtain ⟨d,hd,⟨key,-⟩,rfl⟩ := mem_countCandidates.mp hc
    rw [mem_toFinset,mem_filter]
    exact ⟨key,decide_eq_true (sent d hd).bound⟩
  | .count n .distinctSignals matcher waitpoints => exact any_of_count sent valid holds
  | .count n .distinctSources matcher waitpoints => exact any_of_count sent valid holds

theorem membersMetBy_of_evaluate {depth i : Nat} {path : String} {ds : List Delivery}
    (sent : ∀ d ∈ ds, d.To pendingKey r)
    (members : List ResumeCondition) (valid : validateMembers depth path i members = .ok ())
    (holds : ∀ m ∈ members, evaluate (byWaitpoint ds) m = true) : membersMetBy (r.boundKeys pendingKey) members = true := by
  match members with
  | [] => rfl
  | m :: rest =>
    simp only [validateMembers,bind_ok] at valid
    obtain ⟨_,first,valid⟩ := valid
    rw [forall_mem_cons] at holds
    rw [membersMetBy,Bool.and_eq_true]
    exact ⟨metBy_of_evaluate sent m first holds.1,membersMetBy_of_evaluate sent rest valid holds.2⟩
end

end

theorem validateComposite_of_accepted {r : SuspendRequest} (accepted : validateSuspendArgs r = .ok ()) :
    validateBody 1 "" r.resumeCondition = .ok () := by
  simp only [validateSuspendArgs,bind_ok] at accepted
  obtain ⟨_,-,_,-,_,-,_,-,_,-,_,-,valid⟩ := accepted
  exact valid

/-- The condition of an accepted request is met by some signals to its waitpoints exactly when the keys
that it depends on are bound. Once met it stays met. And the evaluator computes this meaning as long as
fewer than 2^32 signals are sent. -/
theorem accepted_condition_meetable_iff (pendingKey : String → String) (r : SuspendRequest)
    (accepted : validateSuspendArgs r = .ok ()) :
    ((∃ ds : List Delivery, (∀ d ∈ ds, d.To pendingKey r) ∧ evaluate (byWaitpoint ds) r.resumeCondition = true) ↔
      r.resumeCondition.metBy (r.boundKeys pendingKey) = true) ∧
    (∀ ds more : List Delivery, evaluate (byWaitpoint ds) r.resumeCondition = true →
      evaluate (byWaitpoint (ds ++ more)) r.resumeCondition = true) ∧ ∀ ds : List Delivery, ds.length < 2 ^ 32 →
      evaluateU32 (byWaitpoint ds) r.resumeCondition = evaluate (byWaitpoint ds) r.resumeCondition := by
  have valid := validateComposite_of_accepted accepted
  refine ⟨⟨?_,exists_evaluate _ valid⟩,?_,?_⟩
  · rintro ⟨ds,sent,holds⟩
    exact metBy_of_evaluate sent _ valid holds
  · intro ds more holds
    exact evaluate_mono (by simp) holds
  · intro ds few
    exact evaluateU32_eq few _

namespace Client

def onOne (resumeCondition : ResumeCondition) : SuspendRequest where
  suspensionId := "s"
  waitpoints := [.fresh "w" "a"]
  resumeCondition
  now := 0

theorem one_approval_is_enough : validateSuspendArgs (onOne (.count 1 .distinctSources none ["a"])) = .ok () ∧
      ∃ ds : List Delivery, (∀ d ∈ ds, d.To id (onOne (.count 1 .distinctSources none ["a"]))) ∧
        evaluate (byWaitpoint ds) (.count 1 .distinctSources none ["a"]) = true :=
  ⟨rfl,(accepted_condition_meetable_iff id (onOne (.count 1 .distinctSources none ["a"])) rfl).1.mpr (by decide)⟩

/-- So many signals to the waitpoint, each with an id of its own. -/
def numbered (n : Nat) : List Delivery := (List.range n).map fun i => ⟨"w","a",sampleSignal none i⟩

theorem distinctCount_numbered (n : Nat) :
    distinctCount .distinctSignals (countCandidates (byWaitpoint (numbered n)) none ["a"]) = n := by
  apply le_antisymm
  · refine distinctCount_le_length.trans ?_
    simp [numbered]
  · refine (Finset.card_range n).symm.trans_le ?_
    apply card_le_distinctCount (f := fun i => ⟨"w","a",sampleSignal none i⟩)
    · intro i hi
      exact ⟨mem_map.mpr ⟨i,mem_range.mpr (Finset.mem_range.mp hi),rfl⟩,by simp,rfl⟩
    · intro i _ j _ same
      exact toString_injective (congrArg Prod.fst same)

/-- Accepted conditions that no signal meets: a waitpoint that is to count twice, and a leaf whose key
is not bound. And one that is met and then is not, when the signals are 2^32. -/
theorem accepted_and_never_met :
    let twice := ResumeCondition.count 2 .distinctWaitpoints none ["a","a"]
    let unbound := ResumeCondition.allOf [.single "b" .wildcard]
    let once := ResumeCondition.count 1 .distinctSignals none ["a"]
    (validateSuspendArgs (onOne twice) = .ok () ∧
      ∀ ds : List Delivery, (∀ d ∈ ds, d.To id (onOne twice)) → evaluate (byWaitpoint ds) twice = false) ∧
    (validateSuspendArgs (onOne unbound) = .ok () ∧
      ∀ ds : List Delivery, (∀ d ∈ ds, d.To id (onOne unbound)) → evaluate (byWaitpoint ds) unbound = false) ∧
    validateSuspendArgs (onOne once) = .ok () ∧ evaluateU32 (byWaitpoint (numbered 1)) once = true ∧
      ∃ more, evaluateU32 (byWaitpoint (numbered 1 ++ more)) once = false := by
  intro twice unbound once
  have never (c : ResumeCondition) (accepted : validateSuspendArgs (onOne c) = .ok ())
      (unmet : c.metBy ["a"] = false) (ds : List Delivery) (sent : ∀ d ∈ ds, d.To id (onOne c)) :
      evaluate (byWaitpoint ds) c = false := by
    by_contra holds
    rw [Bool.not_eq_false] at holds
    have met := metBy_of_evaluate sent c (validateComposite_of_accepted accepted) holds
    change c.metBy ["a"] = true at met
    rw [unmet] at met
    cases met
  refine ⟨⟨rfl,never _ rfl (by decide)⟩,⟨rfl,never _ rfl (by decide)⟩,rfl,?_,?_⟩
  · rw [evaluateU32,distinctCount_numbered]
    rfl
  · refine ⟨(List.range (2 ^ 32 - 1)).map fun i => ⟨"w","a",sampleSignal none (1 + i)⟩,?_⟩
    have all : numbered 1 ++ (List.range (2 ^ 32 - 1)).map (fun i => ⟨"w","a",sampleSignal none (1 + i)⟩) =
        numbered (1 + (2 ^ 32 - 1)) := by
      rw [numbered,numbered,range_add,map_append,map_map]
      rfl
    rw [all,evaluateU32,distinctCount_numbered]
    rfl

end Client

end FlowFabric
