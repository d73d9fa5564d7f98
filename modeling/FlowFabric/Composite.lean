import FlowFabric.Foundation.Label
import FlowFabric.ResumeCondition

/-! The tree of a composite condition: the places of its nodes, and how satisfaction travels
through the tokens that its nodes leave. -/
namespace FlowFabric
open Foundation List Nat

variable {path : String}

private theorem toList_childPath (hp : path ≠ "") (i : Nat) :
    (childPath path i).toList = path.toList ++ (".members[".toList ++ (Nat.toDigits 10 i ++ [']'])) := by
  simp [childPath,hp,String.toList_append,toList_repr,toString]

private theorem toList_childPath_root (i : Nat) :
    '.' :: (childPath "" i).toList = ".members[".toList ++ (Nat.toDigits 10 i ++ [']']) := by
  simp [childPath,String.toList_append,toList_repr,toString]

private theorem childPath_ne_empty (path : String) (i : Nat) : childPath path i ≠ "" := by
  intro h
  by_cases hp : path = ""
  · have hr := toList_childPath_root i
    rw [← hp,h] at hr
    simp at hr
  · have hc := toList_childPath hp i
    rw [h] at hc
    simp at hc

def placePath (path : String) (place : List Nat) : String := place.foldl childPath path

private theorem toList_placePath (hp : path ≠ "") (place : List Nat) : (placePath path place).toList =
      path.toList ++ place.flatMap fun i => ".members[".toList ++ (Nat.toDigits 10 i ++ [']']) := by
  induction place generalizing path with
  | nil => simp [placePath]
  | cons i place ih =>
    have h := ih (childPath_ne_empty path i)
    rw [toList_childPath hp] at h
    simpa [placePath] using h

private theorem placePath_inj {place place' : List Nat} (hp : place ≠ []) (hp' : place' ≠ [])
    (h : placePath "" place = placePath "" place') : place = place' := by
  have written {place : List Nat} (hp : place ≠ []) : '.' :: (placePath "" place).toList =
      place.flatMap fun i => ".members[".toList ++ (Nat.toDigits 10 i ++ [']']) := by
    cases place with
    | nil => exact (hp rfl).elim
    | cons i place =>
      have h := toList_placePath (childPath_ne_empty "" i) place
      rw [flatMap_cons,← toList_childPath_root,cons_append,← h]
      rfl
  have closing : ∀ i, ']' ∉ Nat.toDigits 10 i := notMem_toDigits (by decide)
  refine flatMap_delimited_injective toDigits_injective closing ?_ (w := ".members[".toList)
  dsimp only
  rw [← written hp,← written hp',h]

namespace Node

def members : Node → List Node
  | .allOf _ members => members
  | _ => []

def isSingle : Node → Bool
  | .single .. => true
  | _ => false

inductive Below (root : Node) : Node → Prop
  | child {x : Node} (h : x ∈ root.members) : Below root x
  | step {x y : Node} (hx : Below root x) (h : y ∈ x.members) : Below root y

def at? : Node → List Nat → Option Node
  | x, [] => some x
  | x, i :: place => (x.members[i]?).bind (at? · place)

theorem at?_append (x : Node) (place place' : List Nat) :
    x.at? (place ++ place') = (x.at? place).bind (·.at? place') := by
  induction place generalizing x with
  | nil => rfl
  | cons i place ih =>
    simp only [cons_append,at?,Option.bind_assoc]
    congr 1
    funext y
    exact ih y

theorem Below.place {root x : Node} (h : Below root x) : ∃ place, place ≠ [] ∧ root.at? place = some x := by
  induction h with
  | child h =>
    obtain ⟨i,hi⟩ := mem_iff_getElem?.mp h
    exact ⟨[i],by simp,by simp [at?,hi]⟩
  | step hx h ih =>
    obtain ⟨place,hp,hx⟩ := ih
    obtain ⟨i,hi⟩ := mem_iff_getElem?.mp h
    exact ⟨place ++ [i],by simp,by simp [at?_append,hx,at?,hi]⟩

end Node

open Node

private theorem getElem?_compositeMembersToJson (path : String) (i j : Nat) (members : List ResumeCondition) :
    (compositeMembersToJson path i members)[j]? = members[j]?.map (compositeNodeToJson (childPath path (i + j))) := by
  induction members generalizing i j with
  | nil => simp [compositeMembersToJson]
  | cons m rest ih =>
    cases j with
    | zero => simp [compositeMembersToJson]
    | succ => simp [compositeMembersToJson,ih,add_comm,add_left_comm]

theorem path_at? {condition : ResumeCondition} {place : List Nat} {x : Node}
    (h : (compositeNodeToJson path condition).at? place = some x) : x.path = placePath path place := by
  induction place generalizing path condition with
  | nil =>
    cases h
    cases condition <;> rfl
  | cons i place ih =>
    cases condition with
    | allOf members =>
      simp only [compositeNodeToJson,Node.at?,Node.members,getElem?_compositeMembersToJson,
        Option.bind_eq_some_iff,Option.map_eq_some_iff,zero_add] at h
      obtain ⟨y,⟨m,-,rfl⟩,h⟩ := h
      exact ih h
    | _ => simp [compositeNodeToJson,at?,members] at h

structure Node.Labelled (root : Node) : Prop where
  distinct : ∀ x y, root.Below x → root.Below y → x.path = y.path → x = y
  shallow : ∀ x y z, x ∈ root.members → root.Below y → z ∈ y.members → x.path ≠ z.path

theorem compositeNodeToJson_labelled (condition : ResumeCondition) : (compositeNodeToJson "" condition).Labelled := by
  refine ⟨fun x y hx hy hxy => ?_,fun x y z hx hy hz hxz => ?_⟩
  · obtain ⟨place,hp,hx⟩ := hx.place
    obtain ⟨place',hp',hy⟩ := hy.place
    rw [path_at? hx,path_at? hy] at hxy
    cases placePath_inj hp hp' hxy
    exact Option.some.inj (hx.symm.trans hy)
  · obtain ⟨i,hi⟩ := mem_iff_getElem?.mp hx
    obtain ⟨place,hp,hy⟩ := hy.place
    obtain ⟨j,hj⟩ := mem_iff_getElem?.mp hz
    have hx' : (compositeNodeToJson "" condition).at? [i] = some x := by simp [at?,hi]
    have hz' : (compositeNodeToJson "" condition).at? (place ++ [j]) = some z := by simp [at?_append,hy,at?,hj]
    rw [path_at? hx',path_at? hz'] at hxz
    have h := placePath_inj (by simp) (by simp) hxz
    have hlen := congrArg List.length h
    cases place with
    | nil => exact hp rfl
    | cons => simp at hlen

variable {tokens tokens' : Finset String} {root x : Node}

theorem compositeEvaluateNode_mono (h : tokens ⊆ tokens') (he : compositeEvaluateNode tokens x) :
    compositeEvaluateNode tokens' x := by
  cases x with
  | single =>
    simp only [compositeEvaluateNode,decide_eq_true_eq] at he ⊢
    exact h he
  | allOf =>
    simp only [compositeEvaluateNode,all_eq_true,decide_eq_true_eq] at he ⊢
    exact fun m hm => h (he m hm)
  | count =>
    simp only [compositeEvaluateNode,Bool.or_eq_true,decide_eq_true_eq] at he ⊢
    exact he.imp (fun ht => h ht) fun hn => hn.trans (Finset.card_le_card (Finset.filter_subset_filter _ h))
  | neverBySignal => cases he

/-- The conjunctions whose members a walk looks at: the root, and those that are satisfied. -/
def Node.Walked (root : Node) (tokens : Finset String) (p : Node) : Prop :=
  p = root ∨ (root.Below p ∧ compositeEvaluateNode tokens p)

theorem Node.Walked.below {p : Node} (hp : root.Walked tokens p) (hx : x ∈ p.members) : root.Below x := by
  rcases hp with rfl | hp
  · exact .child hx
  · exact .step hp.1 hx

theorem propagateMembers_cons (tokens : Finset String) (x : Node) (rest : List Node) :
    propagateMembers tokens (x :: rest) = if x.isSingle = false ∧ compositeEvaluateNode tokens x then
        propagateMembers (propagate (insert ("node:" ++ x.path) tokens) x) rest
      else propagateMembers tokens rest := by
  cases x <;> simp [propagateMembers,isSingle]

/-- What the walk does not lose when it records a satisfied member. -/
def Node.KeptByWalk (root : Node) (Good : Finset String → Prop) : Prop :=
  ∀ tokens p x, root.Walked tokens p → x ∈ p.members → x.isSingle = false →
    compositeEvaluateNode tokens x → Good tokens → Good (insert ("node:" ++ x.path) tokens)

mutual
theorem propagate_invariant {Good : Finset String → Prop} {tokens : Finset String}
    (step : root.KeptByWalk Good) (p : Node) (hp : root.Walked tokens p)
    (h : Good tokens) : tokens ⊆ propagate tokens p ∧ Good (propagate tokens p) := by
  match p with
  | .allOf path members => exact propagateMembers_invariant step (.allOf path members) hp members (fun _ hm => hm) h
  | .single .. => exact ⟨subset_rfl,h⟩
  | .count .. => exact ⟨subset_rfl,h⟩
  | .neverBySignal .. => exact ⟨subset_rfl,h⟩

theorem propagateMembers_invariant {Good : Finset String → Prop} {tokens : Finset String}
    (step : root.KeptByWalk Good) (p : Node) (hp : root.Walked tokens p) (members : List Node)
    (hm : ∀ m ∈ members, m ∈ p.members) (h : Good tokens) :
    tokens ⊆ propagateMembers tokens members ∧ Good (propagateMembers tokens members) := by
  match members with
  | [] => exact ⟨subset_rfl,h⟩
  | x :: rest =>
    have hrest : ∀ m ∈ rest, m ∈ p.members := fun m h => hm m (by simp [h])
    rw [propagateMembers_cons]
    split
    · rename_i hx
      have hxp := hm x (by simp)
      have hsub := Finset.subset_insert ("node:" ++ x.path) tokens
      have hinsert := step tokens p x hp hxp hx.1 hx.2 h
      have hwalk : root.Walked (insert ("node:" ++ x.path) tokens) x :=
        .inr ⟨hp.below hxp,compositeEvaluateNode_mono hsub hx.2⟩
      obtain ⟨hsub',hgood⟩ := propagate_invariant step x hwalk hinsert
      have hall := hsub.trans hsub'
      obtain ⟨hsub'',hgood'⟩ := propagateMembers_invariant step p
        (hp.imp_right fun hp => ⟨hp.1,compositeEvaluateNode_mono hall hp.2⟩) rest hrest hgood
      exact ⟨hall.trans hsub'',hgood'⟩
    · exact propagateMembers_invariant step p hp rest hrest h
end

theorem subset_propagateMembers (tokens : Finset String) (members : List Node) :
    tokens ⊆ propagateMembers tokens members :=
  (@propagateMembers_invariant (.allOf "" members) (fun _ => True) tokens (fun _ _ _ _ _ _ _ _ => trivial)
    (.allOf "" members) (.inl rfl) members (fun _ hm => hm) trivial).1

theorem subset_propagate (tokens : Finset String) (root : Node) : tokens ⊆ propagate tokens root := by
  cases root with
  | allOf path members => exact subset_propagateMembers tokens members
  | _ => exact subset_rfl

theorem mem_propagate_of_member (hx : x ∈ root.members) (hs : x.isSingle = false)
    (he : compositeEvaluateNode tokens x) : "node:" ++ x.path ∈ propagate tokens root := by
  cases root with
  | allOf path members =>
    simp only [propagate]
    induction members generalizing tokens with
    | nil => cases hx
    | cons y rest ih =>
      rw [propagateMembers_cons]
      rcases mem_cons.mp hx with rfl | hx
      · rw [if_pos ⟨hs,he⟩]
        exact subset_propagateMembers _ _ (subset_propagate _ _ (Finset.mem_insert_self _ _))
      · split
        · exact ih (compositeEvaluateNode_mono ((Finset.subset_insert _ _).trans (subset_propagate _ _)) he) hx
        · exact ih he hx
  | _ => cases hx

def Node.Within (root x : Node) : Prop := x = root ∨ root.Below x

theorem Node.Below.trans {y : Node} (hx : root.Below x) (hy : x.Below y) : root.Below y := by
  induction hy with
  | child h => exact .step hx h
  | step _ h ih => exact .step ih h

theorem Node.below_iff : root.Below x ↔ ∃ m ∈ root.members, m.Within x := by
  constructor
  · intro h
    induction h with
    | child h => exact ⟨_,h,.inl rfl⟩
    | step _ h ih =>
      obtain ⟨m,hm,rfl | hb⟩ := ih
      · exact ⟨_,hm,.inr (.child h)⟩
      · exact ⟨m,hm,.inr (.step hb h)⟩
  · rintro ⟨m,hm,rfl | hb⟩
    · exact .child hm
    · exact (Below.child hm).trans hb

theorem Node.within_leaf (h : root.members = []) : root.Within x ↔ x = root := by
  refine or_iff_left fun hb => ?_
  obtain ⟨m,hm,-⟩ := below_iff.mp hb
  simp [h] at hm

def Node.listens (waitpointKey : String) : Node → Bool
  | .single _ key _ => decide (key = waitpointKey)
  | .count _ _ _ _ waitpoints => decide (waitpointKey ∈ waitpoints)
  | .allOf _ _ | .neverBySignal _ => false

theorem mem_leaf {waitpointKey : String} {p : Prop} [Decidable p] (hm : root.members = [])
    (hl : root.listens waitpointKey ↔ p) : x ∈ (if p then [root] else []) ↔ root.Within x ∧ x.listens waitpointKey := by
  rw [within_leaf hm]
  by_cases hp : p
  · rw [if_pos hp,mem_singleton]
    exact ⟨fun h => ⟨h,h ▸ hl.mpr hp⟩,And.left⟩
  · simp only [if_neg hp,not_mem_nil,false_iff,not_and]
    rintro rfl
    exact hl.not.mpr hp

mutual
theorem mem_collect (waitpointKey : String) (root x : Node) :
    x ∈ compositeCollectCandidateNodes waitpointKey root ↔ root.Within x ∧ x.listens waitpointKey := by
  match root with
  | .single path key matcher | .count path n kind matcher waitpoints =>
    rw [compositeCollectCandidateNodes]
    exact mem_leaf rfl decide_eq_true_iff
  | .allOf path members =>
    rw [compositeCollectCandidateNodes,mem_collectMembers waitpointKey members x]
    constructor
    · rintro ⟨m,hm,hx,hl⟩
      exact ⟨.inr (below_iff.mpr ⟨m,hm,hx⟩),hl⟩
    · rintro ⟨rfl | hx,hl⟩
      · cases hl
      · obtain ⟨m,hm,hx⟩ := below_iff.mp hx
        exact ⟨m,hm,hx,hl⟩
  | .neverBySignal path =>
    rw [within_leaf rfl]
    simp only [compositeCollectCandidateNodes,not_mem_nil,false_iff,not_and]
    rintro rfl
    simp [listens]

theorem mem_collectMembers (waitpointKey : String) (members : List Node) (x : Node) :
    x ∈ collectMembers waitpointKey members ↔ ∃ m ∈ members, m.Within x ∧ x.listens waitpointKey := by
  match members with
  | [] => simp [collectMembers]
  | m :: rest => simp [collectMembers,mem_collect waitpointKey m x,mem_collectMembers waitpointKey rest x]
end

def Node.proper : Node → Bool
  | .allOf _ members => !members.isEmpty
  | .count _ n _ _ _ => decide (n ≠ 0)
  | .single .. | .neverBySignal _ => true

mutual
theorem validateBody_proper {depth : Nat} {place path : String} (condition : ResumeCondition)
    (h : validateBody depth place condition = .ok ()) {x : Node}
    (hx : (compositeNodeToJson path condition).Within x) : x.proper := by
  match condition with
  | .single key matcher =>
    rw [(within_leaf rfl).mp hx]
    rfl
  | .operatorOnly =>
    rw [(within_leaf rfl).mp hx]
    rfl
  | .timeoutOnly =>
    rw [(within_leaf rfl).mp hx]
    rfl
  | .count n kind matcher waitpoints =>
    simp only [validateBody,bind_ok,ensure_ok] at h
    obtain ⟨_,-,_,hn,-⟩ := h
    rw [(within_leaf rfl).mp hx]
    simpa [compositeNodeToJson,proper] using hn
  | .allOf members =>
    simp only [validateBody,bind_ok,ensure_ok] at h
    obtain ⟨_,-,_,hm,h⟩ := h
    rcases hx with rfl | hx
    · cases members with
      | nil => cases hm
      | cons => rfl
    · obtain ⟨m,hm,hx⟩ := below_iff.mp hx
      exact validateMembers_proper members h hm hx

theorem validateMembers_proper {depth i j : Nat} {place path : String} (members : List ResumeCondition)
    (h : validateMembers depth place i members = .ok ()) {m x : Node}
    (hm : m ∈ compositeMembersToJson path j members) (hx : m.Within x) : x.proper := by
  match members with
  | [] => cases hm
  | c :: rest =>
    simp only [validateMembers,bind_ok] at h
    obtain ⟨_,hc,hrest⟩ := h
    rcases mem_cons.mp hm with rfl | hm
    · exact validateBody_proper c hc hx
    · exact validateMembers_proper rest hrest hm hx
end

end FlowFabric
