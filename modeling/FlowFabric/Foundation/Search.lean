import Mathlib.Data.Set.Finite.Basic

/-! Breadth-first search with a limit on the visited nodes, and graphs that grow by one edge
at a time without a cycle. -/
namespace FlowFabric.Foundation
open List
variable {α : Type}

section Search
variable [DecidableEq α] (succ : α → List α) (target : α) (limit : Nat)

/-- One pass over the queue. The next queue is collected; nothing is left to do once the target
is met or the limit is passed. -/
def scan : Finset α → Nat → List α → List α → Option (Finset α × Nat × List α)
  | visited, count, nextQueue, [] => some (visited,count,nextQueue)
  | visited, count, nextQueue, x :: queue =>
    if x = target then none
    else if x ∈ visited then scan visited count nextQueue queue
    else if limit < count + 1 then none
    else
      scan (insert x visited) (count + 1) (nextQueue ++ (succ x).filter fun y => y ∉ insert x visited) queue

/-- Pass after pass, until the queue is empty. -/
def search : Nat → Finset α → Nat → List α → Bool
  | _, _, _, [] => false
  | 0, _, _, _ :: _ => true
  | fuel + 1, visited, count, x :: queue =>
    match scan succ target limit visited count [] (x :: queue) with
    | none => true
    | some (visited,count,nextQueue) => search fuel visited count nextQueue

/-- The same passes, with no answer where the fuel does not suffice. -/
def searchWithin : Nat → Finset α → Nat → List α → Option Bool
  | _, _, _, [] => some false
  | 0, _, _, _ :: _ => none
  | fuel + 1, visited, count, x :: queue =>
    match scan succ target limit visited count [] (x :: queue) with
    | none => some true
    | some (visited,count,nextQueue) => searchWithin fuel visited count nextQueue

/-- The members of the set lead nowhere but to members, and the target is not among them. -/
structure Avoids (members : Finset α) : Prop where
  closed : ∀ x ∈ members, ∀ y ∈ succ x, y ∈ members
  target : target ∉ members

variable {succ target limit} {visited visited' members : Finset α} {count count' : Nat}
  {queue nextQueue nextQueue' : List α} {fuel : Nat} {x : α}

structure Explored (succ : α → List α) (target : α) (limit : Nat) (visited : Finset α) (count : Nat)
    (ahead : List α) : Prop where
  counted : count = visited.card
  bounded : count ≤ limit
  missed : target ∉ visited
  leads : ∀ x ∈ visited, ∀ y ∈ succ x, y ∈ visited ∨ y ∈ ahead

omit [DecidableEq α] in
theorem Explored.skip (h : Explored succ target limit visited count (nextQueue ++ x :: queue))
    (hx : x ∈ visited) : Explored succ target limit visited count (nextQueue ++ queue) := by
  refine ⟨h.counted,h.bounded,h.missed,fun z hz y hy => ?_⟩
  obtain hv | ha := h.leads z hz y hy
  · exact .inl hv
  · simp only [mem_append,mem_cons] at ha ⊢
    obtain ha | rfl | ha := ha
    · exact .inr (.inl ha)
    · exact .inl hx
    · exact .inr (.inr ha)

theorem Explored.visit (h : Explored succ target limit visited count (nextQueue ++ x :: queue))
    (hx : x ∉ visited) (ht : x ≠ target) (hl : ¬ limit < count + 1) :
    Explored succ target limit (insert x visited) (count + 1)
      (nextQueue ++ (succ x).filter (fun y => y ∉ insert x visited) ++ queue) := by
  refine ⟨?_,not_lt.mp hl,?_,fun z hz y hy => ?_⟩
  · rw [Finset.card_insert_of_notMem hx,h.counted]
  · simp [h.missed,ht.symm]
  · by_cases hyv : y ∈ insert x visited
    · exact .inl hyv
    · right
      simp only [mem_append,mem_filter,decide_eq_true_eq]
      obtain rfl | hz := Finset.mem_insert.mp hz
      · exact .inl (.inr ⟨hy,hyv⟩)
      · obtain hv | ha := h.leads z hz y hy
        · exact absurd (Finset.mem_insert_of_mem hv) hyv
        · simp only [mem_append,mem_cons] at ha
          obtain ha | rfl | ha := ha
          · exact .inl (.inl ha)
          · exact absurd (Finset.mem_insert_self y visited) hyv
          · exact .inr ha

private theorem scan_explored (h : Explored succ target limit visited count (nextQueue ++ queue))
    (hs : scan succ target limit visited count nextQueue queue = some (visited',count',nextQueue')) :
    Explored succ target limit visited' count' nextQueue' ∧ visited ⊆ visited' ∧ ∀ x ∈ queue, x ∈ visited' := by
  induction queue generalizing visited count nextQueue with
  | nil =>
    cases hs
    exact ⟨by simpa using h,Finset.Subset.refl _,by simp⟩
  | cons x queue ih =>
    unfold scan at hs
    split at hs
    · cases hs
    · rename_i ht
      split at hs
      · rename_i hx
        obtain ⟨he,hsub,hq⟩ := ih (h.skip hx) hs
        exact ⟨he,hsub,by simpa using ⟨hsub hx,hq⟩⟩
      · rename_i hx
        split at hs
        · cases hs
        · rename_i hl
          obtain ⟨he,hsub,hq⟩ := ih (h.visit hx ht hl) hs
          refine ⟨he,(Finset.subset_insert x visited).trans hsub,?_⟩
          simpa using ⟨hsub (Finset.mem_insert_self x visited),hq⟩

omit [DecidableEq α] in
theorem Explored.avoids (h : Explored succ target limit visited count []) :
    Avoids succ target visited ∧ visited.card ≤ limit :=
  ⟨⟨fun x hx y hy => by simpa using h.leads x hx y hy,h.missed⟩,h.counted ▸ h.bounded⟩

private theorem avoids_of_search (h : Explored succ target limit visited count queue)
    (hs : search succ target limit fuel visited count queue = false) :
    ∃ members, Avoids succ target members ∧ visited ⊆ members ∧ (∀ x ∈ queue, x ∈ members) ∧ members.card ≤ limit := by
  induction fuel generalizing visited count queue with
  | zero =>
    cases queue with
    | cons => cases hs
    | nil => exact ⟨visited,h.avoids.1,Finset.Subset.refl _,by simp,h.avoids.2⟩
  | succ fuel ih =>
    cases queue with
    | nil => exact ⟨visited,h.avoids.1,Finset.Subset.refl _,by simp,h.avoids.2⟩
    | cons x queue =>
      unfold search at hs
      split at hs
      · cases hs
      · rename_i visited' count' nextQueue' hscan
        obtain ⟨he,hsub,hq⟩ := scan_explored h hscan
        obtain ⟨members,havoid,hsub',-,hcard⟩ := ih he hs
        exact ⟨members,havoid,hsub.trans hsub',fun x hx => hsub' (hq x hx),hcard⟩

structure Inside (members visited : Finset α) (count : Nat) (ahead : List α) : Prop where
  counted : count = visited.card
  visited : visited ⊆ members
  ahead : ∀ x ∈ ahead, x ∈ members

theorem scan_inside (ha : Avoids succ target members) (hl : members.card ≤ limit)
    (h : Inside members visited count (nextQueue ++ queue)) :
    ∃ visited' count' nextQueue', scan succ target limit visited count nextQueue queue =
        some (visited',count',nextQueue') ∧ Inside members visited' count' nextQueue' ∧ count ≤ count' ∧
      (count' = count → nextQueue' = nextQueue) := by
  induction queue generalizing visited count nextQueue with
  | nil => exact ⟨visited,count,nextQueue,rfl,by simpa using h,le_rfl,fun _ => rfl⟩
  | cons x queue ih =>
    have hx : x ∈ members := h.ahead x (by simp)
    have ht : x ≠ target := fun hx' => ha.target (hx' ▸ hx)
    have rest : ∀ y ∈ nextQueue ++ queue, y ∈ members := fun y hy => h.ahead y (by
      simp only [mem_append,mem_cons] at hy ⊢
      exact hy.imp_right .inr)
    unfold scan
    rw [if_neg ht]
    by_cases hv : x ∈ visited
    · rw [if_pos hv]
      exact ih ⟨h.counted,h.visited,rest⟩
    · have grown : insert x visited ⊆ members := Finset.insert_subset hx h.visited
      have hcard := Finset.card_le_card grown
      rw [Finset.card_insert_of_notMem hv,← h.counted] at hcard
      rw [if_neg hv,if_neg (by omega)]
      have inside : Inside members (insert x visited) (count + 1)
          (nextQueue ++ (succ x).filter (fun y => y ∉ insert x visited) ++ queue) := by
        refine ⟨by rw [Finset.card_insert_of_notMem hv,h.counted],grown,fun y hy => ?_⟩
        simp only [mem_append,mem_filter] at hy
        obtain (hy | ⟨hy,-⟩) | hy := hy
        · exact rest y (by simp [hy])
        · exact ha.closed x hx y hy
        · exact rest y (by simp [hy])
      obtain ⟨visited',count',nextQueue',hs,hin,hle,-⟩ := ih inside
      exact ⟨visited',count',nextQueue',hs,hin,by omega,by omega⟩

theorem search_inside (ha : Avoids succ target members) (hl : members.card ≤ limit)
    (h : Inside members visited count queue) (hf : members.card - count + 2 ≤ fuel) :
    search succ target limit fuel visited count queue = false := by
  induction fuel generalizing visited count queue with
  | zero => omega
  | succ fuel ih =>
    cases queue with
    | nil => rfl
    | cons x queue =>
      have h : Inside members visited count ([] ++ x :: queue) := h
      obtain ⟨visited',count',nextQueue',hs,hin,hle,hnone⟩ := scan_inside ha hl h
      rw [search,hs]
      by_cases hc : count' = count
      · rw [hnone hc]
        cases fuel <;> rfl
      · have := Finset.card_le_card hin.visited
        have := hin.counted
        exact ih hin (by omega)

theorem search_eq_false_iff (succ : α → List α) (target : α) (limit : Nat) (start : α) :
    search succ target limit (limit + 2) ∅ 0 [start] = false ↔
      ∃ members, Avoids succ target members ∧ start ∈ members ∧ members.card ≤ limit := by
  constructor
  · intro hs
    have empty : Explored succ target limit ∅ 0 [start] := ⟨rfl,Nat.zero_le _,by simp,by simp⟩
    obtain ⟨members,ha,-,hstart,hcard⟩ := avoids_of_search empty hs
    exact ⟨members,ha,hstart start (by simp),hcard⟩
  · rintro ⟨members,ha,hstart,hcard⟩
    exact search_inside ha hcard ⟨rfl,by simp,by simpa using hstart⟩ (by omega)

theorem scan_count (hs : scan succ target limit visited count nextQueue queue = some (visited',count',nextQueue'))
    (hc : count ≤ limit) : count ≤ count' ∧ count' ≤ limit ∧ (count' = count → nextQueue' = nextQueue) := by
  induction queue generalizing visited count nextQueue with
  | nil =>
    cases hs
    exact ⟨le_rfl,hc,fun _ => rfl⟩
  | cons x queue ih =>
    unfold scan at hs
    split at hs
    · cases hs
    · split at hs
      · exact ih hs hc
      · split at hs
        · cases hs
        · obtain ⟨grows,bounded,-⟩ := ih hs (by omega)
          exact ⟨by omega,bounded,by omega⟩

/-- A pass that does not end the search counts a node or leaves an empty queue. -/
theorem searchWithin_eq_search {fuel' : Nat} (hc : count ≤ limit) (hf : limit - count + 2 ≤ fuel)
    (hf' : limit - count + 2 ≤ fuel') : searchWithin succ target limit fuel visited count queue =
      some (search succ target limit fuel' visited count queue) := by
  induction fuel generalizing fuel' visited count queue with
  | zero => omega
  | succ fuel ih =>
    obtain ⟨fuel',rfl⟩ := Nat.exists_eq_add_of_lt (show 0 < fuel' by omega)
    cases queue with
    | nil => rfl
    | cons x queue =>
      rw [searchWithin,search]
      split
      · rfl
      · rename_i visited' count' nextQueue' hs
        obtain ⟨grows,bounded,stuck⟩ := scan_count hs hc
        by_cases same : count' = count
        · rw [stuck same]
          cases fuel <;> cases fuel' <;> rfl
        · exact ih bounded (by omega) (by omega)

end Search

section Graph
open Relation
variable {succ : α → List α} {target start : α} {members : Finset α} {r : α → α → Prop} {u v x y : α}

theorem Avoids.reach (h : Avoids succ target members) (hs : start ∈ members)
    (hy : ReflTransGen (fun x y => y ∈ succ x) start y) : y ∈ members := by
  induction hy with
  | refl => exact hs
  | tail _ hstep ih => exact h.closed _ ih _ hstep

theorem Avoids.unreachable (h : Avoids succ target members) (hs : start ∈ members) :
    ¬ ReflTransGen (fun x y => y ∈ succ x) start target :=
  fun hreach => h.target (h.reach hs hreach)

theorem search_eq_true_iff [DecidableEq α] (succ : α → List α) (target : α) (limit : Nat) (start : α) :
    search succ target limit (limit + 2) ∅ 0 [start] = true ↔ ReflTransGen (fun x y => y ∈ succ x) start target ∨
        ∃ nodes : Finset α, limit < nodes.card ∧ ∀ x ∈ nodes, ReflTransGen (fun x y => y ∈ succ x) start x := by
  rw [← not_iff_not,Bool.not_eq_true,search_eq_false_iff]
  push Not
  constructor
  · rintro ⟨members,ha,hs,hcard⟩
    refine ⟨ha.unreachable hs,fun nodes large => ?_⟩
    by_contra! all
    have := Finset.card_le_card fun x hx => ha.reach hs (all x hx)
    omega
  · rintro ⟨missed,few⟩
    let reached := {x | ReflTransGen (fun x y => y ∈ succ x) start x}
    have finite : reached.Finite := by
      by_contra infinite
      obtain ⟨nodes,inside,large⟩ := Set.Infinite.exists_subset_card_eq infinite (limit + 1)
      obtain ⟨x,hx,outside⟩ := few nodes (by omega)
      exact outside (inside hx)
    refine ⟨finite.toFinset,⟨fun x hx y hy => ?_,by simpa [reached] using missed⟩,by simpa [reached] using .refl,?_⟩
    · rw [Set.Finite.mem_toFinset] at hx ⊢
      exact hx.tail hy
    · by_contra! large
      obtain ⟨x,hx,outside⟩ := few _ large
      exact outside (finite.mem_toFinset.mp hx)

def Acyclic (r : α → α → Prop) : Prop := ∀ x, ¬ TransGen r x x

theorem TransGen.of_insert (hback : ¬ ReflTransGen r v u) (h : TransGen (fun x y => r x y ∨ (x = u ∧ y = v)) x y) :
    TransGen r x y ∨ (ReflTransGen r x u ∧ ReflTransGen r v y) := by
  induction h with
  | single hstep =>
    obtain hr | ⟨rfl,rfl⟩ := hstep
    · exact .inl (.single hr)
    · exact .inr ⟨.refl,.refl⟩
  | tail _ hstep ih =>
    obtain hr | ⟨rfl,rfl⟩ := hstep
    · exact ih.imp (·.tail hr) (And.imp_right (·.tail hr))
    · obtain hpath | ⟨-,hv⟩ := ih
      · exact .inr ⟨hpath.to_reflTransGen,.refl⟩
      · exact absurd hv hback

theorem Acyclic.insert (h : Acyclic r) (hback : ¬ ReflTransGen r v u) : Acyclic fun x y => r x y ∨ (x = u ∧ y = v) := by
  intro x hcycle
  obtain hpath | ⟨hu,hv⟩ := TransGen.of_insert hback hcycle
  · exact h x hpath
  · exact hback (hv.trans hu)

end Graph
end FlowFabric.Foundation
