import FlowFabric.Foundation.Run
import Mathlib.Data.Finset.Card

/-! Reading a sorted list page by page. A page starts behind a cursor, which is the key of an item,
and may be filtered after it was cut. -/
namespace FlowFabric.Foundation
open List Bool Along
variable {α κ : Type} {xs : List α}

section
variable [LinearOrder κ] (key : α → κ) {x : α}

theorem filter_lt_of_split {ys : List α} {w : α} (h : (xs ++ w :: ys).Pairwise (key · < key ·)) :
    (xs ++ w :: ys).filter (key w < key ·) = ys := by
  obtain ⟨-,tail,across⟩ := pairwise_append.mp h
  rw [pairwise_cons] at tail
  have front : xs.filter (key w < key ·) = [] := by
    rw [filter_eq_nil_iff]
    intro x hx
    simpa using le_of_lt (across x hx w (by simp))
  have back : ys.filter (key w < key ·) = ys := by
    rw [filter_eq_self]
    intro y hy
    simpa using tail.1 y hy
  rw [filter_append,front,filter_cons_of_neg (by simp),back,nil_append]

theorem drop_findIdx_of_past (h : xs.Pairwise (key · < key ·)) {k : κ} {past : α → Bool}
    (hp : ∀ x ∈ xs, past x ↔ k < key x) : xs.drop (xs.findIdx past) = xs.filter (k < key ·) := by
  induction xs with
  | nil => rfl
  | cons x xs ih =>
    rw [pairwise_cons] at h
    have here := hp x (by simp)
    by_cases hx : past x
    · have later : ∀ y ∈ x :: xs, k < key y := by
        intro y hy
        rcases mem_cons.mp hy with rfl | hy
        · exact here.mp hx
        · exact lt_trans (here.mp hx) (h.1 y hy)
      rw [findIdx_cons,hx,cond_true,drop_zero,eq_comm,filter_eq_self]
      exact fun y hy => decide_eq_true (later y hy)
    · rw [findIdx_cons,not_eq_true _ |>.mp hx,cond_false,drop_succ_cons,
        filter_cons_of_neg (by simpa using here.not.mp hx)]
      exact ih h.2 fun y hy => hp y (by simp [hy])

/-- The items behind the last one that was visited. -/
def behind (last : Option α) (xs : List α) : List α :=
  match last with
  | none => xs
  | some w => xs.filter (key w < key ·)

theorem mem_behind {last : Option α} : x ∈ behind key last xs ↔ x ∈ xs ∧ ∀ w ∈ last, key w < key x := by
  cases last with
  | none | some => simp [behind]

theorem behind_sorted (last : Option α) (h : xs.Pairwise (key · < key ·)) :
    (behind key last xs).Pairwise (key · < key ·) := by
  cases last with
  | none => exact h
  | some => exact h.filter _

structure Walk (α : Type) where
  items : List α := []
  ended : Bool := false

/-- Take the next page from the list as it is now. -/
def visit (limit : Nat) (xs : List α) (v : Walk α) : Walk α :=
  if v.ended then v
  else
    { items := v.items ++ (behind key v.items.getLast? xs).take limit
      ended := (behind key v.items.getLast? xs).length ≤ limit }

variable {key} {limit : Nat} {v : Walk α}

theorem visit_of_ended (h : v.ended = true) : visit key limit xs v = v := if_pos h

theorem visit_items (h : v.ended = false) :
    (visit key limit xs v).items = v.items ++ (behind key v.items.getLast? xs).take limit := by
  rw [visit,if_neg (by simp [h])]

theorem visit_ended (h : v.ended = false) :
    (visit key limit xs v).ended = decide ((behind key v.items.getLast? xs).length ≤ limit) := by
  rw [visit,if_neg (by simp [h])]

def Walk.Sorted (key : α → κ) (v : Walk α) : Prop := v.items.Pairwise (key · < key ·)

private theorem visit_sorted (hv : v.Sorted key) (h : xs.Pairwise (key · < key ·)) :
    (visit key limit xs v).Sorted key := by
  by_cases ended : v.ended = true
  · rwa [visit_of_ended ended]
  · rw [not_eq_true] at ended
    rw [Walk.Sorted,visit_items ended,pairwise_append]
    refine ⟨hv,(behind_sorted key _ h).sublist (take_sublist _ _),?_⟩
    intro x hx y hy
    obtain ⟨-,past⟩ := (mem_behind key).mp (mem_of_mem_take hy)
    -- The page lies behind the last item, and all others lie before that.
    obtain ⟨front,w,split⟩ : ∃ front w, v.items = front ++ [w] :=
      ⟨_,_,(dropLast_append_getLast (ne_nil_of_mem hx)).symm⟩
    have hw := past w (by simp [split])
    rw [split] at hx
    rw [Walk.Sorted,split,pairwise_append] at hv
    rcases mem_append.mp hx with hx | hx
    · exact lt_trans (hv.2.2 x hx w (by simp)) hw
    · rwa [mem_singleton.mp hx]

/-- Nothing that stays in the list is left behind. -/
structure Walk.Keeps (key : α → κ) (x : α) (v : Walk α) : Prop where
  passed : v.ended = false → ∀ w ∈ v.items.getLast?, key x ≤ key w → x ∈ v.items
  finished : v.ended = true → x ∈ v.items

private theorem visit_keeps (hv : v.Keeps key x) (h : xs.Pairwise (key · < key ·)) (hx : x ∈ xs) :
    (visit key limit xs v).Keeps key x := by
  by_cases ended : v.ended = true
  · rwa [visit_of_ended ended]
  · rw [not_eq_true] at ended
    have sorted := behind_sorted key v.items.getLast? h
    -- The item is on the part that was visited, or behind it on the page, or behind the page.
    have place : x ∈ v.items ∨ x ∈ behind key v.items.getLast? xs := by
      by_cases past : ∀ w ∈ v.items.getLast?, key w < key x
      · exact .inr ((mem_behind key).mpr ⟨hx,past⟩)
      · push Not at past
        obtain ⟨w,hw,le⟩ := past
        exact .inl (hv.passed ended w hw le)
    have split := take_append_drop limit (behind key v.items.getLast? xs)
    constructor
    · rw [visit_items ended]
      intro _ w hw le
      rcases place with old | fresh
      · exact mem_append_left _ old
      · have fresh' := fresh
        rw [← split,mem_append] at fresh'
        rcases fresh' with here | later
        · exact mem_append_right _ here
        · refine absurd le (not_le_of_gt ?_)
          rw [← split,pairwise_append] at sorted
          rw [List.getLast?_append,Option.mem_def,Option.or_eq_some_iff] at hw
          rcases hw with hw | ⟨-,hw⟩
          · exact sorted.2.2 w (mem_of_getLast? hw) x later
          · exact ((mem_behind key).mp fresh).2 w hw
    · rw [visit_items ended,visit_ended ended,decide_eq_true_eq]
      intro short
      rw [take_of_length_le short]
      exact mem_append.mpr place

def walk (key : α → κ) (limit : Nat) (pages : List (List α)) : Walk α := runFrom (visit key limit) {} pages

theorem mem_page_of_mem_walk {pages : List (List α)} (hx : x ∈ (walk key limit pages).items) :
    ∃ xs ∈ pages, x ∈ xs := by
  have source : ∀ y ∈ (walk key limit pages).items, ∃ xs ∈ pages, y ∈ xs := by
    refine invariant (I := fun v : Walk α => ∀ y ∈ v.items, ∃ xs ∈ pages, y ∈ xs) (P := fun _ xs => xs ∈ pages)
      ?_ (fun y hy => by cases hy) (of_forall (fun _ h => h) _)
    intro v xs hv hxs y hy
    by_cases ended : v.ended = true
    · rw [visit_of_ended ended] at hy
      exact hv y hy
    · rw [not_eq_true] at ended
      rw [visit_items ended] at hy
      rcases mem_append.mp hy with hy | hy
      · exact hv y hy
      · exact ⟨xs,hxs,((mem_behind key).mp (mem_of_mem_take hy)).1⟩
  exact source x hx

private theorem runFrom_visit_of_ended (h : v.ended = true) (pages : List (List α)) :
    runFrom (visit key limit) v pages = v := by
  induction pages with
  | nil => rfl
  | cons xs pages ih => rw [runFrom,visit_of_ended h,ih]

theorem length_le_of_open (pos : 0 < limit) (v : Walk α) (pages : List (List α))
    (h : (runFrom (visit key limit) v pages).ended = false) :
    v.items.length + pages.length ≤ (runFrom (visit key limit) v pages).items.length := by
  induction pages generalizing v with
  | nil => exact Nat.le_refl _
  | cons xs pages ih =>
    have here : (visit key limit xs v).ended = false := by
      by_contra ended
      rw [not_eq_false] at ended
      rw [runFrom,runFrom_visit_of_ended ended,ended] at h
      cases h
    have step : v.items.length < (visit key limit xs v).items.length := by
      have ended : v.ended = false := by
        by_contra ended
        rw [not_eq_false] at ended
        rw [visit_of_ended ended,ended] at here
        cases here
      rw [visit_ended ended,decide_eq_false_iff_not] at here
      rw [visit_items ended,length_append,length_take]
      omega
    have rest := ih (visit key limit xs v) h
    rw [runFrom,length_cons]
    omega

section
variable {pages : List (List α)} (sorted : ∀ xs ∈ pages, xs.Pairwise (key · < key ·))
include sorted

theorem walk_sorted : (walk key limit pages).Sorted key :=
  invariant (I := Walk.Sorted key) (fun _ _ hv h => visit_sorted hv h) List.Pairwise.nil
    (of_forall sorted _)

theorem walk_nodup : (walk key limit pages).items.Nodup := by
  refine (walk_sorted sorted).imp ?_
  rintro x y lt rfl
  exact lt_irrefl _ lt

theorem mem_walk {x : α} (stays : ∀ xs ∈ pages, x ∈ xs) (ended : (walk key limit pages).ended = true) :
    x ∈ (walk key limit pages).items := by
  have both : Along (visit key limit) (fun _ xs => xs.Pairwise (key · < key ·) ∧ x ∈ xs) {} pages :=
    of_forall (fun xs hxs => ⟨sorted xs hxs,stays xs hxs⟩) _
  have kept : (walk key limit pages).Keeps key x := by
    refine invariant (I := Walk.Keeps key x) (fun _ _ hv h => visit_keeps hv h.1 h.2) ?_ both
    constructor
    · intro _ w hw
      cases hw
    · intro h
      cases h
  exact kept.finished ended

theorem walk_ends (pos : 0 < limit) [DecidableEq α] (all : Finset α) (within : ∀ xs ∈ pages, ∀ x ∈ xs, x ∈ all)
    (long : all.card < pages.length) : (walk key limit pages).ended = true := by
  by_contra h
  rw [not_eq_true] at h
  have inside : (walk key limit pages).items.toFinset ⊆ all := by
    intro x hx
    obtain ⟨xs,hxs,mem⟩ := mem_page_of_mem_walk (mem_toFinset.mp hx)
    exact within xs hxs x mem
  have few := Finset.card_le_card inside
  rw [toFinset_card_of_nodup (walk_nodup sorted)] at few
  have many := length_le_of_open pos {} pages h
  rw [length_nil,Nat.zero_add] at many
  exact absurd (Nat.le_trans many few) (Nat.not_le.mpr long)

end

end

theorem count_map_eq_one {β : Type} [DecidableEq α] [DecidableEq β] {f : α → β} {x : α}
    (nodup : xs.Nodup) (hx : x ∈ xs) (only : ∀ y ∈ xs, f y = f x → y = x) : (xs.map f).count (f x) = 1 := by
  rw [← count_eq_one_of_mem nodup hx,List.count,countP_map]
  apply countP_congr
  intro y hy
  simpa using ⟨only y hy,fun h => congrArg f h⟩

variable {shown : α → Bool}

theorem exists_last_shown (h : xs.filter shown ≠ []) :
    ∃ front w back, xs = front ++ w :: back ∧ shown w ∧ back.filter shown = [] := by
  induction xs with
  | nil => exact absurd rfl h
  | cons x xs ih =>
    by_cases later : xs.filter shown = []
    · refine ⟨[],x,xs,rfl,?_,later⟩
      by_contra hx
      rw [filter_cons_of_neg hx] at h
      exact h later
    · obtain ⟨front,w,back,rfl,hw,hidden⟩ := ih later
      exact ⟨x :: front,w,back,rfl,hw,hidden⟩

/-- Fewer than `count` hidden items stand in front of a shown one, counted from the shown item
before it. The run counts those that were passed already. -/
def Spaced (shown : α → Bool) (count : Nat) : Nat → List α → Prop
  | _, [] => True
  | run, x :: xs => if shown x then run < count ∧ Spaced shown count 0 xs else Spaced shown count (run + 1) xs

variable {count run : Nat}

theorem spaced_append {front back : List α} {w : α} (hw : shown w) (reach : run + front.length < count) :
    Spaced shown count run (front ++ w :: back) ↔ Spaced shown count 0 back := by
  induction front generalizing run with
  | nil =>
    have here : run < count := by simpa using reach
    simp [Spaced,hw,here]
  | cons x front ih =>
    rw [length_cons] at reach
    rw [cons_append,Spaced]
    split
    · rw [ih (by omega)]
      exact and_iff_right (by omega)
    · exact ih (by omega)

theorem spaced_beyond_reach (le : count ≤ run) : Spaced shown count run xs ↔ xs.filter shown = [] := by
  induction xs generalizing run with
  | nil => simp [Spaced]
  | cons x xs ih =>
    rw [Spaced]
    split
    · rw [filter_cons_of_pos ‹_›]
      refine iff_of_false ?_ (by simp)
      rintro ⟨near,-⟩
      omega
    · rw [filter_cons_of_neg ‹_›]
      exact ih (by omega)

theorem spaced_of_take_hidden (hidden : (xs.take (count - run)).filter shown = []) :
    Spaced shown count run xs ↔ xs.filter shown = [] := by
  induction xs generalizing run with
  | nil => simp [Spaced]
  | cons x xs ih =>
    by_cases le : count ≤ run
    · exact spaced_beyond_reach le
    · obtain ⟨k,hk⟩ : ∃ k, count - run = k + 1 := ⟨count - run - 1,by omega⟩
      rw [hk,take_succ_cons] at hidden
      have hx : ¬ shown x := by
        intro hx
        simp [hx] at hidden
      rw [filter_cons_of_neg hx] at hidden ⊢
      rw [Spaced,if_neg hx]
      exact ih (by rwa [show count - (run + 1) = k by omega])

theorem spaced_of_hidden (hidden : xs.filter shown = []) : Spaced shown count run xs := by
  rw [spaced_of_take_hidden]
  · exact hidden
  · rw [filter_eq_nil_iff] at hidden ⊢
    exact fun x hx => hidden x (mem_of_mem_take hx)

end FlowFabric.Foundation
