import Mathlib.Data.List.Nodup
import Mathlib.Logic.Function.Iterate

/-! A queue from whose head a batch is taken over and over. Some of what is looked at leaves, the rest
stays in its place, so that what stays can keep the batch from reaching what lies behind it. -/
namespace FlowFabric.Foundation
open List
variable {α : Type} (leaves : α → Bool)

def sweep (n : Nat) (xs : List α) : List α := (xs.take n).filter (fun x => !leaves x) ++ xs.drop n

/-- The queue without what can leave, up to the place where so many have stayed. -/
def unswept : Nat → List α → List α
  | 0,xs => xs
  | _ + 1,[] => []
  | n + 1,x :: xs => if leaves x then unswept (n + 1) xs else x :: unswept n xs

variable {leaves} {xs : List α} {x : α}

theorem sweep_eq_filter [DecidableEq α] (nodup : xs.Nodup) (n : Nat) :
    sweep leaves n xs = xs.filter fun x => !(decide (x ∈ xs.take n) && leaves x) := by
  have disjoint : ∀ x ∈ xs.drop n, x ∉ xs.take n := by
    intro x hd ht
    rw [← take_append_drop n xs,nodup_append] at nodup
    exact nodup.2.2 x ht x hd rfl
  have whole := filter_append (p := fun x => !(decide (x ∈ xs.take n) && leaves x)) (xs.take n) (xs.drop n)
  rw [take_append_drop] at whole
  rw [sweep,whole]
  congr 1
  · exact filter_congr fun x hx => by simp [hx]
  · exact (filter_eq_self.mpr fun x hx => by simp [disjoint x hx]).symm

theorem sweep_congr {leaves' : α → Bool} (h : ∀ x ∈ xs, leaves x = leaves' x) (n : Nat) :
    sweep leaves n xs = sweep leaves' n xs := by
  unfold sweep
  congr 1
  exact filter_congr fun x hx => by rw [h x (mem_of_mem_take hx)]

@[simp] theorem unswept_zero (xs : List α) : unswept leaves 0 xs = xs := by
  cases xs <;> rfl

@[simp] theorem unswept_nil (n : Nat) : unswept leaves n [] = [] := by
  cases n <;> rfl

theorem unswept_leave (h : leaves x = true) (n : Nat) (xs : List α) :
    unswept leaves (n + 1) (x :: xs) = unswept leaves (n + 1) xs := if_pos h

theorem unswept_stay (h : leaves x = false) (n : Nat) (xs : List α) :
    unswept leaves (n + 1) (x :: xs) = x :: unswept leaves n xs := if_neg (by simp [h])

variable {k n : Nat}

private theorem unswept_of_le (h : k ≤ n) (xs : List α) :
    unswept leaves n ((xs.take k).filter (fun x => !leaves x) ++ xs.drop k) = unswept leaves n xs := by
  induction xs generalizing k n with
  | nil => simp
  | cons x xs ih =>
    cases k with
    | zero => simp
    | succ =>
      obtain ⟨n,rfl⟩ : ∃ m, n = m + 1 := ⟨n - 1,by omega⟩
      cases hx : leaves x with
      | true =>
        simp only [take_succ_cons,drop_succ_cons,unswept_leave hx]
        rw [filter_cons_of_neg (by simp [hx])]
        exact ih (by omega)
      | false =>
        simp only [take_succ_cons,drop_succ_cons,unswept_stay hx]
        rw [filter_cons_of_pos (by simp [hx]),cons_append,unswept_stay hx,ih (by omega)]

variable (leaves) in
private theorem sweep_shortens (n : Nat) (xs : List α) :
    (sweep leaves n xs).length < xs.length ∨ sweep leaves n xs = xs ∧ unswept leaves n xs = xs := by
  by_cases h : ∀ x ∈ xs.take n, leaves x = false
  · right
    refine ⟨?_,?_⟩
    · rw [sweep,filter_eq_self.mpr (by simpa using h),take_append_drop]
    · induction xs generalizing n with
      | nil => simp
      | cons x xs ih =>
        cases n with
        | zero => simp
        | succ n =>
          rw [take_succ_cons,forall_mem_cons] at h
          rw [unswept_stay h.1,ih n h.2]
  · left
    have split := congrArg List.length (take_append_drop n xs)
    have fewer : ((xs.take n).filter fun x => !leaves x).length < (xs.take n).length := by
      refine length_filter_lt_length_iff_exists.mpr ?_
      push Not at h
      simpa using h
    rw [length_append] at split
    rw [sweep,length_append]
    omega

theorem iterate_sweep (n : Nat) (h : xs.length ≤ k) : (sweep leaves n)^[k] xs = unswept leaves n xs := by
  induction k generalizing xs with
  | zero =>
    rw [length_eq_zero_iff.mp (Nat.le_zero.mp h),unswept_nil]
    rfl
  | succ k ih =>
    rcases sweep_shortens leaves n xs with shorter | ⟨same,final⟩
    · rw [Function.iterate_succ_apply,ih (by omega)]
      exact unswept_of_le (Nat.le_refl n) xs
    · rw [Function.iterate_fixed same,final]

theorem unswept_sublist (n : Nat) (xs : List α) : (unswept leaves n xs).Sublist xs := by
  induction xs generalizing n with
  | nil => simp
  | cons x xs ih =>
    cases n with
    | zero => simp
    | succ n =>
      cases hx : leaves x with
      | true =>
        rw [unswept_leave hx]
        exact (ih (n + 1)).cons x
      | false =>
        rw [unswept_stay hx]
        exact (ih n).cons_cons x

theorem mem_unswept [DecidableEq α] (nodup : xs.Nodup) (hx : x ∈ xs) :
    x ∈ unswept leaves n xs ↔ (leaves x = true → n ≤ (xs.takeWhile (· ≠ x)).countP fun y => !leaves y) := by
  induction xs generalizing n with
  | nil => cases hx
  | cons y xs ih =>
    cases n with
    | zero => simp [hx]
    | succ =>
      obtain ⟨hy,nodup⟩ := nodup_cons.mp nodup
      by_cases same : y = x
      · subst same
        cases stays : leaves y with
        | true =>
          rw [unswept_leave stays]
          exact iff_of_false (fun h => hy ((unswept_sublist _ _).subset h)) (by simp)
        | false =>
          rw [unswept_stay stays]
          exact iff_of_true mem_cons_self (by simp)
      · have hx : x ∈ xs := (mem_cons.mp hx).resolve_left (Ne.symm same)
        rw [takeWhile_cons_of_pos (by simp [same])]
        cases stays : leaves y with
        | true =>
          rw [unswept_leave stays,countP_cons_of_neg (by simp [stays])]
          exact ih nodup hx
        | false =>
          rw [unswept_stay stays,countP_cons_of_pos (by simp [stays]),mem_cons,
            or_iff_right (Ne.symm same),ih nodup hx,Nat.add_le_add_iff_right]

end FlowFabric.Foundation
