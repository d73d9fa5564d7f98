import Mathlib.Algebra.BigOperators.Group.List.Basic

/-! An account with one counter for each dimension and a ledger of what each owner has put on
it. Releasing an owner takes its ledger off again. The books say what is outstanding. -/
namespace FlowFabric.Foundation
open List Function Prod
variable {κ δ : Type} [DecidableEq κ] [DecidableEq δ]

def sumFor (d : δ) : List (δ × Nat) → Nat
  | [] => 0
  | e :: es => (if e.1 = d then e.2 else 0) + sumFor d es

omit [DecidableEq κ] in
theorem sumFor_eq_zero {d : δ} {es : List (δ × Nat)} (h : d ∉ es.map fst) : sumFor d es = 0 := by
  induction es with
  | nil => rfl
  | cons e es ih =>
    rw [map_cons,mem_cons,not_or] at h
    simp [sumFor,Ne.symm h.1,ih h.2]

omit [DecidableEq κ] in
theorem sumFor_of_count_eq_one {d : δ} {n : Nat} {es : List (δ × Nat)} (h : (d,n) ∈ es)
    (hc : (es.map fst).count d = 1) : sumFor d es = n := by
  induction es with
  | nil => cases h
  | cons e es ih =>
    rcases mem_cons.mp h with rfl | h
    · have hrest : d ∉ es.map fst := by
        rw [← count_eq_zero]
        simpa using hc
      simp [sumFor,sumFor_eq_zero hrest]
    · have hmem : d ∈ es.map fst := mem_map.mpr ⟨(d,n),h,rfl⟩
      have hpos : 0 < (es.map fst).count d := count_pos_iff.mpr hmem
      have hne : e.1 ≠ d := by
        rintro rfl
        simp at hc
        omega
      rw [sumFor,if_neg hne,Nat.zero_add]
      exact ih h (by simpa [hne] using hc)

@[ext] structure Account (κ δ : Type) where
  usage : δ → Nat
  ledger : κ → δ → Nat

namespace Account

/-- Amounts are added to the counters and, if they have an owner, to its ledger. -/
def spend (owner : Option κ) (es : List (δ × Nat)) (a : Account κ δ) : Account κ δ where
  usage d := a.usage d + sumFor d es
  ledger x d := a.ledger x d + if owner = some x then sumFor d es else 0

/-- The ledger is taken off the counters, which stop at zero. -/
def release (x : κ) (a : Account κ δ) : Account κ δ where
  usage d := a.usage d - a.ledger x d
  ledger y d := if y = x then 0 else a.ledger y d

/-- The counters go back to zero, the ledgers stay. -/
def reset (a : Account κ δ) : Account κ δ where
  usage _ := 0
  ledger := a.ledger

theorem spend_cons (owner : Option κ) (e : δ × Nat) (es : List (δ × Nat)) (a : Account κ δ) :
    a.spend owner (e :: es) = (a.spend owner [e]).spend owner es := by
  unfold spend
  congr 1
  · funext d
    simp [sumFor,Nat.add_assoc]
  · funext x d
    by_cases h : owner = some x <;> simp [h,sumFor,Nat.add_assoc]

end Account

/-- What is outstanding: who spent how much in which dimension. -/
abbrev Books (κ δ : Type) := List (κ × δ × Nat)

namespace Books

def record (x : κ) (es : List (δ × Nat)) (books : Books κ δ) : Books κ δ := books ++ es.map fun e => (x,e)

/-- The books without the entries of one owner. -/
def without (x : κ) (books : Books κ δ) : Books κ δ := books.filter fun e => decide (e.1 ≠ x)

def total (d : δ) (books : Books κ δ) : Nat := sumFor d (books.map snd)

/-- The part of one owner. -/
def share (x : κ) (d : δ) (books : Books κ δ) : Nat := sumFor d ((books.filter fun e => decide (e.1 = x)).map snd)

end Books

omit [DecidableEq κ] in
theorem sumFor_append (d : δ) (es fs : List (δ × Nat)) : sumFor d (es ++ fs) = sumFor d es + sumFor d fs := by
  induction es with
  | nil => simp [sumFor]
  | cons e es ih => simp [sumFor,ih,Nat.add_assoc]

namespace Books
variable {x y : κ} {d : δ} {es : List (δ × Nat)} {books : Books κ δ}

omit [DecidableEq κ] in
private theorem total_record : (books.record x es).total d = books.total d + sumFor d es := by
  simp [total,record,sumFor_append,comp_def]

private theorem share_record : (books.record x es).share y d = books.share y d + if x = y then sumFor d es else 0 := by
  unfold share record
  rw [filter_append,map_append,sumFor_append]
  split
  · rename_i h
    subst h
    simp [filter_map,comp_def]
  · rename_i h
    simp [filter_map,comp_def,h,sumFor]

theorem total_split (x : κ) : books.total d = books.share x d + (books.without x).total d := by
  induction books with
  | nil => rfl
  | cons e books ih =>
    unfold total share without at ih ⊢
    by_cases h : e.1 = x
    · simp [h,sumFor,ih,Nat.add_assoc]
    · simp [h,sumFor,ih]
      omega

theorem share_without : (books.without x).share y d = if y = x then 0 else books.share y d := by
  unfold share without
  rw [filter_filter]
  split
  · rename_i h
    subst h
    rw [filter_eq_nil_iff.mpr (by simp)]
    rfl
  · rename_i h
    congr 2
    refine filter_congr fun e _ => ?_
    by_cases he : e.1 = y <;> simp [he,h]

end Books

def Conserved (a : Account κ δ) (books : Books κ δ) : Prop := ∀ d, a.usage d = books.total d

/-- The ledgers have everything that is outstanding, and may have more. -/
def Covered (a : Account κ δ) (books : Books κ δ) : Prop := ∀ x d, books.share x d ≤ a.ledger x d

section
variable {a : Account κ δ} {books : Books κ δ} {x : κ} {es : List (δ × Nat)}

theorem Conserved.spend (h : Conserved a books) : Conserved (a.spend (some x) es) (books.record x es) := by
  intro d
  rw [Books.total_record,← h d]
  rfl

theorem Covered.spend (h : Covered a books) : Covered (a.spend (some x) es) (books.record x es) := by
  intro y d
  have hy := h y d
  rw [Books.share_record]
  simp only [Account.spend,Option.some.injEq]
  omega

omit [DecidableEq κ] in
theorem conserved_reset (a : Account κ δ) : Conserved a.reset ([] : Books κ δ) := fun _ => rfl

theorem covered_nil (a : Account κ δ) : Covered a [] := fun _ _ => Nat.zero_le _

theorem Covered.release (h : Covered a books) : Covered (a.release x) (books.without x) := by
  intro y d
  have hy := h y d
  rw [Books.share_without]
  simp only [Account.release]
  split
  · exact Nat.le_refl 0
  · exact hy

theorem conserved_release_iff (h : Conserved a books) (hc : Covered a books) :
    Conserved (a.release x) (books.without x) ↔
      ∀ d, a.ledger x d = books.share x d ∨ (books.without x).total d = 0 := by
  refine forall_congr' fun d => ?_
  have hd := h d
  have hs := hc x d
  rw [Books.total_split x] at hd
  simp only [Account.release]
  omega

end

end FlowFabric.Foundation
