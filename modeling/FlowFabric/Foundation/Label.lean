import Mathlib.Data.Finset.Card
import FlowFabric.Foundation.Json

/-! Reading labels back: sequences written with closing delimiters, texts that are taken apart at
delimiters from the left and from the right, and how many labels a set of things gets or members of
a set carry. Numerals are labels of numbers. -/
namespace FlowFabric.Foundation
open List Nat
variable {α β γ : Type}

theorem append_delimiter_inj {c : α} {xs ys xs' ys' : List α} (hx : c ∉ xs) (hy : c ∉ ys)
    (h : xs ++ c :: xs' = ys ++ c :: ys') : xs = ys ∧ xs' = ys' := by
  induction xs generalizing ys with
  | nil =>
    cases ys with
    | nil => simpa using h
    | cons =>
      simp only [nil_append,cons_append,List.cons.injEq] at h
      simp [h.1] at hy
  | cons x xs ih =>
    cases ys with
    | nil =>
      simp only [nil_append,cons_append,List.cons.injEq] at h
      simp [h.1] at hx
    | cons =>
      simp only [cons_append,List.cons.injEq] at h
      obtain ⟨he,ht⟩ := ih (fun hm => hx (by simp [hm])) (fun hm => hy (by simp [hm])) h.2
      exact ⟨by rw [h.1,he],ht⟩

theorem flatMap_delimited_injective {w : List α} {c : α} {f : β → List α} (hf : Function.Injective f)
    (hc : ∀ b, c ∉ f b) : Function.Injective fun bs : List β => bs.flatMap fun b => w ++ (f b ++ [c]) := by
  intro bs
  induction bs with
  | nil =>
    intro bs' h
    cases bs' with
    | nil => rfl
    | cons => simp at h
  | cons b bs ih =>
    intro bs' h
    cases bs' with
    | nil => simp at h
    | cons b' =>
      simp only [flatMap_cons,append_assoc,cons_append,nil_append,append_cancel_left_eq] at h
      obtain ⟨he,ht⟩ := append_delimiter_inj (hc b) (hc b') h
      rw [hf he,ih ht]

theorem card_image_le_of_factors [DecidableEq β] [DecidableEq γ] {s : Finset α} {f : α → β}
    {g : α → γ} (h : ∀ a ∈ s, ∀ b ∈ s, f a = f b → g a = g b) : (s.image g).card ≤ (s.image f).card := by
  let pairs := s.image fun a => (f a,g a)
  have hinj : Set.InjOn Prod.fst (pairs : Set (β × γ)) := by
    rintro p hp q hq hpq
    obtain ⟨a,ha,rfl⟩ := Finset.mem_image.mp (Finset.mem_coe.mp hp)
    obtain ⟨b,hb,rfl⟩ := Finset.mem_image.mp (Finset.mem_coe.mp hq)
    exact Prod.ext hpq (h a ha b hb hpq)
  calc (s.image g).card = (pairs.image Prod.snd).card := by rw [Finset.image_image]; rfl
    _ ≤ pairs.card := Finset.card_image_le
    _ = (pairs.image Prod.fst).card := (Finset.card_image_of_injOn hinj).symm
    _ = (s.image f).card := by rw [Finset.image_image]; rfl

theorem toDigits_injective : Function.Injective (toDigits 10) := by
  intro i j h
  rw [← ofDigitChars_ten_toDigits (n := i),h,ofDigitChars_ten_toDigits]

theorem notMem_toDigits {c : Char} (hc : c.isDigit = false) (i : Nat) : c ∉ toDigits 10 i := by
  intro h
  have digit := isDigit_of_mem_toDigits (by decide) (by decide) h
  rw [hc] at digit
  cases digit

theorem toString_injective : Function.Injective (toString : Nat → String) := by
  intro i j h
  have hl := congrArg String.toList h
  rw [show toString i = i.repr from rfl,show toString j = j.repr from rfl,toList_repr,toList_repr] at hl
  exact toDigits_injective hl

section
variable [DecidableEq β] {members : Finset α} {f g : α → β} {a : α}

def tally (members : Finset α) (f : α → β) (b : β) : Nat := (members.filter fun a => f a = b).card

@[simp] theorem tally_empty (f : α → β) (b : β) : tally ∅ f b = 0 := rfl

theorem tally_congr (h : ∀ a ∈ members, g a = f a) (b : β) : tally members g b = tally members f b := by
  unfold tally
  rw [Finset.filter_congr fun a ha => by rw [h a ha]]

variable [DecidableEq α]

theorem tally_insert (ha : a ∉ members) (f : α → β) (b : β) :
    tally (insert a members) f b = tally members f b + if f a = b then 1 else 0 := by
  unfold tally
  rw [Finset.filter_insert]
  split
  · rw [Finset.card_insert_of_notMem fun h => ha (Finset.mem_of_mem_filter a h)]
  · rfl

theorem tally_relabel (ha : a ∈ members) (h : ∀ x ∈ members, x ≠ a → g x = f x) (b : β) :
    tally members g b + (if f a = b then 1 else 0) = tally members f b + if g a = b then 1 else 0 := by
  have others : tally (members.erase a) g b = tally (members.erase a) f b :=
    tally_congr (fun x hx => h x (Finset.mem_of_mem_erase hx) (Finset.ne_of_mem_erase hx)) b
  have hf := tally_insert (Finset.notMem_erase a members) f b
  have hg := tally_insert (Finset.notMem_erase a members) g b
  rw [Finset.insert_erase ha] at hf hg
  omega

end

variable [DecidableEq α] (n : Nat) {c : α} {xs : List α}

def splitOnce (c : α) : List α → Option (List α × List α)
  | [] => none
  | x :: xs => if x = c then some ([],xs) else (splitOnce c xs).map fun p => (x :: p.1,p.2)

theorem splitOnce_append (h : c ∉ xs) (ys : List α) : splitOnce c (xs ++ c :: ys) = some (xs,ys) := by
  induction xs with
  | nil => exact if_pos rfl
  | cons x xs ih =>
    obtain ⟨hx,hxs⟩ := not_or.mp (mem_cons.not.mp h)
    rw [cons_append,splitOnce,if_neg (Ne.symm hx),ih hxs]
    rfl

theorem notMem_of_splitOnce {p : List α × List α} (h : splitOnce c xs = some p) : c ∉ p.1 := by
  induction xs generalizing p with
  | nil => cases h
  | cons x xs ih =>
    rw [splitOnce] at h
    split at h
    · cases h
      exact not_mem_nil
    · rename_i hx
      obtain ⟨q,hq,rfl⟩ := Option.map_eq_some_iff.mp h
      exact fun hc => (mem_cons.mp hc).elim (Ne.symm hx) (ih hq)

def rsplitOnce (c : α) (xs : List α) : Option (List α × List α) :=
  (splitOnce c xs.reverse).map fun p => (p.2.reverse,p.1.reverse)

theorem rsplitOnce_append {ys : List α} (h : c ∉ ys) (xs : List α) : rsplitOnce c (xs ++ c :: ys) = some (xs,ys) := by
  have reversed : (xs ++ c :: ys).reverse = ys.reverse ++ c :: xs.reverse := by simp
  rw [rsplitOnce,reversed,splitOnce_append (by simpa using h)]
  simp

/-- What stands up to the first delimiter that is followed by the other one, and after both. -/
def splitPair (c d : α) : List α → Option (List α × List α)
  | [] => none
  | [_] => none
  | x :: y :: xs =>
    if x = c ∧ y = d then some ([x],xs) else (splitPair c d (y :: xs)).map fun p => (x :: p.1,p.2)

theorem splitPair_append {d : α} (h : c ∉ xs) (ys : List α) :
    splitPair c d (xs ++ c :: d :: ys) = some (xs ++ [c],ys) := by
  induction xs with
  | nil => exact if_pos ⟨rfl,rfl⟩
  | cons x xs ih =>
    obtain ⟨hx,hxs⟩ := not_or.mp (mem_cons.not.mp h)
    obtain ⟨y,zs,hy⟩ : ∃ y zs, xs ++ c :: d :: ys = y :: zs := by
      cases xs with
      | nil | cons => exact ⟨_,_,rfl⟩
    have rest := ih hxs
    rw [hy] at rest
    rw [cons_append,hy,splitPair,if_neg (fun h => hx h.1.symm),rest]
    rfl

theorem splitPair_eq {d : α} {l : List α} {p : List α × List α} (h : splitPair c d l = some p) :
    ∃ xs, p.1 = xs ++ [c] ∧ l = xs ++ c :: d :: p.2 := by
  fun_induction splitPair c d l generalizing p with
  | case1 | case2 => cases h
  | case3 x y xs here =>
    cases h
    exact ⟨[],by simp [here]⟩
  | case4 x y xs _ ih =>
    obtain ⟨q,hq,rfl⟩ := Option.map_eq_some_iff.mp h
    obtain ⟨zs,hz,hl⟩ := ih hq
    exact ⟨x :: zs,by simp [hz],by simp [hl]⟩

/-- Texts without the delimiter come back from the line they were joined to. -/
theorem splitOn_intercalate_texts {c : Char} {separator : String} (hs : separator.toList = [c]) {l : List String}
    (hl : ∀ t ∈ l, c ∉ t.toList) (hne : l ≠ []) :
    ((separator.intercalate l).toList.splitOn c).map String.ofList = l := by
  rw [String.toList_intercalate,hs,splitOn_intercalate c (by simpa using hl) (by simpa using hne)]
  simp

/-- The text without the blanks at its ends. -/
def trimmed (t : List Char) : List Char := ((t.dropWhile Char.isWhitespace).reverse.dropWhile Char.isWhitespace).reverse

/-! ### Numerals -/

private theorem digits_ofDigitChars {cs : List Char} (h : ∀ c ∈ cs, c.isDigit = true) (acc : Nat) :
    Json.digits cs acc = some (ofDigitChars 10 cs acc) := by
  induction cs generalizing acc with
  | nil => rfl
  | cons c cs ih =>
    obtain ⟨hc,hcs⟩ := forall_mem_cons.mp h
    rw [Json.digits,if_pos hc,ih hcs,ofDigitChars_cons]

theorem digits_toDigits : Json.digits (toDigits 10 n) 0 = some n := by
  rw [digits_ofDigitChars fun c hc => isDigit_of_mem_toDigits (by decide) (by decide) hc,ofDigitChars_ten_toDigits]

theorem toDigits_cons : ∃ c cs, toDigits 10 n = c :: cs ∧ c ≠ '-' := by
  cases hd : toDigits 10 n with
  | nil => exact absurd hd toDigits_ne_nil
  | cons c cs =>
    refine ⟨c,cs,rfl,?_⟩
    rintro rfl
    have digit := isDigit_of_mem_toDigits (b := 10) (n := n) (by decide) (by decide) (hd ▸ mem_cons_self)
    cases digit

theorem toList_toString_natCast : (toString (n : Int)).toList = toDigits 10 n := toList_repr

theorem toList_toString_negSucc : (toString (Int.negSucc n)).toList = '-' :: toDigits 10 (n + 1) := by
  change ("-" ++ (n + 1).repr).toList = _
  rw [String.toList_append,toList_repr]
  rfl

theorem numeral_toString (i : Int) : Json.numeral (toString i) = some i := by
  unfold Json.numeral
  cases i with
  | ofNat n =>
    rw [Int.ofNat_eq_natCast,toList_toString_natCast]
    obtain ⟨c,cs,hd,hc⟩ := toDigits_cons n
    have read := digits_toDigits n
    rw [hd] at read ⊢
    split
    · rename_i h
      cases h
    · rename_i h
      cases h
      exact absurd rfl hc
    · rw [read]
      rfl
  | negSucc n =>
    obtain ⟨c,cs,hd,-⟩ := toDigits_cons (n + 1)
    have read := digits_toDigits (n + 1)
    rw [hd] at read
    rw [toList_toString_negSucc,hd]
    change (Json.digits (c :: cs) 0).map (fun n => -(n : Int)) = _
    rw [read]
    rfl

theorem notMem_toString {c : Char} (hd : c.isDigit = false) (hs : c ≠ '-') (i : Int) : c ∉ (toString i).toList := by
  cases i with
  | ofNat n =>
    rw [Int.ofNat_eq_natCast,toList_toString_natCast]
    exact notMem_toDigits hd n
  | negSucc n =>
    rw [toList_toString_negSucc,mem_cons]
    exact not_or.mpr ⟨hs,notMem_toDigits hd (n + 1)⟩

end FlowFabric.Foundation
