import Mathlib.Data.Int.Log
import Mathlib.Data.Rat.Floor
import Mathlib.Data.List.DropRight

/-! Numbers of double precision over the rationals: the operations round their exact results, a number is
written with fourteen digits, and a text is read as by strtod. -/
namespace FlowFabric.Foundation

/-- The nearest whole number, the even one of two. -/
def roundEven (q : ℚ) : ℤ :=
  if q - ⌊q⌋ < 1 / 2 ∨ (q - ⌊q⌋ = 1 / 2 ∧ Even ⌊q⌋) then ⌊q⌋ else ⌊q⌋ + 1

/-- The nearest multiple of a power. -/
def roundAt (b : Nat) (e : ℤ) (q : ℚ) : ℚ := roundEven (q / (b : ℚ) ^ e) * (b : ℚ) ^ e

/-- The exponent of the last of the first `p` digits. -/
def lastDigit (b p : Nat) (q : ℚ) : ℤ := Int.log b |q| + 1 - p

section
variable {b p : Nat} {n : ℤ}

private theorem roundEven_intCast (n : ℤ) : roundEven n = n := by simp [roundEven]

private theorem lastDigit_nonpos (hb : 1 < b) (hp : 0 < p) (h : |n| < b ^ p) : lastDigit b p n ≤ 0 := by
  have log : Int.log b |(n : ℚ)| < p := by
    rcases eq_or_ne n 0 with rfl | hn
    · simpa using hp
    · rw [← Int.lt_zpow_iff_log_lt hb (by simpa using hn)]
      exact_mod_cast h
  unfold lastDigit
  omega

private theorem roundAt_intCast (hb : 1 < b) {e : ℤ} (he : e ≤ 0) (n : ℤ) : roundAt b e n = n := by
  obtain ⟨k,rfl⟩ : ∃ k : ℕ, e = -k := ⟨e.natAbs,by omega⟩
  have hpow : (b : ℚ) ^ k ≠ 0 := pow_ne_zero _ (by exact_mod_cast (by omega : b ≠ 0))
  have scaled : (n : ℚ) / (b : ℚ) ^ (-(k : ℤ)) = ((n * b ^ k : ℤ) : ℚ) := by
    rw [zpow_neg,zpow_natCast,div_inv_eq_mul]
    push_cast
    rfl
  rw [roundAt,scaled,roundEven_intCast]
  push_cast
  rw [zpow_neg,zpow_natCast,mul_assoc,mul_inv_cancel₀ hpow,mul_one]

end

inductive Double where
  | nan
  | infinite (negative : Bool)
  | finite (q : ℚ)
  deriving DecidableEq

namespace Double

/-- The double nearest to a number. Near zero there are fewer digits, and from 2 ^ 1024 on it is infinite. -/
def ofRat (q : ℚ) : Double :=
  let r := roundAt 2 (max (lastDigit 2 53 q) (-1074)) q
  if 2 ^ 1024 ≤ |r| then .infinite (decide (q < 0)) else .finite r

def ofInt (n : ℤ) : Double := ofRat n

def add : Double → Double → Double
  | .finite p, .finite q => ofRat (p + q)
  | .infinite a, .infinite b => if a = b then .infinite a else .nan
  | .infinite a, .finite _ | .finite _, .infinite a => .infinite a
  | .nan, _ | _, .nan => .nan

def mul : Double → Double → Double
  | .finite p, .finite q => ofRat (p * q)
  | .infinite a, .infinite b => .infinite (a != b)
  | .infinite a, .finite q | .finite q, .infinite a =>
    if q = 0 then .nan else .infinite (a != decide (q < 0))
  | .nan, _ | _, .nan => .nan

/-- The power as if it were calculated exactly and rounded. -/
def pow (x : Double) (n : Nat) : Double :=
  match n, x with
  | 0, _ => .finite 1
  | _, .finite q => ofRat (q ^ n)
  | _, .infinite a => .infinite (a && decide (n % 2 = 1))
  | _, .nan => .nan

def lt : Double → Double → Bool
  | .finite p, .finite q => decide (p < q)
  | .infinite a, .infinite b => a && !b
  | .infinite a, .finite _ => a
  | .finite _, .infinite b => !b
  | .nan, _ | _, .nan => false

def le (x y : Double) : Bool := x.lt y || decide (x = y ∧ x ≠ .nan)

/-- The first whole number that is not smaller. An infinite one has a size that no finite one has, and no
number is smaller than one that is not a number. -/
def ceil : Double → ℤ
  | .finite q => ⌈q⌉
  | .infinite false => 2 ^ 1024
  | .infinite true | .nan => -2 ^ 1024

/-- The second one only if it is smaller. -/
def min (x y : Double) : Double := if y.lt x then y else x

/-! ### Texts -/

/-- What is read back from the text of a number, which has fourteen digits. -/
def printed : Double → Double
  | .finite q => ofRat (roundAt 10 (lastDigit 10 14 q) q)
  | x => x

/-- The digits with a point after the first `k` of them, without zeros at the end. -/
def pointed (k : Nat) (ds : List Char) : List Char :=
  let fraction := (ds.drop k).rdropWhile (· = '0')
  ds.take k ++ if fraction = [] then [] else '.' :: fraction

/-- The format %.14g. -/
def text : Double → String
  | .nan => "nan"
  | .infinite negative => if negative then "-inf" else "inf"
  | .finite q =>
    let r := roundAt 10 (lastDigit 10 14 q) |q|
    let e := Int.log 10 r
    let ds := Nat.toDigits 10 (r / 10 ^ (e - 13)).num.toNat
    let shown :=
      if -4 ≤ e ∧ e < 14 then pointed (e.toNat + 1) (List.replicate (-e).toNat '0' ++ ds)
      else
        let exponent := Nat.toDigits 10 e.natAbs
        pointed 1 ds ++ 'e' :: (if e < 0 then '-' else '+') :: (List.replicate (2 - exponent.length) '0' ++ exponent)
    String.ofList (if q < 0 then '-' :: shown else shown)

end Double

def isBlank (c : Char) : Bool := decide (c ∈ [' ','\t','\n','\r','\x0b','\x0c'])

def hexValue (c : Char) : Option Nat :=
  if '0' ≤ c ∧ c ≤ '9' then some (c.toNat - '0'.toNat)
  else if 'a' ≤ c ∧ c ≤ 'f' then some (c.toNat - 'a'.toNat + 10)
  else if 'A' ≤ c ∧ c ≤ 'F' then some (c.toNat - 'A'.toNat + 10)
  else none

namespace Double

def neg : Double → Double
  | .finite q => .finite (-q)
  | .infinite negative => .infinite !negative
  | .nan => .nan

def isDigit (b : Nat) (c : Char) : Bool := (hexValue c).any (decide <| · < b)

def ofDigits (b : Nat) (ds : List Char) : Nat := ds.foldl (fun n c => b * n + (hexValue c).getD 0) 0

/-- Whether there is a minus, and what follows the sign. -/
def readSign : List Char → Bool × List Char
  | '-' :: cs => (true,cs)
  | '+' :: cs => (false,cs)
  | cs => (false,cs)

/-- Digits with a point among them and then, behind the mark, an exponent of the other base. -/
def readNumeral (b : Nat) (mark : Char) (base : Nat) (cs : List Char) : Option (ℚ × List Char) :=
  let whole := cs.span (isDigit b)
  let fraction := if whole.2.head? = some '.' then whole.2.tail.span (isDigit b) else ([],whole.2)
  let q : ℚ := ofDigits b (whole.1 ++ fraction.1) / (b : ℚ) ^ fraction.1.length
  let sign := readSign fraction.2.tail
  let exponent := sign.2.span (isDigit 10)
  if whole.1 ++ fraction.1 = [] then none
  else if fraction.2.head?.map Char.toLower = some mark ∧ exponent.1 ≠ [] then
    let e : ℤ := ofDigits 10 exponent.1
    some (q * (base : ℚ) ^ (if sign.1 then -e else e),exponent.2)
  else some (q,fraction.2)

def readMagnitude (cs : List Char) : Option (Double × List Char) :=
  let starts (word : String) := word.toList.isPrefixOf (cs.map Char.toLower)
  if starts "infinity" then some (.infinite false,cs.drop 8)
  else if starts "inf" then some (.infinite false,cs.drop 3)
  else if starts "nan" then
    let payload := (cs.drop 4).dropWhile fun c => c.isAlphanum || c == '_'
    some (.nan,if starts "nan(" ∧ payload.head? = some ')' then payload.tail else cs.drop 3)
  else
    ((if starts "0x" then readNumeral 16 'p' 2 (cs.drop 2) else none) <|> readNumeral 10 'e' 10 cs).map
      fun r => (ofRat r.1,r.2)

/-- The number that a text begins with, if only blanks come after it. The text ends at the first NUL. -/
def read (s : String) : Option Double :=
  let sign := readSign ((s.toList.takeWhile (· ≠ '\x00')).dropWhile isBlank)
  (readMagnitude sign.2).bind fun r =>
    if r.2.all isBlank then some (if sign.1 then r.1.neg else r.1) else none

/-! ### Whole numbers -/

variable {n : ℤ}

theorem ofInt_of_lt (h : |n| < 2 ^ 53) : ofInt n = .finite n := by
  have whole : roundAt 2 (max (lastDigit 2 53 n) (-1074)) n = n :=
    roundAt_intCast (by decide) (max_le (lastDigit_nonpos (by decide) (by decide) (by exact_mod_cast h)) (by decide)) n
  have small : ¬ (2 : ℚ) ^ 1024 ≤ |(n : ℚ)| := by
    rw [not_le,← Int.cast_abs]
    calc ((|n| : ℤ) : ℚ) < 2 ^ 53 := by exact_mod_cast h
      _ ≤ 2 ^ 1024 := pow_le_pow_right₀ (by norm_num) (by norm_num)
  rw [ofInt,ofRat,whole,if_neg small]

theorem printed_intCast (h : |n| < 10 ^ 14) : (finite n).printed = .finite n := by
  rw [printed,roundAt_intCast (by decide) (lastDigit_nonpos (by decide) (by decide) (by exact_mod_cast h))]
  exact ofInt_of_lt (h.trans (by norm_num))

example : read " 3.0" = some (.finite 3) ∧ read "1e1" = some (.finite 10) ∧ read "0x1p4" = some (.finite 16) ∧
    read "-inf" = some (.infinite true) ∧ read "many" = none ∧ (ofRat (1 / 10)).text = "0.1" := by
  decide +kernel

end Double

end FlowFabric.Foundation
