import Mathlib.Algebra.Group.Int.Defs
import FlowFabric.Foundation.Hash
import FlowFabric.Foundation.Script

/-! Strict decoders of a hash: fields that are required, fields that may be missing and fields
that are numbers. Every failure names its field. -/
namespace FlowFabric.Foundation

/-- The value of a field: a text, or a number as it was printed. -/
inductive FieldValue
  | text (s : String)
  | number (n : Int)
  | scientific (n : Nat)
  deriving DecidableEq

abbrev Fields := Hash FieldValue

namespace FieldValue

def isEmpty : FieldValue → Bool
  | text s => decide (s = "")
  | number _ | scientific _ => false

/-- The digits of a printed number, with the zeros at the end left out. -/
def exponentForm (n : Nat) : String :=
  let digits := Nat.toDigits 10 n
  let fraction := ((digits.drop 1).reverse.dropWhile (· = '0')).reverse
  String.ofList (digits.take 1 ++ (if fraction.isEmpty then [] else '.' :: fraction)) ++
    "e+" ++ toString (digits.length - 1)

def render : FieldValue → String
  | text s => s
  | number n => toString n
  | scientific n => exponentForm n

/-- A number as it is printed by a script. -/
def print (n : Nat) : FieldValue :=
  match Numeral.print n with
  | .digits n => number n
  | .scientific n => scientific n

/-- A signed number as it is printed by a script. -/
def printInt : Int → FieldValue
  | .ofNat n => print n
  | .negSucc n => if n + 1 < 10 ^ 14 then number (.negSucc n) else text ("-" ++ (print (n + 1)).render)

/-- The integer that a value denotes, within the range of a type. A text that is not a printed
number is none. -/
def parse (lower upper : Int) : FieldValue → Except String Int
  | number n =>
    if n < lower then
      .error (if lower = 0 then "invalid digit found in string" else "number too small to fit in target type")
    else if upper ≤ n then .error "number too large to fit in target type"
    else .ok n
  | text _ | scientific _ => .error "invalid digit found in string"

def inRange (lower upper : Int) (v : FieldValue) : Prop := ∃ n, v = number n ∧ lower ≤ n ∧ n < upper

variable {lower upper n : Int}

private theorem parse_ok {v : FieldValue} : v.parse lower upper = .ok n ↔ v = number n ∧ lower ≤ n ∧ n < upper := by
  cases v with
  | number m =>
    rw [parse]
    by_cases hl : m < lower
    · rw [if_pos hl]
      constructor
      · intro h
        cases h
      · rintro ⟨⟨⟩,h,-⟩
        omega
    · rw [if_neg hl]
      by_cases hu : upper ≤ m
      · rw [if_pos hu]
        constructor
        · intro h
          cases h
        · rintro ⟨⟨⟩,-,h⟩
          omega
      · rw [if_neg hu]
        constructor
        · intro h
          cases h
          exact ⟨rfl,by omega,by omega⟩
        · rintro ⟨⟨⟩,-,-⟩
          rfl
  | text | scientific => simp [parse]

theorem inRange_number : (number n).inRange lower upper ↔ lower ≤ n ∧ n < upper := by
  constructor
  · rintro ⟨m,⟨⟩,h⟩
    exact h
  · intro h
    exact ⟨n,rfl,h⟩

theorem inRange_print {n : Nat} : (print n).inRange lower upper ↔ n < 10 ^ 14 ∧ lower ≤ n ∧ (n : Int) < upper := by
  unfold print Numeral.print
  by_cases h : n < 10 ^ 14
  · rw [if_pos h]
    exact inRange_number.trans (iff_and_self.mpr fun _ => h)
  · rw [if_neg h]
    constructor
    · rintro ⟨m,⟨⟩,-⟩
    · rintro ⟨hn,-⟩
      exact absurd hn h

theorem inRange_printInt : (printInt n).inRange lower upper ↔ (-10 ^ 14 < n ∧ n < 10 ^ 14) ∧ lower ≤ n ∧ n < upper := by
  cases n with
  | ofNat =>
    rw [printInt,inRange_print]
    simp only [Int.ofNat_eq_natCast]
    omega
  | negSucc n =>
    rw [printInt]
    by_cases h : n + 1 < 10 ^ 14
    · rw [if_pos h,inRange_number]
      omega
    · rw [if_neg h]
      constructor
      · rintro ⟨m,⟨⟩,-⟩
      · omega

theorem isEmpty_print (n : Nat) : (print n).isEmpty = false := by
  unfold print
  split <;> rfl

theorem isEmpty_printInt (n : Int) : (printInt n).isEmpty = false := by
  cases n with
  | ofNat n => exact isEmpty_print n
  | negSucc =>
    rw [printInt]
    split
    · rfl
    · simp [isEmpty]

end FieldValue

structure Corruption where
  context : String
  field : Option String
  message : String
  deriving DecidableEq

def Corruption.detail (c : Corruption) : String :=
  match c.field with
  | some field => c.context ++ ": " ++ field ++ ": " ++ c.message
  | none => c.context ++ ": " ++ c.message

def present (raw : Fields) (field : String) : Option FieldValue := (raw.lookup field).filter fun v => !v.isEmpty

def required (context : String) (raw : Fields) (field message : String) : Except Corruption FieldValue :=
  demand (present raw field) ⟨context,some field,message⟩

/-- A number that may be missing, but not malformed. -/
def parseStrict (kind : String) (lower upper : Int) (context : String) (raw : Fields) (field : String) :
    Except Corruption (Option Int) :=
  match present raw field with
  | none => .ok none
  | some v =>
    match v.parse lower upper with
    | .ok n => .ok (some n)
    | .error e => .error ⟨context,some field,"is not a valid " ++ kind ++ " ('" ++ v.render ++ "'): " ++ e⟩

def parseTs : String → Fields → String → Except Corruption (Option Int) := parseStrict "ms timestamp" (-2 ^ 63) (2 ^ 63)

def parseU32Strict : String → Fields → String → Except Corruption (Option Int) := parseStrict "u32" 0 (2 ^ 32)

def parseU64Strict : String → Fields → String → Except Corruption (Option Int) := parseStrict "u64" 0 (2 ^ 64)

def numberRequired (parse : String → Fields → String → Except Corruption (Option Int)) (context : String)
    (raw : Fields) (field message : String) : Except Corruption Int := do
  let n ← parse context raw field
  demand n ⟨context,some field,message⟩

section
variable {kind context field : String} {lower upper n : Int} {raw : Fields} {v : FieldValue}

theorem parseStrict_some : parseStrict kind lower upper context raw field = .ok (some n) ↔
      present raw field = some (.number n) ∧ lower ≤ n ∧ n < upper := by
  cases hp : present raw field with
  | none => simp [parseStrict,hp]
  | some v =>
    cases hv : v.parse lower upper with
    | ok =>
      obtain ⟨rfl,hl,hu⟩ := FieldValue.parse_ok.mp hv
      simp only [parseStrict,hp,hv]
      constructor
      · intro h
        cases h
        exact ⟨rfl,hl,hu⟩
      · rintro ⟨h,-,-⟩
        cases h
        rfl
    | error =>
      simp only [parseStrict,hp,hv]
      constructor
      · intro h
        cases h
      · rintro ⟨h,hl,hu⟩
        cases h
        rw [FieldValue.parse_ok.mpr ⟨rfl,hl,hu⟩] at hv
        cases hv

theorem parseStrict_none : parseStrict kind lower upper context raw field = .ok none ↔ present raw field = none := by
  cases hp : present raw field with
  | none => simp [parseStrict,hp]
  | some v => cases hv : v.parse lower upper <;> simp [parseStrict,hp,hv]

variable {message : String}

theorem required_ok : required context raw field message = .ok v ↔ present raw field = some v := demand_ok _ _ _

theorem numberRequired_ok : numberRequired (parseStrict kind lower upper) context raw field message = .ok n ↔
      present raw field = some (.number n) ∧ lower ≤ n ∧ n < upper := by
  unfold numberRequired
  rw [bind_ok]
  constructor
  · rintro ⟨o,ho,hn⟩
    rw [demand_ok] at hn
    subst hn
    exact parseStrict_some.mp ho
  · intro h
    exact ⟨some n,parseStrict_some.mpr h,rfl⟩

theorem present_of_lookup (h : raw.lookup field = some v) (set : v.isEmpty = false) : present raw field = some v := by
  rw [present,h]
  simp [Option.filter,set]

theorem lookup_of_present (h : present raw field = some v) : raw.lookup field = some v := by
  exact (Option.filter_eq_some_iff.mp h).1

theorem present_eq (h : raw.lookup field = some v) : present raw field = if v.isEmpty = true then none else some v := by
  rw [present,h]
  cases hv : v.isEmpty <;> simp [Option.filter,hv]

theorem present_isSome (h : raw.lookup field = some v) : (present raw field).isSome = true ↔ v.isEmpty = false := by
  rw [present_eq h]
  cases v.isEmpty <;> simp

variable {P : FieldValue → Prop}

section
variable (h : raw.lookup field = some v)
include h

theorem present_forall : (∀ w, present raw field = some w → P w) ↔ (v.isEmpty = false → P v) := by
  rw [present_eq h]
  cases v.isEmpty <;> simp

theorem present_exists : (∃ w, present raw field = some w ∧ P w) ↔ v.isEmpty = false ∧ P v := by
  rw [present_eq h]
  cases v.isEmpty <;> simp

theorem present_number :
    (∃ m : Int, present raw field = some (.number m) ∧ lower ≤ m ∧ m < upper) ↔ v.inRange lower upper := by
  constructor
  · rintro ⟨m,hm,hb⟩
    have he := (lookup_of_present hm).symm.trans h
    cases he
    exact ⟨m,rfl,hb⟩
  · rintro ⟨m,rfl,hb⟩
    exact ⟨m,present_of_lookup h rfl,hb⟩

end

theorem parseStrict_isOk : (∃ o, parseStrict kind lower upper context raw field = .ok o) ↔
      ∀ v, present raw field = some v → v.inRange lower upper := by
  constructor
  · rintro ⟨o,h⟩ v hv
    cases o with
    | none =>
      rw [parseStrict_none.mp h] at hv
      cases hv
    | some n =>
      obtain ⟨hp,hl,hu⟩ := parseStrict_some.mp h
      rw [hp] at hv
      cases hv
      exact ⟨n,rfl,hl,hu⟩
  · intro h
    cases hp : present raw field with
    | none => exact ⟨none,parseStrict_none.mpr hp⟩
    | some v =>
      obtain ⟨n,rfl,hl,hu⟩ := h v hp
      exact ⟨some n,parseStrict_some.mpr ⟨hp,hl,hu⟩⟩

end

end FlowFabric.Foundation
