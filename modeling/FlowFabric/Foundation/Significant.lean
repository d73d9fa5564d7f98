import Mathlib.Algebra.Group.Nat.Defs
import Mathlib.Data.Nat.Log

/-! Numbers kept to a fixed count of digits: the integers of a double, and the printed form
of a number. -/
namespace FlowFabric.Foundation
open Nat

/-- The multiple of the unit that is nearest to the number, the even one of two. -/
def nearest (unit n : Nat) : Nat :=
  if 2 * (n % unit) < unit ∨ (2 * (n % unit) = unit ∧ n / unit % 2 = 0) then n / unit * unit
  else (n / unit + 1) * unit

/-- The number with its first `p` digits in base `b`. -/
def significant (b p n : Nat) : Nat := nearest (b ^ (log b n + 1 - p)) n

section
variable {b p n : Nat}

private theorem nearest_one (n : Nat) : nearest 1 n = n := by simp [nearest,mod_one]

private theorem nearest_zero (unit : Nat) : nearest unit 0 = 0 := by
  rcases Nat.eq_zero_or_pos unit with rfl | h
  · rfl
  · simp [nearest,h]

variable {unit m : Nat}

private theorem nearest_mul (hu : 0 < unit) (m : Nat) : nearest unit (m * unit) = m * unit := by
  simp [nearest,hu,Nat.mul_div_cancel m hu]

theorem mul_le_nearest (hu : 0 < unit) (h : m * unit ≤ n) : m * unit ≤ nearest unit n := by
  have hq : m ≤ n / unit := (le_div_iff_mul_le hu).mpr h
  unfold nearest
  split
  · exact mul_le_mul_right unit hq
  · exact mul_le_mul_right unit (hq.trans (le_succ _))

theorem significant_of_lt (h : n < b ^ p) : significant b p n = n := by
  rcases Nat.eq_zero_or_pos n with rfl | hn
  · exact nearest_zero _
  · have hlog := log_lt_of_lt_pow hn.ne' h
    have hunit : log b n + 1 - p = 0 := by omega
    rw [significant,hunit,pow_zero,nearest_one]

theorem pow_log_le_significant (hb : 1 < b) (hp : 0 < p) (hn : n ≠ 0) : b ^ log b n ≤ significant b p n := by
  have hle := pow_log_le_self b hn
  rcases lt_or_ge n (b ^ p) with hlt | hge
  · rwa [significant_of_lt hlt]
  · have hlog : p ≤ log b n := le_log_of_pow_le hb hge
    have hlead : b ^ (p - 1) * b ^ (log b n + 1 - p) = b ^ log b n := by
      rw [← pow_add]
      congr 1
      omega
    rw [significant,← hlead]
    exact mul_le_nearest (Nat.pow_pos (by omega)) (hlead ▸ hle)

private theorem pow_le_significant (hb : 1 < b) (hp : 0 < p) (h : b ^ p ≤ n) : b ^ p ≤ significant b p n := by
  have hn : n ≠ 0 := ((Nat.pow_pos (by omega)).trans_le h).ne'
  have hlog : p ≤ Nat.log b n := Nat.le_log_of_pow_le hb h
  exact (Nat.pow_le_pow_right (by omega) hlog).trans (pow_log_le_significant hb hp hn)

theorem significant_eq_self (hb : 1 < b) (hp : 0 < p) (h : significant b p n < b ^ p) : significant b p n = n := by
  refine significant_of_lt ?_
  by_contra hn
  exact absurd (pow_le_significant hb hp (Nat.le_of_not_lt hn)) (Nat.not_le_of_lt h)

theorem nearest_mono (hu : 0 < unit) (h : m ≤ n) : nearest unit m ≤ nearest unit n := by
  have hq : m / unit ≤ n / unit := Nat.div_le_div_right h
  rcases Nat.lt_or_eq_of_le hq with hlt | heq
  · have hup : nearest unit m ≤ (m / unit + 1) * unit := by
      unfold nearest
      split
      · exact mul_le_mul_right unit (le_succ _)
      · exact le_refl _
    exact hup.trans (mul_le_nearest hu ((mul_le_mul_right unit hlt).trans (div_mul_le_self n unit)))
  · -- in the same interval the remainders decide
    have hr : m % unit ≤ n % unit := by
      have hm := div_add_mod m unit
      have hn := div_add_mod n unit
      rw [heq] at hm
      omega
    unfold nearest
    rw [heq]
    split
    · split
      · exact le_refl _
      · exact mul_le_mul_right unit (le_succ _)
    · rw [if_neg (by omega)]

theorem significant_le_pow (hb : 1 < b) : significant b p n ≤ b ^ (log b n + 1) := by
  have hpow : b ^ (log b n + 1) = b ^ (log b n + 1 - (log b n + 1 - p)) * b ^ (log b n + 1 - p) := by
    rw [← pow_add]
    congr 1
    omega
  have hunit : 0 < b ^ (Nat.log b n + 1 - p) := Nat.pow_pos (by omega)
  calc significant b p n ≤ nearest (b ^ (Nat.log b n + 1 - p)) (b ^ (Nat.log b n + 1)) :=
        nearest_mono hunit (lt_pow_succ_log_self hb n).le
    _ = b ^ (log b n + 1) := by rw [hpow,nearest_mul hunit]

theorem significant_mono (hb : 1 < b) (hp : 0 < p) (h : m ≤ n) : significant b p m ≤ significant b p n := by
  have hlog : log b m ≤ log b n := log_mono_right h
  rcases lt_or_eq_of_le hlog with hlt | heq
  · have hn : n ≠ 0 := by
      rintro rfl
      simp at hlt
    calc significant b p m ≤ b ^ (Nat.log b m + 1) := significant_le_pow hb
      _ ≤ b ^ Nat.log b n := Nat.pow_le_pow_right (by omega) hlt
      _ ≤ significant b p n := pow_log_le_significant hb hp hn
  · rw [significant,significant,heq]
    exact nearest_mono (Nat.pow_pos (by omega)) h

end

def double (n : Nat) : Nat := significant 2 53 n

variable {n : Nat}

theorem double_of_lt (h : n < 2 ^ 53) : double n = n := significant_of_lt h

theorem double_eq_self (h : double n < 2 ^ 53) : double n = n := significant_eq_self (by decide) (by decide) h

theorem double_mono {m : Nat} (h : m ≤ n) : double m ≤ double n := significant_mono (by decide) (by decide) h

theorem double_pos (h : 0 < n) : 0 < double n := by
  have hone : double 1 = 1 := double_of_lt (by decide)
  have hle : double 1 ≤ double n := double_mono h
  omega

/-- The text of a number: its digits, or an exponent form that no integer command reads. -/
inductive Numeral
  | digits (n : Nat)
  | scientific (n : Nat)
  deriving DecidableEq

namespace Numeral

def value : Numeral → Nat
  | digits n => n
  | scientific n => n

def toNumber (text : Numeral) : Nat := double text.value

/-- A number is printed with fourteen significant digits. -/
def print (n : Nat) : Numeral :=
  if n < 10 ^ 14 then digits n else scientific (significant 10 14 n)

theorem print_of_lt {n : Nat} (h : n < 10 ^ 14) : print n = digits n := if_pos h

theorem toNumber_of_lt {n : Nat} (h : n < 2 ^ 53) : toNumber (digits n) = n := double_of_lt h

end Numeral

end FlowFabric.Foundation
