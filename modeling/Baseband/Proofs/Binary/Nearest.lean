import Mathlib.Algebra.Order.Field.Power
import Mathlib.Algebra.Order.Ring.Abs
import Mathlib.Tactic.FieldSimp
import Mathlib.Tactic.Linarith
import Mathlib.Tactic.Positivity
import Mathlib.Tactic.Ring
import Baseband.Binary

/-!
# Nearest numbers

A rounded number is a nearest number of a grid. This leaves open which of two is taken on a tie, and
nothing here depends on it: a larger number has no smaller nearest number, and a number of the grid
lies on the same side of a number and of its nearest one.

## Main statements

* `Nearest.mono`: rounding keeps the order.
* `nearest_roundScaled`: rounding to a whole number.
* `nearest_doubles`: rounding to a significand of 53 bits.
-/

namespace Baseband.Binary

structure Nearest (grid : Set ℚ) (q x : ℚ) : Prop where
  mem : x ∈ grid
  closest : ∀ y ∈ grid, |q - x| ≤ |q - y|

namespace Nearest

variable {grid : Set ℚ} {q q' x x' t : ℚ}

theorem of_mem (mem : q ∈ grid) : Nearest grid q q :=
  ⟨mem, fun y _ => by simp⟩

/-- What lies below a nearest number lies at least as far from `q`. -/
theorem midpoint_le (near : Nearest grid q x) (mem : t ∈ grid) (less : t < x) :
    t + x ≤ 2 * q := by
  have closer := near.closest t mem
  rcases abs_cases (q - x) with h | h <;> rcases abs_cases (q - t) with h' | h' <;> linarith

theorem le_midpoint (near : Nearest grid q x) (mem : t ∈ grid) (less : x < t) :
    2 * q ≤ x + t := by
  have closer := near.closest t mem
  rcases abs_cases (q - x) with h | h <;> rcases abs_cases (q - t) with h' | h' <;> linarith

/-- Rounding to a nearest number keeps the order. -/
theorem mono (near : Nearest grid q x) (near' : Nearest grid q' x') (less : q < q') :
    x ≤ x' := by
  by_contra! crossed
  have below := near.midpoint_le near'.mem crossed
  have above := near'.le_midpoint near.mem crossed
  linarith

/-- Rounding does not pass a number of the grid. -/
theorem le_of_le (near : Nearest grid q x) (mem : t ∈ grid) (le : q ≤ t) : x ≤ t := by
  by_contra! crossed
  have := near.midpoint_le mem crossed
  linarith

theorem ge_of_ge (near : Nearest grid q x) (mem : t ∈ grid) (ge : t ≤ q) : t ≤ x := by
  by_contra! crossed
  have := near.le_midpoint mem crossed
  linarith

theorem eq_of_mem (near : Nearest grid q x) (mem : q ∈ grid) : x = q :=
  le_antisymm (near.le_of_le mem le_rfl) (near.ge_of_ge mem le_rfl)

end Nearest

/-! ## Multiples of a unit -/

/-- Half a unit away, no other multiple of the unit is closer. -/
theorem closest_multiple {q unit : ℚ} {n : ℕ} (near : |q - n * unit| ≤ unit / 2) (k : ℕ) :
    |q - n * unit| ≤ |q - k * unit| := by
  have positive : 0 ≤ unit := by linarith [abs_nonneg (q - n * unit)]
  obtain ⟨below, above⟩ := abs_le.1 near
  rcases Nat.lt_trichotomy k n with less | rfl | more
  · have apart : (k + 1 : ℚ) * unit ≤ n * unit :=
      mul_le_mul_of_nonneg_right (by exact_mod_cast less) positive
    exact near.trans ((by linarith : unit / 2 ≤ q - k * unit).trans (le_abs_self _))
  · exact le_rfl
  · have apart : (n + 1 : ℚ) * unit ≤ k * unit :=
      mul_le_mul_of_nonneg_right (by exact_mod_cast more) positive
    exact near.trans ((by linarith : unit / 2 ≤ -(q - k * unit)).trans (neg_le_abs _))

/-! ## Whole numbers -/

def wholes : Set ℚ :=
  {q | ∃ n : ℕ, q = n}

/-- A whole number within a half of `q` is a nearest one. -/
theorem nearest_wholes {q : ℚ} {n : ℕ} (near : |q - n| ≤ 1 / 2) : Nearest wholes q n := by
  refine ⟨⟨n, rfl⟩, ?_⟩
  rintro _ ⟨k, rfl⟩
  have closest := @closest_multiple q 1 n (by rwa [mul_one]) k
  rwa [mul_one, mul_one] at closest

/-- The rounded quotient is within a half of the quotient, without dividing. -/
theorem roundQuotient_bounds (num : ℕ) {den : ℕ} (positive : 0 < den) :
    2 * num ≤ 2 * (roundQuotient num den * den) + den ∧
      2 * (roundQuotient num den * den) ≤ 2 * num + den := by
  have split := Nat.div_add_mod' num den
  have small := Nat.mod_lt num positive
  unfold roundQuotient
  dsimp only
  split_ifs
  · rw [Nat.add_mul, Nat.one_mul]
    omega
  · omega

/-- Rounding a quotient moves it by a half at most. -/
theorem abs_sub_roundQuotient_le (num : ℕ) {den : ℕ} (positive : 0 < den) :
    |(num / den : ℚ) - roundQuotient num den| ≤ 1 / 2 := by
  obtain ⟨above, below⟩ := roundQuotient_bounds num positive
  have above : (2 * num : ℚ) ≤ 2 * (roundQuotient num den * den) + den := by exact_mod_cast above
  have below : (2 * (roundQuotient num den * den) : ℚ) ≤ 2 * num + den := by exact_mod_cast below
  have positive : (0 : ℚ) < den := by exact_mod_cast positive
  rw [abs_le]
  constructor
  · rw [le_sub_iff_add_le, le_div_iff₀ positive]
    linarith
  · rw [sub_le_iff_le_add, div_le_iff₀ positive]
    linarith

/-- A scaled number is rounded to a nearest whole one. -/
theorem nearest_roundScaled (m : ℕ) (e : ℤ) :
    Nearest wholes (m * 2 ^ e) (roundScaled m e) := by
  unfold roundScaled
  split_ifs with whole
  · obtain ⟨k, rfl⟩ := Int.eq_ofNat_of_zero_le whole
    rw [Int.toNat_natCast, zpow_natCast, Nat.shiftLeft_eq, Nat.cast_mul, Nat.cast_pow,
      Nat.cast_ofNat]
    exact .of_mem ⟨m * 2 ^ k, by push_cast; rfl⟩
  · obtain ⟨k, same⟩ := Int.eq_ofNat_of_zero_le (a := -e) (by omega)
    have scaled : (m * 2 ^ e : ℚ) = m / (2 ^ k : ℕ) := by
      rw [show e = -(k : ℤ) by omega, zpow_neg, zpow_natCast, Nat.cast_pow, Nat.cast_ofNat,
        div_eq_mul_inv]
    rw [scaled, same, Int.toNat_natCast, Nat.one_shiftLeft]
    exact nearest_wholes (abs_sub_roundQuotient_le m (Nat.two_pow_pos k))

/-! ## Significands of 53 bits -/

/-- The numbers with a significand of 53 bits, down to the smallest unit. None is the largest. -/
def doubles : Set ℚ :=
  {q | ∃ (m : ℕ) (e : ℤ), m ≤ 2 ^ 53 ∧ -1074 ≤ e ∧ q = m * 2 ^ e}

theorem two_zpow_pos (e : ℤ) : (0 : ℚ) < 2 ^ e :=
  zpow_pos two_pos e

theorem two_pow_mul_zpow (k : ℕ) (e : ℤ) : (2 ^ k * 2 ^ e : ℚ) = 2 ^ (k + e) := by
  rw [zpow_add₀ two_ne_zero, zpow_natCast]

/-- A significand with `k` more bits, in a smaller unit. -/
theorem shifted_mul_zpow (m : ℕ) {k : ℕ} {e t : ℤ} (apart : k + t = e) :
    ((m * 2 ^ k : ℕ) * 2 ^ t : ℚ) = m * 2 ^ e := by
  rw [← apart, ← two_pow_mul_zpow, Nat.cast_mul, Nat.cast_pow, Nat.cast_ofNat, mul_assoc]

theorem zero_mem_doubles : 0 ∈ doubles :=
  ⟨0, 0, by omega, by omega, by simp⟩

theorem natCast_mem_doubles {n : ℕ} (fits : n ≤ 2 ^ 53) : (n : ℚ) ∈ doubles :=
  ⟨n, 0, fits, by omega, by simp⟩

theorem two_zpow_mem_doubles {e : ℤ} (low : -1074 ≤ e) : (2 ^ e : ℚ) ∈ doubles :=
  ⟨1, e, by omega, low, by simp⟩

/-- A number of the grid is a multiple of every smaller unit, and of a larger one as far as it is
not smaller than all numbers with a full significand of that unit. -/
theorem multiple_of_mem_doubles {t : ℚ} {e : ℤ} (mem : t ∈ doubles)
    (full : e = -1074 ∨ 2 ^ 52 * 2 ^ e ≤ t) : ∃ k : ℕ, t = k * 2 ^ e := by
  obtain ⟨m, e', fits, low, rfl⟩ := mem
  rcases le_or_gt e e' with le | less
  · obtain ⟨k, same⟩ := Int.eq_ofNat_of_zero_le (sub_nonneg.2 le)
    exact ⟨m * 2 ^ k, (shifted_mul_zpow m (by omega)).symm⟩
  · -- The unit is too small for the number to be any but the largest significand.
    have full := full.resolve_left (by omega)
    refine ⟨2 ^ 52, le_antisymm ?_ (by exact_mod_cast full)⟩
    have half : (2 : ℚ) ^ e' ≤ 2 ^ (e - 1) := zpow_le_zpow_right₀ one_le_two (by omega)
    rw [zpow_sub_one₀ two_ne_zero] at half
    calc (m * 2 ^ e' : ℚ) ≤ 2 ^ 53 * (2 ^ e * 2⁻¹) :=
          mul_le_mul (by exact_mod_cast fits) half (two_zpow_pos e').le (by positivity)
      _ = ((2 ^ 52 : ℕ) : ℚ) * 2 ^ e := by push_cast; ring

/-- A significand that is half a unit away at most is the nearest one, if the unit is the smallest
or the number has a full significand of that unit. -/
theorem nearest_doubles {q : ℚ} {n : ℕ} {e : ℤ} (fits : n ≤ 2 ^ 53) (low : -1074 ≤ e)
    (full : e = -1074 ∨ 2 ^ 52 * 2 ^ e ≤ q) (near : |q - n * 2 ^ e| ≤ 2 ^ e / 2) :
    Nearest doubles q (n * 2 ^ e) := by
  refine ⟨⟨n, e, fits, low, rfl⟩, fun t mem => ?_⟩
  by_cases reached : e = -1074 ∨ 2 ^ 52 * 2 ^ e ≤ t
  · obtain ⟨k, rfl⟩ := multiple_of_mem_doubles mem reached
    exact closest_multiple near k
  · -- The smallest full significand lies between.
    obtain ⟨apart, below⟩ := not_or.1 reached
    have full := full.resolve_left apart
    have closest := closest_multiple near (2 ^ 52)
    rw [Nat.cast_pow, Nat.cast_ofNat] at closest
    rw [abs_of_nonneg (by linarith : (0 : ℚ) ≤ q - 2 ^ 52 * 2 ^ e)] at closest
    rw [abs_of_nonneg (by linarith : 0 ≤ q - t)]
    linarith

end Baseband.Binary
