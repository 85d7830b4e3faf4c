import Mathlib
import Baseband.Proofs.Binary.Nearest

/-!
# Numbers with 64 bits

What the built-in operations on unpacked numbers of 64 bits give. A finite number has a sign and a
size, and the size of a result is a nearest number to the exact one. Nothing is too large here: an
unpacked number has any exponent.

## Main statements

* `sized_roundWithAccuracy`: rounding a significand together with what is known of its fraction.
* `Sized.mul`, `Sized.add`, `Sized.div`, `Sized.ofNat`: the operations.
-/

namespace Baseband.Binary

open Float.Model Float.Model.UnpackedFloat

/-! ## Signs and sizes -/

/-- Of all significands and exponents of a number, those it is unpacked into: the significand is
full unless the exponent is the smallest. -/
structure Canonical (m : ℕ) (e : ℤ) : Prop where
  fits : m < 2 ^ 53
  low : -1074 ≤ e
  full : e = -1074 ∨ 2 ^ 52 ≤ m

inductive Sized : UnpackedFloat → Sign → ℚ → Prop
  | zero (s : Sign) : Sized (.zero s) s 0
  | finite (s : Sign) {m : ℕ} {e : ℤ} (positive : 0 < m) (canonical : Canonical m e) :
    Sized (.finite s m e positive) s (m * 2 ^ e)

section Unique

variable {u u' : UnpackedFloat} {s s' : Sign} {q q' : ℚ}

theorem finite_congr {m m' : ℕ} {e e' : ℤ} (positive : 0 < m) (positive' : 0 < m') (sameM : m = m')
    (sameE : e = e') : UnpackedFloat.finite s m e positive = .finite s m' e' positive' := by
  subst sameM sameE
  rfl

/-- A size has one unit. -/
theorem Canonical.le_of_eq {m m' : ℕ} {e e' : ℤ} (canonical : Canonical m e)
    (canonical' : Canonical m' e') (same : (m * 2 ^ e : ℚ) = m' * 2 ^ e') : e' ≤ e := by
  by_contra! less
  -- The significand with the larger unit is full, so the other one has too many bits.
  have full : 2 ^ 52 ≤ m' := canonical'.full.resolve_left (by have := canonical.low; omega)
  obtain ⟨k, apart⟩ := Int.eq_ofNat_of_zero_le (a := e' - e - 1) (by omega)
  rw [← shifted_mul_zpow m' (by omega : (k + 1 : ℕ) + e = e')] at same
  have same : m = m' * 2 ^ (k + 1) := by
    exact_mod_cast mul_right_cancel₀ (two_zpow_pos e).ne' same
  have := Nat.mul_le_mul full (Nat.pow_le_pow_right two_pos (Nat.le_add_left 1 k))
  have := canonical.fits
  omega

/-- A finite number is known by its sign and its size. -/
theorem Sized.inj (sized : Sized u s q) (sized' : Sized u' s q') (same : q = q') : u = u' := by
  have size_pos {m : ℕ} {e : ℤ} (positive : 0 < m) : (0 : ℚ) < m * 2 ^ e := by positivity
  rcases sized with _ | ⟨_, positive, canonical⟩ <;>
    rcases sized' with _ | ⟨_, positive', canonical'⟩
  · rfl
  · exact absurd same (size_pos positive').ne
  · exact absurd same (size_pos positive).ne'
  · rename_i m e m' e'
    obtain rfl : e = e' := le_antisymm (canonical'.le_of_eq canonical same.symm)
      (canonical.le_of_eq canonical' same)
    refine finite_congr positive positive' ?_ rfl
    exact_mod_cast mul_right_cancel₀ (two_zpow_pos e).ne' same

theorem Sized.unique (sized : Sized u s q) (sized' : Sized u s' q') : s = s' ∧ q = q' := by
  rcases sized with _ | _ <;> rcases sized' with _ | _ <;> exact ⟨rfl, rfl⟩

end Unique

/-! ## Residual bits -/

/-- The significand is that of `q` without the fraction, and the residual bits tell on which side of
a half the fraction is. -/
def Locates : ExtendedMantissa → ℚ → Prop
  | ⟨m, false, false⟩, q => q = m
  | ⟨m, false, true⟩, q => m < q ∧ q < m + 1 / 2
  | ⟨m, true, false⟩, q => q = m + 1 / 2
  | ⟨m, true, true⟩, q => m + 1 / 2 < q ∧ q < m + 1

namespace Locates

variable {em : ExtendedMantissa} {q : ℚ}

theorem exact (m : ℕ) : Locates (.ofMantissaAndAccuracy m .exact) m :=
  rfl

theorem le (located : Locates em q) : em.mantissa ≤ q := by
  rcases em with ⟨m, _ | _, _ | _⟩ <;> simp only [Locates] at located ⊢ <;> linarith

theorem lt (located : Locates em q) : q < em.mantissa + 1 := by
  rcases em with ⟨m, _ | _, _ | _⟩ <;> simp only [Locates] at located ⊢ <;> linarith

/-- Rounding moves the number by a half at most. -/
theorem near (located : Locates em q) : |q - em.roundedMantissa| ≤ 1 / 2 := by
  rw [abs_le]
  rcases em with ⟨m, _ | _, _ | _⟩ <;>
    simp only [Locates, ExtendedMantissa.roundedMantissa, ExtendedMantissa.accuracy,
      Accuracy.roundToNearestEven, Nat.cast_add, Nat.cast_one] at located ⊢
  case true.false =>
    -- On a tie the significand is made even.
    have bit : ((m % 2 : ℕ) : ℚ) ≤ 1 := by exact_mod_cast Nat.lt_succ_iff.1 (Nat.mod_lt m two_pos)
    have := (m % 2).cast_nonneg (α := ℚ)
    constructor <;> linarith
  all_goals constructor <;> linarith

/-- The remainder of a quotient locates its fraction. -/
theorem quotient (num : ℕ) {den : ℕ} (positive : 0 < den) :
    Locates (.ofMantissaAndAccuracy (num / den) (accuracyOfFraction (num % den) den))
      (num / den) := by
  have less := Nat.mod_lt num positive
  have positive : (0 : ℚ) < den := by exact_mod_cast positive
  have split : (num / den : ℚ) = (num / den : ℕ) + (num % den : ℕ) / den := by
    have : (num : ℚ) = (num / den : ℕ) * den + (num % den : ℕ) := by
      exact_mod_cast (Nat.div_add_mod' num den).symm
    rw [this]
    field_simp
  rw [split, accuracyOfFraction]
  generalize num / den = m
  generalize num % den = rest at *
  split_ifs with none
  · rw [none, Nat.cast_zero, zero_div, add_zero]
    exact exact m
  · have some : (0 : ℚ) < rest / den :=
      div_pos (by exact_mod_cast Nat.pos_of_ne_zero none) positive
    have whole : (rest / den : ℚ) < 1 := by
      rw [div_lt_one positive]
      exact_mod_cast less
    rcases lt_trichotomy (2 * rest) den with below | tie | above
    · have half : (rest / den : ℚ) < 1 / 2 := by
        rw [div_lt_div_iff₀ positive two_pos]
        exact_mod_cast (by omega : rest * 2 < 1 * den)
      rw [Nat.compare_eq_lt.2 below]
      exact And.intro (by linarith) (by linarith)
    · have half : (rest / den : ℚ) = 1 / 2 := by
        rw [div_eq_div_iff positive.ne' two_ne_zero]
        exact_mod_cast (by omega : rest * 2 = 1 * den)
      rw [Nat.compare_eq_eq.2 tie, half]
      rfl
    · have half : (1 / 2 : ℚ) < rest / den := by
        rw [div_lt_div_iff₀ two_pos positive]
        exact_mod_cast (by omega : 1 * den < rest * 2)
      rw [Nat.compare_eq_gt.2 above]
      exact And.intro (by linarith) (by linarith)

/-- One bit less of the significand: it is the new round bit. -/
theorem shiftRightOne (located : Locates em q) : Locates em.shiftRightOne (q / 2) := by
  obtain ⟨m, round, sticky⟩ := em
  obtain ⟨bit, lost, split⟩ : ∃ bit : Bool, (m % 2 != 0) = bit ∧
      (m : ℚ) = 2 * (m / 2 : ℕ) + bit.toNat := by
    refine ⟨_, rfl, ?_⟩
    have same : (m % 2 != 0).toNat = m % 2 := by
      rcases Nat.mod_two_eq_zero_or_one m with h | h <;> rw [h] <;> rfl
    rw [same]
    exact_mod_cast (Nat.div_add_mod m 2).symm
  unfold ExtendedMantissa.shiftRightOne
  dsimp only
  rw [lost]
  rcases bit with _ | _ <;> rcases round with _ | _ <;> rcases sticky with _ | _ <;>
    simp only [Locates, Bool.or_false, Bool.or_true, Bool.toNat_false, Bool.toNat_true,
      Nat.cast_zero, Nat.cast_one] at split located ⊢ <;>
    first | linarith | constructor <;> linarith

/-- Shifting bits out keeps track of the side of a half. -/
theorem shiftRight (located : Locates em q) (k : ℕ) : Locates (em >>> k) (q / 2 ^ k) := by
  change Locates (k.repeat ExtendedMantissa.shiftRightOne em) _
  induction k with
  | zero => rwa [Nat.repeat, pow_zero, div_one]
  | succ k ih =>
    rw [Nat.repeat, pow_succ, ← div_div]
    exact ih.shiftRightOne

end Locates

/-! ## Rounding -/

theorem targetExponent_eq (t : ℤ) : Format.binary64.targetExponent t = max (t - 53) (-1074) :=
  rfl

/-- A significand that fits is not shifted. -/
theorem shift_of_fits {n : ℕ} {t : ℤ} (fits : n < 2 ^ 53) (low : -1074 ≤ t) :
    shiftToTargetExponent Format.binary64 n t .exact = (⟨n, false, false⟩, t) := by
  have log : n.log2 < 53 := by
    rcases Nat.eq_zero_or_pos n with rfl | positive
    · decide
    · exact (Nat.log2_lt positive.ne').2 fits
  have still : (Format.binary64.targetExponent (totalExponent n t) - t).toNat = 0 := by
    rw [targetExponent_eq, totalExponent]
    omega
  rw [shiftToTargetExponent, shiftToExponent, still]
  simp only [Int.natCast_zero, add_zero]
  rfl

/-- A significand that rounding has carried to the next power of two is shifted by one bit. -/
theorem shift_of_carry {t : ℤ} (low : -1074 ≤ t) :
    shiftToTargetExponent Format.binary64 (2 ^ 53) t .exact = (⟨2 ^ 52, false, false⟩, t + 1) := by
  have once : (Format.binary64.targetExponent (totalExponent (2 ^ 53) t) - t).toNat = 1 := by
    rw [targetExponent_eq, totalExponent, Nat.log2_two_pow]
    omega
  rw [shiftToTargetExponent, shiftToExponent, once]
  rfl

/-- What is left of rounding after the first shift: a significand that may have been carried. -/
theorem sized_of_first (s : Sign) {m n : ℕ} {e t : ℤ} {acc : Accuracy} {em : ExtendedMantissa}
    (first : shiftToTargetExponent Format.binary64 m e acc = (em, t))
    (rounded : em.roundedMantissa = n)
    (fits : n ≤ 2 ^ 53) (low : -1074 ≤ t) (full : t = -1074 ∨ 2 ^ 52 ≤ n) :
    Sized (roundWithAccuracy Format.binary64 s m e acc) s (n * 2 ^ t) := by
  subst rounded
  rw [roundWithAccuracy, first]
  dsimp only
  rcases fits.lt_or_eq with fits | carried
  · rw [shift_of_fits fits low]
    rcases Nat.eq_zero_or_pos em.roundedMantissa with none | positive
    · rw [dif_pos none, none, Nat.cast_zero, zero_mul]
      exact .zero s
    · rw [dif_neg positive.ne']
      exact .finite s positive ⟨fits, low, full⟩
  · rw [carried, shift_of_carry low]
    have shifted : ((2 ^ 53 : ℕ) * 2 ^ t : ℚ) = (2 ^ 52 : ℕ) * 2 ^ (t + 1) :=
      shifted_mul_zpow (2 ^ 52) (Int.add_comm 1 t)
    rw [dif_neg (Nat.two_pow_pos 52).ne', shifted]
    exact .finite s _ ⟨Nat.pow_lt_pow_right one_lt_two (by omega), by omega, .inr le_rfl⟩

variable {m : ℕ} {e : ℤ} {acc : Accuracy} {q : ℚ}

/-- A number in units of the target exponent has 53 bits before the point, or fewer under the
smallest unit. -/
theorem units_bounds {t : ℤ} {k : ℕ} (least : m ≤ q) (most : q < m + 1)
    (target : Format.binary64.targetExponent (totalExponent m e) = t) (landed : e + k = t) :
    q / 2 ^ k < 2 ^ 53 ∧ (t = -1074 ∨ 2 ^ 52 ≤ q / 2 ^ k) := by
  rw [targetExponent_eq, totalExponent] at target
  constructor
  · rw [div_lt_iff₀ (by positivity), ← pow_add]
    calc q < ((m + 1 : ℕ) : ℚ) := by exact_mod_cast most
      _ ≤ ((2 ^ (m.log2 + 1) : ℕ) : ℚ) := by exact_mod_cast Nat.lt_log2_self
      _ ≤ 2 ^ (53 + k) := by
        rw [Nat.cast_pow, Nat.cast_ofNat]
        exact pow_le_pow_right₀ one_le_two (by omega)
  · refine or_iff_not_imp_left.2 fun apart => ?_
    have positive : m ≠ 0 := by
      rintro rfl
      rw [Nat.log2_zero] at target
      omega
    rw [le_div_iff₀ (by positivity), ← pow_add, show 52 + k = m.log2 by omega]
    exact le_trans (by exact_mod_cast Nat.log2_self_le positive) least

/-- Rounding gives a nearest number, if the significand has at least as many bits as the result
keeps. -/
theorem sized_roundWithAccuracy (s : Sign)
    (located : Locates (.ofMantissaAndAccuracy m acc) q)
    (fine : e ≤ Format.binary64.targetExponent (totalExponent m e)) :
    ∃ r, Sized (roundWithAccuracy Format.binary64 s m e acc) s r ∧
      Nearest doubles (q * 2 ^ e) r := by
  obtain ⟨t, target⟩ : ∃ t, Format.binary64.targetExponent (totalExponent m e) = t := ⟨_, rfl⟩
  have low : -1074 ≤ t := target ▸ le_max_right _ _
  rw [target] at fine
  obtain ⟨k, landed⟩ := Int.eq_ofNat_of_zero_le (sub_nonneg.2 fine)
  have first : shiftToTargetExponent Format.binary64 m e acc =
      (ExtendedMantissa.ofMantissaAndAccuracy m acc >>> k, t) := by
    rw [shiftToTargetExponent, shiftToExponent, target, landed, Int.toNat_natCast]
    congr 1
    omega
  have near := (located.shiftRight k).near
  generalize rounded : (ExtendedMantissa.ofMantissaAndAccuracy m acc >>> k).roundedMantissa = n
  rw [rounded] at near
  have mantissa : (ExtendedMantissa.ofMantissaAndAccuracy m acc).mantissa = m := by
    rcases acc with _ | _ | _ | _ <;> rfl
  obtain ⟨fits, full⟩ := units_bounds (mantissa ▸ located.le) (mantissa ▸ located.lt)
    target (show e + k = t by omega)
  have fits' : n ≤ 2 ^ 53 := by
    exact_mod_cast (nearest_wholes near).le_of_le ⟨2 ^ 53, rfl⟩ (by exact_mod_cast fits.le)
  have full' : t = -1074 ∨ 2 ^ 52 ≤ n := full.imp_right fun full => by
    exact_mod_cast (nearest_wholes near).ge_of_ge ⟨2 ^ 52, rfl⟩ (by exact_mod_cast full)
  refine ⟨n * 2 ^ t, sized_of_first s first rounded fits' low full', ?_⟩
  have scaled : q * 2 ^ e = q / 2 ^ k * 2 ^ t := by
    rw [← (by omega : k + e = t), ← two_pow_mul_zpow]
    field_simp
  rw [scaled]
  refine nearest_doubles fits' low (full.imp_right fun full => ?_) ?_
  · exact mul_le_mul_of_nonneg_right full (two_zpow_pos t).le
  · calc |q / 2 ^ k * 2 ^ t - n * 2 ^ t| = |q / 2 ^ k - n| * 2 ^ t := by
          rw [← sub_mul, abs_mul, abs_of_pos (two_zpow_pos t)]
      _ ≤ 1 / 2 * 2 ^ t := mul_le_mul_of_nonneg_right near (two_zpow_pos t).le
      _ = 2 ^ t / 2 := by rw [one_div, inv_mul_eq_div]

theorem log2_shiftLeft (positive : 0 < m) (k : ℕ) : (m <<< k).log2 = m.log2 + k := by
  induction k with
  | zero => rfl
  | succ k ih =>
    have more : m <<< k ≠ 0 := by
      rw [Nat.shiftLeft_eq]
      positivity
    rw [Nat.shiftLeft_succ, Nat.log2_two_mul more, ih, Nat.add_assoc]

/-- A significand with too few bits is given more of them first. -/
theorem sized_round (s : Sign) (positive : 0 < m) :
    ∃ r, Sized (UnpackedFloat.round Format.binary64 s m e) s r ∧
      Nearest doubles (m * 2 ^ e) r := by
  rw [UnpackedFloat.round, decreaseExponent]
  generalize same : (e - Format.binary64.targetExponent (totalExponent m e)).toNat = k
  have fine : e - k ≤ Format.binary64.targetExponent (totalExponent (m <<< k) (e - k)) := by
    have kept : totalExponent (m <<< k) (e - k) = totalExponent m e := by
      rw [totalExponent, totalExponent, log2_shiftLeft positive]
      omega
    rw [kept]
    omega
  have scaled : ((m <<< k : ℕ) * 2 ^ (e - k) : ℚ) = m * 2 ^ e := by
    rw [Nat.shiftLeft_eq, shifted_mul_zpow m (add_sub_cancel _ e)]
  rw [← scaled]
  exact sized_roundWithAccuracy s (.exact _) fine

/-! ## Operations -/

theorem decreaseExponent_fst {m : ℕ} {e t : ℤ} (less : t ≤ e) :
    ((decreaseExponent m e t).1 * 2 ^ t : ℚ) = m * 2 ^ e := by
  obtain ⟨k, same⟩ := Int.eq_ofNat_of_zero_le (sub_nonneg.2 less)
  rw [decreaseExponent, same, Int.toNat_natCast, Nat.shiftLeft_eq]
  exact shifted_mul_zpow m (by omega)

/-- The product of canonical significands has as many bits as the result keeps. -/
theorem fine_mul {m m' : ℕ} {e e' : ℤ} (positive : 0 < m) (canonical : Canonical m e)
    (positive' : 0 < m') (canonical' : Canonical m' e') :
    e + e' ≤ Format.binary64.targetExponent (totalExponent (m * m') (e + e')) := by
  have lows := canonical.low
  have lows' := canonical'.low
  have long (full : 2 ^ 52 ≤ m * m') : 52 ≤ (m * m').log2 :=
    (Nat.le_log2 (Nat.mul_pos positive positive').ne').2 full
  rw [targetExponent_eq, totalExponent]
  rcases canonical.full with least | full
  · rcases canonical'.full with least' | full'
    · omega
    · have := long (full'.trans (Nat.le_mul_of_pos_left m' positive))
      omega
  · have := long (full.trans (Nat.le_mul_of_pos_right m positive'))
    omega

/-- The quotient of significands, the first one shifted, has as many bits as the result keeps. -/
theorem fine_div {m m' k : ℕ} {e e' t : ℤ} (dividend : 0 < m) (divisor : 0 < m')
    (target : min (e - e') (Format.binary64.targetExponent
      (totalExponent m e - totalExponent m' e')) = t)
    (shift : (e - e' - t).toNat = k) :
    t ≤ Format.binary64.targetExponent (totalExponent (m <<< k / m') t) := by
  rw [targetExponent_eq, totalExponent, totalExponent] at target
  rw [targetExponent_eq, totalExponent]
  rcases le_or_gt t (-1074) with least | above
  · omega
  · have long : 53 + m'.log2 ≤ m.log2 + k := by omega
    have full : 2 ^ 52 ≤ m <<< k / m' := by
      rw [Nat.le_div_iff_mul_le divisor, Nat.shiftLeft_eq]
      calc 2 ^ 52 * m' ≤ 2 ^ 52 * 2 ^ (m'.log2 + 1) :=
            Nat.mul_le_mul_left _ Nat.lt_log2_self.le
        _ = 2 ^ (53 + m'.log2) := by rw [← pow_add, Nat.add_comm m'.log2, ← Nat.add_assoc]
        _ ≤ 2 ^ (m.log2 + k) := Nat.pow_le_pow_right two_pos long
        _ = 2 ^ m.log2 * 2 ^ k := pow_add ..
        _ ≤ m * 2 ^ k := Nat.mul_le_mul_right _ (Nat.log2_self_le dividend.ne')
    have := (Nat.le_log2 (Nat.pos_of_ne_zero fun none => by simp [none] at full).ne').2 full
    omega

namespace Sized

variable {a b : UnpackedFloat} {s s' : Sign} {q q' : ℚ}

theorem nonneg (sized : Sized a s q) : 0 ≤ q := by
  rcases sized with _ | ⟨_, positive, canonical⟩
  · exact le_rfl
  · positivity

theorem mem (sized : Sized a s q) : q ∈ doubles := by
  rcases sized with _ | ⟨_, positive, canonical⟩
  · exact zero_mem_doubles
  · exact ⟨_, _, canonical.fits.le, canonical.low, rfl⟩

/-- The product of two numbers is a number nearest to the product of their sizes. -/
theorem mul (sized : Sized a s q) (sized' : Sized b s' q') :
    ∃ r, Sized (UnpackedFloat.mul Format.binary64 a b) (s * s') r ∧ Nearest doubles (q * q') r := by
  rcases sized with _ | ⟨_, positive, canonical⟩
  · rw [zero_mul]
    refine ⟨0, ?_, .of_mem zero_mem_doubles⟩
    rcases sized' with _ | _ <;> exact .zero _
  · rcases sized' with _ | ⟨_, positive', canonical'⟩
    · rw [mul_zero]
      exact ⟨0, .zero _, .of_mem zero_mem_doubles⟩
    · obtain ⟨r, sized, near⟩ := sized_roundWithAccuracy (s * s') (.exact _)
        (fine_mul positive canonical positive' canonical')
      refine ⟨r, sized, ?_⟩
      rw [zpow_add₀ two_ne_zero] at near
      push_cast at near
      rwa [mul_mul_mul_comm]

/-- A scaled whole number is rounded to a nearest number. -/
theorem normalize (n : ℕ) (e : ℤ) :
    ∃ r, Sized (UnpackedFloat.normalize Format.binary64 n e .positive) .positive r ∧
      Nearest doubles (n * 2 ^ e) r := by
  rw [UnpackedFloat.normalize]
  rcases Nat.eq_zero_or_pos n with rfl | positive
  · refine ⟨0, .zero _, ?_⟩
    rw [Nat.cast_zero, zero_mul]
    exact .of_mem zero_mem_doubles
  · rw [Int.compare_eq_gt.2 (Int.natCast_pos.2 positive)]
    exact sized_round .positive positive

theorem ofNat (n : ℕ) :
    ∃ r, Sized (UnpackedFloat.ofNat Format.binary64 n) .positive r ∧ Nearest doubles n r := by
  have whole := normalize n 0
  rwa [zpow_zero, mul_one] at whole

/-- The sum of two numbers is a number nearest to the sum of their sizes. -/
theorem add (sized : Sized a .positive q) (sized' : Sized b .positive q') :
    ∃ r, Sized (UnpackedFloat.add Format.binary64 a b) .positive r ∧
      Nearest doubles (q + q') r := by
  rcases sized with _ | ⟨_, positive, canonical⟩
  · rw [zero_add]
    refine ⟨q', ?_, .of_mem sized'.mem⟩
    rcases sized' with _ | ⟨_, positive', canonical'⟩
    · exact .zero _
    · exact .finite _ positive' canonical'
  · rcases sized' with _ | ⟨_, positive', canonical'⟩
    · rw [add_zero]
      exact ⟨_, .finite _ positive canonical, .of_mem ⟨_, _, canonical.fits.le, canonical.low, rfl⟩⟩
    · rename_i m e m' e'
      rw [← decreaseExponent_fst (min_le_left e e'), ← decreaseExponent_fst (min_le_right e e'),
        ← add_mul, ← Nat.cast_add]
      exact normalize _ _

/-- The quotient of two numbers is a number nearest to the quotient of their sizes. -/
theorem div (sized : Sized a s q) (sized' : Sized b s' q') (positive : 0 < q') :
    ∃ r, Sized (UnpackedFloat.div Format.binary64 a b) (s / s') r ∧
      Nearest doubles (q / q') r := by
  rcases sized' with _ | ⟨_, divisor, canonical'⟩
  · exact absurd positive (lt_irrefl 0)
  rcases sized with _ | ⟨_, dividend, canonical⟩
  · rw [zero_div]
    exact ⟨0, .zero _, .of_mem zero_mem_doubles⟩
  rename_i m' e' m e
  rw [UnpackedFloat.div, divCore]
  dsimp only
  obtain ⟨t, target⟩ : ∃ t, min (e - e') (Format.binary64.targetExponent
    (totalExponent m e - totalExponent m' e')) = t := ⟨_, rfl⟩
  rw [target]
  generalize shift : (e - e' - t).toNat = k
  have located := Locates.quotient (m <<< k) divisor
  obtain ⟨r, sized, near⟩ := sized_roundWithAccuracy (s / s') located
    (fine_div dividend divisor target shift)
  have scaled : ((m <<< k : ℕ) / m' * 2 ^ t : ℚ) = m * 2 ^ e / (m' * 2 ^ e') := by
    rw [div_mul_eq_mul_div, Nat.shiftLeft_eq, shifted_mul_zpow m (by omega : k + t = e - e'),
      zpow_sub₀ two_ne_zero]
    field_simp
  rw [scaled] at near
  exact ⟨r, sized, near⟩

end Sized

end Baseband.Binary
