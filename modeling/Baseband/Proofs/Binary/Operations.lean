import Baseband.Proofs.Binary.Bits
import Baseband.Binary

/-!
# Operations on binary numbers

What the built-in operations give for finite numbers of 64 bits, as long as the result is not too
large. Numbers of the same sign and size lead to the same results; together with `Nearest.mono` this
means that the operations keep the order. A number of 32 bits is a number of 64 bits as well, so
nothing is rounded when it is widened.

## Main statements

* `denotes_add`, `denotes_mul`, `denotes_div`: a finite result is the nearest number.
* `Single.denotes_widen`: a number of 32 bits keeps its value.
-/

namespace Baseband

open Float.Model Float.Model.UnpackedFloat

namespace Binary

def Denotes (x : Float) (s : Sign) (q : ℚ) : Prop :=
  Sized x.toModel.unpack s q

variable {x x' y y' : Float} {s s' : Sign} {q q' r : ℚ} {u u' : UnpackedFloat}

/-- A finite number below the largest exponent survives packing. -/
theorem denotes_ofModel (sized : Sized u s q) (small : q < 2 ^ (1024 : ℤ)) :
    Denotes (.ofModel (.pack u)) s q := by
  have same := unpack_pack sized small
  change Sized (UnpackedFloat.unpack Format.binary64 (UnpackedFloat.pack Format.binary64 u)) s q
  rwa [same]

/-- A whole number of 64 bits. -/
theorem denotes_toFloat (n : UInt64) :
    ∃ r, Denotes n.toFloat .positive r ∧ Nearest doubles n.toNat r := by
  obtain ⟨r, sized, near⟩ := Sized.ofNat n.toNat
  refine ⟨r, denotes_ofModel sized ?_, near⟩
  calc r ≤ 2 ^ (64 : ℤ) := near.le_of_le (two_zpow_mem_doubles (by omega)) (by
        exact_mod_cast n.toNat_lt.le)
    _ < 2 ^ (1024 : ℤ) := zpow_lt_zpow_right₀ one_lt_two (by omega)

/-- Rounding does not take a number out of the range from well below its end. -/
theorem Nearest.lt_too_large (near : Nearest doubles q r) (small : q ≤ 2 ^ (1023 : ℤ)) :
    r < 2 ^ (1024 : ℤ) :=
  (near.le_of_le (two_zpow_mem_doubles (by omega)) small).trans_lt
    (zpow_lt_zpow_right₀ one_lt_two (by omega))

theorem denotes_add (left : Denotes x .positive q) (right : Denotes y .positive q')
    (small : q + q' ≤ 2 ^ (1023 : ℤ)) :
    ∃ r, Denotes (x + y) .positive r ∧ Nearest doubles (q + q') r := by
  obtain ⟨r, sized, near⟩ := Sized.add left right
  exact ⟨r, denotes_ofModel sized (near.lt_too_large small), near⟩

theorem denotes_div (left : Denotes x s q) (right : Denotes y s' q') (positive : 0 < q')
    (small : q / q' ≤ 2 ^ (1023 : ℤ)) :
    ∃ r, Denotes (x / y) (s / s') r ∧ Nearest doubles (q / q') r := by
  obtain ⟨r, sized, near⟩ := Sized.div left right positive
  exact ⟨r, denotes_ofModel sized (near.lt_too_large small), near⟩

/-- A product is finite unless it is too large. -/
theorem denotes_mul (left : Denotes x s q) (right : Denotes y s' q') :
    ∃ r, Nearest doubles (q * q') r ∧ (r < 2 ^ (1024 : ℤ) → Denotes (x * y) (s * s') r) ∧
      (2 ^ (1024 : ℤ) ≤ r → (x * y).toModel.unpack = .infinity (s * s')) := by
  obtain ⟨r, sized, near⟩ := Sized.mul left right
  exact ⟨r, near, denotes_ofModel sized, unpack_pack_of_too_large sized⟩

theorem positive_mul (s : Sign) : .positive * s = s := by
  cases s <;> rfl

theorem Unbounded.mul (unbounded : Unbounded u') :
    Unbounded (UnpackedFloat.mul Format.binary64 u u') := by
  rcases unbounded with rfl | ⟨s, rfl⟩
  · rcases u with _ | _ | _ | _ <;> exact .inl rfl
  · rcases u with _ | _ | _ | _ <;> first | exact .inl rfl | exact .inr ⟨_, rfl⟩

/-! ## Equal sizes -/

theorem Denotes.unique (denotes : Denotes x s q) (denotes' : Denotes x s' q') : s = s' ∧ q = q' :=
  Sized.unique denotes denotes'

theorem add_congr_right (same : Denotes y s q) (same' : Denotes y' s q) : x + y = x + y' := by
  change Float.ofModel (.pack (.add _ x.toModel.unpack y.toModel.unpack)) =
    .ofModel (.pack (.add _ x.toModel.unpack y'.toModel.unpack))
  rw [Sized.inj same same' rfl]

theorem mul_congr_left (same : Denotes x s q) (same' : Denotes x' s q) : x * y = x' * y := by
  change Float.ofModel (.pack (.mul _ x.toModel.unpack y.toModel.unpack)) =
    .ofModel (.pack (.mul _ x'.toModel.unpack y.toModel.unpack))
  rw [Sized.inj same same' rfl]

end Binary

/-! ## Numbers with 32 bits, widened -/

namespace Binary

variable {m : ℕ} {e : ℤ}

/-- A significand shifted to the front has 53 bits. -/
theorem full_significand (positive : 0 < m) (fits : m < 2 ^ 53) :
    2 ^ 52 ≤ m * 2 ^ (52 - m.log2) ∧ m * 2 ^ (52 - m.log2) < 2 ^ 53 := by
  have log := (Nat.log2_lt positive.ne').2 fits
  constructor
  · calc 2 ^ 52 = 2 ^ m.log2 * 2 ^ (52 - m.log2) := by
          rw [← pow_add, show m.log2 + (52 - m.log2) = 52 by omega]
      _ ≤ m * 2 ^ (52 - m.log2) := Nat.mul_le_mul_right _ (Nat.log2_self_le positive.ne')
  · calc m * 2 ^ (52 - m.log2) < 2 ^ (m.log2 + 1) * 2 ^ (52 - m.log2) :=
          Nat.mul_lt_mul_of_pos_right Nat.lt_log2_self (Nat.two_pow_pos _)
      _ = 2 ^ 53 := by rw [← pow_add, show m.log2 + 1 + (52 - m.log2) = 53 by omega]

/-- A number that fits is not rounded. -/
theorem nearest_double (positive : 0 < m) (fits : m < 2 ^ 53) (low : -1022 ≤ e + m.log2)
    (high : e + m.log2 ≤ 1023) :
    double.nearest m e = (e + m.log2 + 1022).toNat * 2 ^ 52 + m * 2 ^ (52 - m.log2) := by
  have log := (Nat.log2_lt positive.ne').2 fits
  have unit : max (e + m.log2 + 1 - 53) (-1074) = e + m.log2 - 52 := by omega
  have whole : e - (e + m.log2 - 52) = (52 - m.log2 : ℕ) := by omega
  have := full_significand positive fits
  rw [Format.nearest, if_neg positive.ne']
  simp only [double, Nat.cast_ofNat]
  rw [unit, whole, roundScaled, if_pos (Int.natCast_nonneg _), Int.toNat_natCast, Nat.shiftLeft_eq,
    Nat.shiftLeft_eq, show e + m.log2 - 52 + 1074 = e + m.log2 + 1022 by omega]
  exact min_eq_left (by omega)

/-- A number that fits has parts of the same size. -/
theorem parts_nearest_double (positive : 0 < m) (fits : m < 2 ^ 53) (low : -1022 ≤ e + m.log2)
    (high : e + m.log2 ≤ 1023) :
    double.nearest m e < double.infinity ∧
      ((double.parts (double.nearest m e)).1 * 2 ^ (double.parts (double.nearest m e)).2 : ℚ) =
        m * 2 ^ e := by
  have log := (Nat.log2_lt positive.ne').2 fits
  obtain ⟨full, less⟩ := full_significand positive fits
  rw [nearest_double positive fits low high]
  constructor
  · simp only [double]
    omega
  · have field : ((e + m.log2 + 1022).toNat * 2 ^ 52 + m * 2 ^ (52 - m.log2)) / 2 ^ 52 =
        (e + m.log2 + 1023).toNat := by omega
    have fraction : ((e + m.log2 + 1022).toNat * 2 ^ 52 + m * 2 ^ (52 - m.log2)) % 2 ^ 52 + 2 ^ 52 =
        m * 2 ^ (52 - m.log2) := by omega
    rw [parts_double, field, if_neg (by omega), fraction]
    dsimp only
    exact shifted_mul_zpow m (by omega)

/-- The bits of a number with a sign. -/
theorem bits_split (negative : Bool) {magnitude : ℕ} (fits : magnitude < 2 ^ 63) :
    let bits : UInt64 := .ofNat (if negative then 1 <<< 63 + magnitude else magnitude)
    bits.toBitVec.toNat % 2 ^ 63 = magnitude ∧ (2 ^ 63 ≤ bits.toBitVec.toNat ↔ negative) := by
  have sum : (if negative then 1 <<< 63 + magnitude else magnitude) < 2 ^ 64 := by
    rw [Nat.one_shiftLeft]
    split_ifs <;> omega
  dsimp only
  rw [UInt64.toNat_toBitVec, UInt64.toNat_ofNat', Nat.mod_eq_of_lt sum, Nat.one_shiftLeft]
  cases negative
  · exact ⟨Nat.mod_eq_of_lt fits, by simpa using fits⟩
  · exact ⟨by simpa using fits, by simp⟩

end Binary

namespace Single

open Binary

variable {x : Single}

def size (x : Single) : ℚ :=
  (single.parts x.magnitude).1 * 2 ^ (single.parts x.magnitude).2

theorem parts_bounds (finite : x.isFinite) :
    (single.parts x.magnitude).1 < 2 ^ 24 ∧ -149 ≤ (single.parts x.magnitude).2 ∧
      (single.parts x.magnitude).2 ≤ 104 := by
  have finite : x.magnitude < 0x7f800000 := of_decide_eq_true finite
  simp only [Format.parts, single, Nat.shiftRight_eq_div_pow, Nat.one_shiftLeft]
  split_ifs <;> dsimp only <;> omega

theorem size_nonneg : 0 ≤ x.size :=
  mul_nonneg (Nat.cast_nonneg _) (two_zpow_pos _).le

def sign (x : Single) : Sign :=
  if x.isNegative then .negative else .positive

/-- A finite number stays the same. -/
theorem denotes_widen (finite : x.isFinite) : Denotes x.widen x.sign x.size := by
  obtain ⟨fits, low, high⟩ := parts_bounds finite
  have size : x.size = (single.parts x.magnitude).1 * 2 ^ (single.parts x.magnitude).2 := rfl
  rw [widen, if_pos finite, sign]
  dsimp only
  generalize (single.parts x.magnitude).1 = m at *
  generalize (single.parts x.magnitude).2 = e at *
  obtain ⟨below, same⟩ : double.nearest m e < double.infinity ∧
      ((double.parts (double.nearest m e)).1 * 2 ^ (double.parts (double.nearest m e)).2 : ℚ) =
        m * 2 ^ e := by
    rcases Nat.eq_zero_or_pos m with rfl | positive
    · rw [Format.nearest, if_pos rfl]
      exact ⟨by decide, by simp [Format.parts]⟩
    · have log := (Nat.log2_lt positive.ne').2 fits
      exact parts_nearest_double positive (by omega) (by omega) (by omega)
  obtain ⟨magnitude, negative⟩ := bits_split x.isNegative (below.trans (by decide))
  refine denotes_ofModel ?_ ?_
  · have sized := sized_unpack (magnitude.symm ▸ below)
    rw [magnitude, same, ← size] at sized
    simpa only [negative] using sized
  · calc x.size = m * 2 ^ e := size
      _ ≤ 2 ^ 24 * 2 ^ (104 : ℤ) := mul_le_mul (by exact_mod_cast fits.le)
          (zpow_le_zpow_right₀ one_le_two high) (two_zpow_pos e).le (by positivity)
      _ = 2 ^ (128 : ℤ) := two_pow_mul_zpow 24 104
      _ < 2 ^ (1024 : ℤ) := zpow_lt_zpow_right₀ one_lt_two (by omega)

/-- Widening keeps a number without bound that way. -/
theorem unbounded_widen (special : ¬ x.isFinite) : Unbounded x.widen.toModel.unpack := by
  have high : ∃ magnitude, double.infinity ≤ magnitude ∧ magnitude < 2 ^ 63 ∧ x.widen =
      Float.ofBits (.ofNat (if x.isNegative then 1 <<< 63 + magnitude else magnitude)) := by
    rw [widen, if_neg special]
    refine ⟨_, ?_, ?_, rfl⟩ <;> split_ifs <;> decide
  obtain ⟨magnitude, high, fits, same⟩ := high
  rw [same]
  refine Unbounded.pack (unbounded_unpack ?_)
  rwa [(bits_split x.isNegative fits).1]

end Single

end Baseband
