import Baseband.Proofs.Binary.Double

/-!
# The bits of numbers with 64 bits

What a number is unpacked into are the parts that `Format.parts` reads off its bits, and packing
loses nothing but the size of numbers that are too large.

## Main statements

* `sized_unpack`, `unbounded_unpack`: the bits of finite numbers and of the others.
* `unpack_pack`, `unpack_pack_of_too_large`: packed numbers.
-/

namespace Baseband.Binary

open Float.Model Float.Model.UnpackedFloat

variable {m : ℕ} {e : ℤ} {u : UnpackedFloat} {s : Sign} {q : ℚ}

def Unbounded (u : UnpackedFloat) : Prop :=
  u = .notANumber ∨ ∃ s, u = .infinity s

/-- A number without bound has no size. -/
theorem Unbounded.not_sized (unbounded : Unbounded u) : ¬ Sized u s q := by
  rintro (_ | _) <;> rcases unbounded with same | ⟨_, same⟩ <;> cases same

/-! ## Components -/

section Components

variable {field : BitVec 11} {fraction : BitVec 52}

/-- An exponent field of zero stands for the smallest exponent and no hidden bit. -/
theorem unpack_subnormal (some : fraction ≠ 0#52) :
    UnpackedFloat.unpack Format.binary64 (packComponents Format.binary64 s 0#11 fraction) =
      .finite s fraction.toNat (-1074) (Nat.pos_of_ne_zero fun none =>
        some (BitVec.eq_of_toNat_eq none)) := by
  rw [UnpackedFloat.unpack]
  simp only [unpackExponent_packComponents, unpackMantissa_packComponents,
    unpackSign_packComponents, Sign.ofBitVec_toBitVec]
  refine (if_neg (by decide)).trans ((if_pos trivial).trans ?_)
  exact dif_neg some

/-- Any other exponent field of a number stands for its exponent and a hidden bit. -/
theorem unpack_normal (ordinary : field ≠ -1#11) (normal : field ≠ 0#11) :
    UnpackedFloat.unpack Format.binary64 (packComponents Format.binary64 s field fraction) =
      .finite s (fraction.toNat + 2 ^ 52) (field.toNat - 1075) (by omega) := by
  have implicit : (1#1 ++ fraction).toNat = fraction.toNat + 2 ^ 52 := by
    rw [BitVec.toNat_append, ← Nat.shiftLeft_add_eq_or_of_lt fraction.isLt, Nat.add_comm]
    rfl
  rw [UnpackedFloat.unpack]
  simp only [unpackExponent_packComponents, unpackMantissa_packComponents,
    unpackSign_packComponents, Sign.ofBitVec_toBitVec]
  refine (if_neg ordinary).trans ((if_neg normal).trans ?_)
  exact finite_congr _ _ implicit rfl

theorem unbounded_components :
    Unbounded (UnpackedFloat.unpack Format.binary64
      (packComponents Format.binary64 s (-1#11) fraction)) := by
  rw [UnpackedFloat.unpack]
  simp only [unpackExponent_packComponents, unpackMantissa_packComponents]
  rw [if_pos trivial]
  split_ifs
  · exact .inr ⟨_, rfl⟩
  · exact .inl rfl

/-- The size of a finite number by its fields. -/
theorem sized_components (ordinary : field ≠ -1#11) :
    Sized (UnpackedFloat.unpack Format.binary64 (packComponents Format.binary64 s field fraction)) s
      (if field.toNat = 0 then fraction.toNat * 2 ^ (-1074 : ℤ)
        else (fraction.toNat + 2 ^ 52 : ℕ) * 2 ^ (field.toNat - 1075 : ℤ)) := by
  have fits := fraction.isLt
  split_ifs with low
  · obtain rfl : field = 0#11 := BitVec.eq_of_toNat_eq low
    by_cases none : fraction = 0#52
    · subst none
      have zero : UnpackedFloat.unpack Format.binary64
          (packComponents Format.binary64 s 0#11 0#52) = .zero s := unpack_packedZero
      rw [zero]
      simpa using Sized.zero s
    · rw [unpack_subnormal none]
      exact .finite s _ ⟨by omega, le_rfl, .inl rfl⟩
  · rw [unpack_normal ordinary fun zero => low (congrArg BitVec.toNat zero)]
    exact .finite s _ ⟨by omega, by omega, .inr (by omega)⟩

end Components

/-! ## Unpacking -/

variable {b : BitVec 64}

theorem toNat_unpackMantissa (b : BitVec 64) :
    (@unpackMantissa Format.binary64 b).toNat = b.toNat % 2 ^ 52 := by
  simp [unpackMantissa]

theorem toNat_unpackExponent (b : BitVec 64) :
    (@unpackExponent Format.binary64 b).toNat = b.toNat / 2 ^ 52 % 2 ^ 11 := by
  simp [unpackExponent, Nat.shiftRight_eq_div_pow]

theorem ofBitVec_unpackSign (b : BitVec 64) :
    Sign.ofBitVec (@unpackSign Format.binary64 b) =
      if 2 ^ 63 ≤ b.toNat then .negative else .positive := by
  have bound : b.toNat < 2 ^ 64 := b.isLt
  have top : (@unpackSign Format.binary64 b).toNat = b.toNat / 2 ^ 63 % 2 := by
    simp [unpackSign, Nat.shiftRight_eq_div_pow]
  simp only [Sign.ofBitVec, ← BitVec.toNat_inj, top, BitVec.toNat_ofNat]
  split_ifs <;> first | rfl | omega

theorem parts_double (magnitude : ℕ) :
    double.parts magnitude =
      if magnitude / 2 ^ 52 = 0 then ((magnitude % 2 ^ 52, -1074) : ℕ × ℤ)
      else (magnitude % 2 ^ 52 + 2 ^ 52, (magnitude / 2 ^ 52 : ℕ) - 1075) := by
  simp only [Format.parts, double, Nat.shiftRight_eq_div_pow, Nat.one_shiftLeft]
  split_ifs
  · rfl
  · rw [sub_sub]
    rfl

/-- A pattern below that of infinity is one of a finite number. -/
theorem lt_infinity_iff (b : BitVec 64) :
    b.toNat % 2 ^ 63 < double.infinity ↔ @unpackExponent Format.binary64 b ≠ -1#11 := by
  rw [Ne, ← BitVec.toNat_inj, toNat_unpackExponent]
  show _ < 0x7ff0000000000000 ↔ ¬ _ = 2 ^ 11 - 1
  omega

/-- The parts of the bits of a finite number are what it is unpacked into. -/
theorem sized_unpack (finite : b.toNat % 2 ^ 63 < double.infinity) :
    Sized (UnpackedFloat.unpack Format.binary64 b)
      (if 2 ^ 63 ≤ b.toNat then .negative else .positive)
      ((double.parts (b.toNat % 2 ^ 63)).1 * 2 ^ (double.parts (b.toNat % 2 ^ 63)).2) := by
  have field : b.toNat % 2 ^ 63 / 2 ^ 52 = b.toNat / 2 ^ 52 % 2 ^ 11 := by omega
  have fraction : b.toNat % 2 ^ 63 % 2 ^ 52 = b.toNat % 2 ^ 52 := by omega
  have sized := @sized_components (Sign.ofBitVec (@unpackSign Format.binary64 b))
    (@unpackExponent Format.binary64 b) (@unpackMantissa Format.binary64 b)
    ((lt_infinity_iff b).1 finite)
  rw [packComponents_unpackSign_unpackExponent_unpackMantissa, toNat_unpackExponent,
    toNat_unpackMantissa, ofBitVec_unpackSign] at sized
  rw [parts_double, field, fraction]
  split_ifs at sized ⊢ <;> exact sized

theorem unbounded_unpack (high : double.infinity ≤ b.toNat % 2 ^ 63) :
    Unbounded (UnpackedFloat.unpack Format.binary64 b) := by
  have special := not_not.1 (mt (lt_infinity_iff b).2 (not_lt.2 high))
  have unbounded := @unbounded_components (Sign.ofBitVec (@unpackSign Format.binary64 b))
    (@unpackMantissa Format.binary64 b)
  rwa [← special, packComponents_unpackSign_unpackExponent_unpackMantissa] at unbounded

/-! ## Packing -/

theorem unpack_packedInfinity (s : Sign) :
    UnpackedFloat.unpack Format.binary64 (packedInfinity Format.binary64 s) = .infinity s := by
  simp [UnpackedFloat.unpack, packedInfinity]

/-- Packing does not make a number of what is none. -/
theorem Unbounded.pack (unbounded : Unbounded u) :
    Unbounded (UnpackedFloat.unpack Format.binary64 (UnpackedFloat.pack Format.binary64 u)) := by
  rcases unbounded with rfl | ⟨s, rfl⟩
  · exact .inl unpack_packedNaN
  · exact .inr ⟨s, unpack_packedInfinity s⟩

/-- What is too large for the exponent field becomes infinite. -/
theorem unpack_pack_of_large (positive : 0 < m) (large : 972 ≤ e) :
    UnpackedFloat.unpack Format.binary64
      (UnpackedFloat.pack Format.binary64 (.finite s m e positive)) = .infinity s := by
  rw [UnpackedFloat.pack, if_pos, unpack_packedInfinity]
  show 2048 ≤ (e + 1023 + 52).toNat + 1
  omega

theorem log2_add_one_eq_iff (positive : 0 < m) (fits : m < 2 ^ 53) :
    m.log2 + 1 = Format.binary64.mantissaBits ↔ 2 ^ 52 ≤ m := by
  rw [← Nat.le_log2 positive.ne']
  have := (Nat.log2_lt positive.ne').2 fits
  show m.log2 + 1 = 53 ↔ _
  omega

/-- A canonical number within the exponents is packed without loss. -/
theorem unpack_pack_of_canonical (positive : 0 < m) (canonical : Canonical m e) (small : e < 972) :
    UnpackedFloat.unpack Format.binary64
      (UnpackedFloat.pack Format.binary64 (.finite s m e positive)) = .finite s m e positive := by
  obtain ⟨fits, low, least⟩ := canonical
  have within : ¬ 2 ^ Format.binary64.exponentBits ≤ (e + Format.binary64.exponentBias +
      Format.binary64.mantissaBitsWithoutImplicit).toNat + 1 := by
    show ¬ 2048 ≤ (e + 1023 + 52).toNat + 1
    omega
  rw [UnpackedFloat.pack, if_neg within]
  by_cases full : 2 ^ 52 ≤ m
  · have field : (BitVec.ofNat 11 (e + 1023 + 52).toNat).toNat = (e + 1075).toNat := by
      rw [BitVec.toNat_ofNat]
      omega
    have ordinary : BitVec.ofNat 11 (e + 1023 + 52).toNat ≠ -1#11 := fun same => by
      have : (e + 1075).toNat = 2047 := field.symm.trans (congrArg BitVec.toNat same)
      omega
    have normal : BitVec.ofNat 11 (e + 1023 + 52).toNat ≠ 0#11 := fun same => by
      have : (e + 1075).toNat = 0 := field.symm.trans (congrArg BitVec.toNat same)
      omega
    have fraction : (BitVec.ofNat 52 m).toNat + 2 ^ 52 = m := by
      rw [BitVec.toNat_ofNat]
      omega
    rw [if_pos ((log2_add_one_eq_iff positive fits).2 full)]
    exact (unpack_normal ordinary normal).trans (finite_congr _ _ fraction (by omega))
  · have fraction : (BitVec.ofNat 52 m).toNat = m := by
      rw [BitVec.toNat_ofNat]
      omega
    have some : BitVec.ofNat 52 m ≠ 0#52 := fun same => by
      have : m = 0 := fraction.symm.trans (congrArg BitVec.toNat same)
      omega
    rw [if_neg (mt (log2_add_one_eq_iff positive fits).1 full)]
    exact (unpack_subnormal some).trans (finite_congr _ _ fraction (by omega))

/-- A number that is not too large is packed without loss. -/
theorem unpack_pack (sized : Sized u s q) (small : q < 2 ^ (1024 : ℤ)) :
    UnpackedFloat.unpack Format.binary64 (UnpackedFloat.pack Format.binary64 u) = u := by
  rcases sized with _ | ⟨_, positive, canonical⟩
  · exact unpack_packedZero
  · rename_i m e
    refine unpack_pack_of_canonical positive canonical ?_
    by_contra! large
    have full : 2 ^ 52 ≤ m := canonical.full.resolve_left (by omega)
    refine absurd small (not_lt.2 ?_)
    calc (2 ^ (1024 : ℤ) : ℚ) = 2 ^ 52 * 2 ^ (972 : ℤ) := (two_pow_mul_zpow 52 972).symm
      _ ≤ m * 2 ^ e := mul_le_mul (by exact_mod_cast full) (zpow_le_zpow_right₀ one_le_two large)
          (two_zpow_pos _).le (Nat.cast_nonneg m)

/-- A number that is too large becomes infinite. -/
theorem unpack_pack_of_too_large (sized : Sized u s q) (large : 2 ^ (1024 : ℤ) ≤ q) :
    UnpackedFloat.unpack Format.binary64 (UnpackedFloat.pack Format.binary64 u) = .infinity s := by
  rcases sized with _ | ⟨_, positive, canonical⟩
  · exact absurd large (not_le.2 (two_zpow_pos _))
  · rename_i m e
    refine unpack_pack_of_large positive ?_
    by_contra! small
    refine absurd large (not_le.2 ?_)
    calc (m * 2 ^ e : ℚ) < 2 ^ 53 * 2 ^ e :=
          mul_lt_mul_of_pos_right (by exact_mod_cast canonical.fits) (two_zpow_pos e)
      _ ≤ 2 ^ 53 * 2 ^ (971 : ℤ) :=
          mul_le_mul_of_nonneg_left (zpow_le_zpow_right₀ one_le_two (by omega)) (by positivity)
      _ = 2 ^ (1024 : ℤ) := two_pow_mul_zpow 53 971

end Baseband.Binary
