import Baseband.Duration
import Baseband.Proofs.Binary.Operations

/-!
# Durations and counts of seconds

A longer duration has no smaller count of seconds, though its whole seconds and the rest are rounded
apart. A count of seconds is a duration if it is neither below zero nor too large.

## Main statements

* `Counts.mono`: longer durations have no smaller counts.
* `ofSeconds_ok_iff`: which counts of seconds are durations.
-/

namespace Baseband

open Binary Float.Model.UnpackedFloat

namespace Duration

variable {d d' : Duration} {a a' b b' v v' r : ℚ} {x : Float} {s : Sign}

/-! ## The count of seconds -/

theorem seconds_lt (d : Duration) : d.seconds < 2 ^ 64 :=
  Nat.div_lt_of_lt_mul (by have := d.nanos_lt; rwa [Nat.one_shiftLeft, Nat.mul_comm] at this)

theorem nanosPerSecond_pos : (0 : ℚ) < nanosPerSecond := by
  norm_num [nanosPerSecond]

theorem subsecond_lt (d : Duration) : d.subsecond < nanosPerSecond :=
  Nat.mod_lt _ (by decide)

/-- What the count of seconds is made of: whole seconds, the rest and their sum, each rounded. -/
structure Counts (d : Duration) (a b v : ℚ) : Prop where
  whole : Denotes (UInt64.ofNat d.seconds).toFloat .positive a
  whole_near : Nearest doubles d.seconds a
  rest : Denotes ((UInt64.ofNat d.subsecond).toFloat / (UInt64.ofNat nanosPerSecond).toFloat)
    .positive b
  rest_near : Nearest doubles (d.subsecond / nanosPerSecond) b
  sum : Denotes d.toSeconds .positive v
  sum_near : Nearest doubles (a + b) v

/-- Nanoseconds below a second are converted without loss. -/
theorem denotes_nanos {n : ℕ} (fits : n ≤ nanosPerSecond) :
    Denotes (UInt64.ofNat n).toFloat .positive n := by
  have fits : n ≤ 1000000000 := fits
  obtain ⟨r, denotes, near⟩ := denotes_toFloat (.ofNat n)
  rw [UInt64.toNat_ofNat', Nat.mod_eq_of_lt (by omega)] at near
  rwa [near.eq_of_mem (natCast_mem_doubles (by omega))] at denotes

/-- The rest below a second stays below it when rounded. -/
theorem rest_lt (near : Nearest doubles (d.subsecond / nanosPerSecond) b) : b < 1 := by
  have below : ((2 ^ 53 - 1 : ℕ) * 2 ^ (-53 : ℤ) : ℚ) ∈ doubles :=
    ⟨_, _, by omega, by omega, rfl⟩
  have least : (d.subsecond : ℚ) ≤ nanosPerSecond - 1 := by
    have : (d.subsecond + 1 : ℚ) ≤ nanosPerSecond := by exact_mod_cast d.subsecond_lt
    linarith
  refine (near.le_of_le below ?_).trans_lt ?_
  · rw [div_le_iff₀ nanosPerSecond_pos]
    refine least.trans ?_
    norm_num [nanosPerSecond]
  · norm_num

/-- The count of seconds is made in three roundings. -/
theorem counts (d : Duration) : ∃ a b v, Counts d a b v := by
  obtain ⟨a, whole, whole_near⟩ := denotes_toFloat (.ofNat d.seconds)
  rw [UInt64.toNat_ofNat', Nat.mod_eq_of_lt d.seconds_lt] at whole_near
  have less : (d.subsecond / nanosPerSecond : ℚ) ≤ 1 := by
    rw [div_le_one nanosPerSecond_pos]
    exact_mod_cast d.subsecond_lt.le
  obtain ⟨b, rest, rest_near⟩ := denotes_div (denotes_nanos d.subsecond_lt.le)
    (denotes_nanos le_rfl) nanosPerSecond_pos (less.trans (one_le_zpow₀ one_le_two (by omega)))
  have small : a + b ≤ 2 ^ (1023 : ℤ) := by
    have := rest_lt rest_near
    have : a ≤ 2 ^ (64 : ℤ) := whole_near.le_of_le (two_zpow_mem_doubles (by omega)) (by
      exact_mod_cast d.seconds_lt.le)
    calc a + b ≤ 2 ^ (64 : ℤ) + 1 := by linarith
      _ ≤ 2 ^ (65 : ℤ) := by norm_num
      _ ≤ 2 ^ (1023 : ℤ) := zpow_le_zpow_right₀ one_le_two (by omega)
  obtain ⟨v, sum, sum_near⟩ := denotes_add whole rest small
  exact ⟨a, b, v, whole, whole_near, rest, rest_near, sum, sum_near⟩

namespace Counts

/-- A rest under a second is lost beside whole seconds that are already rounded to even numbers. -/
theorem le_whole (counts : Counts d a b v) (large : 2 ^ 53 ≤ a) : v ≤ a := by
  by_contra! more
  have even {t : ℚ} (mem : t ∈ doubles) (large : 2 ^ 53 ≤ t) : ∃ k : ℕ, t = k * 2 ^ (1 : ℤ) :=
    multiple_of_mem_doubles mem (.inr (by
      norm_num at large ⊢
      linarith))
  obtain ⟨k, same⟩ := even counts.whole_near.mem large
  obtain ⟨k', same'⟩ := even counts.sum_near.mem (large.trans more.le)
  have apart : a + 2 ≤ v := by
    rw [same, same'] at more ⊢
    have : (k + 1 : ℚ) ≤ k' := by
      exact_mod_cast lt_of_mul_lt_mul_right more (two_zpow_pos 1).le
    rw [zpow_one]
    linarith
  have := counts.sum_near.midpoint_le counts.whole_near.mem more
  have := rest_lt counts.rest_near
  linarith

/-- Whole seconds from `2 ^ 53` on stay that large when rounded. -/
theorem large_whole (counts : Counts d a b v) (large : 2 ^ 53 ≤ d.seconds) : 2 ^ 53 ≤ a :=
  counts.whole_near.ge_of_ge (by exact_mod_cast natCast_mem_doubles (le_refl (2 ^ 53)))
    (by exact_mod_cast large)

theorem rest_nonneg (counts : Counts d a b v) : 0 ≤ b :=
  Sized.nonneg counts.rest

/-- With more whole seconds the count is no smaller, whatever the rest. -/
theorem le_of_seconds_lt (counts : Counts d a b v) (counts' : Counts d' a' b' v')
    (less : d.seconds < d'.seconds) : v ≤ v' := by
  have after : a' ≤ v' := counts'.sum_near.ge_of_ge counts'.whole_near.mem (by
    linarith [counts'.rest_nonneg])
  have less' : (d.seconds + 1 : ℚ) ≤ d'.seconds := by exact_mod_cast less
  have := rest_lt counts.rest_near
  rcases Nat.lt_or_ge d.seconds (2 ^ 53) with small | large
  · have mem : ((d.seconds + 1 : ℕ) : ℚ) ∈ doubles := natCast_mem_doubles small
    have exact : a = d.seconds := counts.whole_near.eq_of_mem (natCast_mem_doubles small.le)
    have before : v ≤ (d.seconds + 1 : ℕ) := counts.sum_near.le_of_le mem (by
      push_cast
      linarith)
    exact before.trans ((counts'.whole_near.ge_of_ge mem (by exact_mod_cast less)).trans after)
  · exact (counts.le_whole (counts.large_whole large)).trans
      ((counts.whole_near.mono counts'.whole_near (by exact_mod_cast less)).trans after)

/-- With the same whole seconds and a larger rest the count is no smaller. -/
theorem le_of_subsecond_le (counts : Counts d a b v) (counts' : Counts d' a' b' v')
    (same : d.seconds = d'.seconds) (le : d.subsecond ≤ d'.subsecond) : v ≤ v' := by
  have whole' := counts'.whole
  rw [← same] at whole'
  obtain rfl : a = a' := (counts.whole.unique whole').2
  have rests : b ≤ b' := by
    rcases le.lt_or_eq with less | same
    · refine counts.rest_near.mono counts'.rest_near ?_
      exact div_lt_div_of_pos_right (by exact_mod_cast less) nanosPerSecond_pos
    · have rest' := counts'.rest
      rw [← same] at rest'
      exact (counts.rest.unique rest').2.le
  rcases rests.lt_or_eq with less | rfl
  · exact counts.sum_near.mono counts'.sum_near (add_lt_add_right less a)
  · have sum' := counts'.sum
    rw [toSeconds, ← same, ← add_congr_right counts.rest counts'.rest] at sum'
    exact (counts.sum.unique sum').2.le

/-- A longer duration has no smaller count. -/
theorem mono (counts : Counts d a b v) (counts' : Counts d' a' b' v') (le : d ≤ d') : v ≤ v' := by
  have le : d.nanos ≤ d'.nanos := le
  have seconds : d.seconds ≤ d'.seconds := Nat.div_le_div_right le
  rcases seconds.lt_or_eq with less | same
  · exact counts.le_of_seconds_lt counts' less
  · refine counts.le_of_subsecond_le counts' same ?_
    simp only [Duration.seconds, Duration.subsecond, nanosPerSecond] at *
    omega

end Counts

/-! ## The duration of a count of seconds -/

/-- A finite number is below zero if its sign is negative and it is not zero. -/
theorem lt_zero_iff (denotes : Denotes x s r) : x < 0 ↔ s = .negative ∧ r ≠ 0 := by
  change decide (x.toModel.unpack.lt (.zero .positive) = true) = true ↔ _
  rw [decide_eq_true_iff]
  unfold Denotes at denotes
  generalize x.toModel.unpack = u at denotes
  rcases denotes with _ | ⟨_, positive, canonical⟩
  · simp [Float.Model.UnpackedFloat.lt, Float.Model.UnpackedFloat.compare]
  · rename_i m e
    have size : (m * 2 ^ e : ℚ) ≠ 0 := by positivity
    cases s
    · exact ⟨fun _ => ⟨rfl, size⟩, fun _ => rfl⟩
    · exact ⟨nofun, nofun⟩

/-- The largest number below the bound is more than a second away from it. -/
theorem add_one_le (mem : r ∈ doubles) (less : r < 2 ^ 64) : r + 1 ≤ 2 ^ 64 := by
  rcases lt_or_ge r (2 ^ 63) with small | large
  · linarith
  · obtain ⟨k, rfl⟩ := multiple_of_mem_doubles (e := 11) mem (.inr (by
      norm_num at large ⊢
      linarith))
    have unit : (2 : ℚ) ^ (11 : ℤ) = 2048 := by norm_num
    rw [unit] at less ⊢
    have fewer : k * 2048 < 2 ^ 64 := by exact_mod_cast less
    have most : k * 2048 + 1 ≤ 2 ^ 64 := fewer
    exact_mod_cast most

/-- No number below the bound is rounded up to it. -/
theorem nanos_lt_iff {n : ℕ} (mem : r ∈ doubles) (near : Nearest wholes (r * nanosPerSecond) n) :
    n < 1 <<< 64 * nanosPerSecond ↔ r < 2 ^ 64 := by
  rw [Nat.one_shiftLeft]
  constructor
  · refine fun less => lt_of_not_ge fun large => not_le.2 less ?_
    have : ((2 ^ 64 * nanosPerSecond : ℕ) : ℚ) ≤ n := near.ge_of_ge ⟨_, rfl⟩ (by
      push_cast
      exact mul_le_mul_of_nonneg_right large nanosPerSecond_pos.le)
    exact_mod_cast this
  · intro less
    have : (n : ℚ) ≤ ((2 ^ 64 - 1) * nanosPerSecond : ℕ) := near.le_of_le ⟨_, rfl⟩ (by
      push_cast
      refine mul_le_mul_of_nonneg_right ?_ nanosPerSecond_pos.le
      linarith [add_one_le mem less])
    have : n ≤ (2 ^ 64 - 1) * nanosPerSecond := by exact_mod_cast this
    refine this.trans_lt (Nat.mul_lt_mul_of_pos_right (by omega) (by decide))

/-- Nanoseconds make a duration as long as their seconds fit a word. -/
theorem ofNanos?_isSome {n : ℕ} : (∃ d, ofNanos? n = some d) ↔ n < 1 <<< 64 * nanosPerSecond := by
  rw [ofNanos?]
  split_ifs with fits
  · exact iff_of_true ⟨_, rfl⟩ fits
  · exact iff_of_false (by rintro ⟨d, same⟩; cases same) fits

/-- A finite count of seconds makes a duration if it is not negative and its nanoseconds fit. -/
theorem ofSeconds_ok_of_parts {m : ℕ} {e : ℤ} (finite : x.toBits.toNat % 2 ^ 63 < double.infinity)
    (parts : double.parts (x.toBits.toNat % 2 ^ 63) = (m, e)) :
    (∃ d, ofSeconds x = .ok d) ↔
      ¬ x < 0 ∧ roundScaled (m * nanosPerSecond) e < 1 <<< 64 * nanosPerSecond := by
  unfold ofSeconds
  rw [Nat.one_shiftLeft 63]
  dsimp only
  rw [if_neg (not_le.2 finite), parts, ← ofNanos?_isSome]
  split_ifs with below
  · exact iff_of_false nofun fun ⟨above, _⟩ => above below
  · dsimp only
    cases ofNanos? (roundScaled (m * nanosPerSecond) e) <;> simp [below]

/-- A count without bound makes no duration. -/
theorem ofSeconds_of_infinite (high : double.infinity ≤ x.toBits.toNat % 2 ^ 63) :
    ∃ why, ofSeconds x = .error why := by
  unfold ofSeconds
  rw [Nat.one_shiftLeft 63]
  dsimp only
  rw [if_pos high]
  split_ifs <;> exact ⟨_, rfl⟩

/-- A count of seconds is a duration if it is neither below zero nor too large. -/
theorem ofSeconds_ok_iff : (∃ d, ofSeconds x = .ok d) ↔
    ∃ s r, Denotes x s r ∧ (s = .negative → r = 0) ∧ r < 2 ^ 64 := by
  rcases le_or_gt double.infinity (x.toBits.toNat % 2 ^ 63) with high | finite
  · have unbounded : Unbounded x.toModel.unpack := unbounded_unpack high
    obtain ⟨why, failed⟩ := ofSeconds_of_infinite high
    refine iff_of_false ?_ ?_
    · rintro ⟨d, ok⟩
      rw [failed] at ok
      cases ok
    · rintro ⟨s, r, denotes, -⟩
      exact unbounded.not_sized denotes
  · obtain ⟨m, e, parts⟩ : ∃ m e, double.parts (x.toBits.toNat % 2 ^ 63) = (m, e) := ⟨_, _, rfl⟩
    obtain ⟨s, denotes⟩ : ∃ s, Denotes x s (m * 2 ^ e) := by
      have sized := sized_unpack finite
      rw [UInt64.toNat_toBitVec, parts] at sized
      exact ⟨_, sized⟩
    have near := nearest_roundScaled (m * nanosPerSecond) e
    rw [Nat.cast_mul, mul_right_comm] at near
    rw [ofSeconds_ok_of_parts finite parts, lt_zero_iff denotes,
      nanos_lt_iff (Sized.mem denotes) near]
    constructor
    · rintro ⟨above, small⟩
      exact ⟨s, _, denotes, fun negative => not_not.1 fun apart => above ⟨negative, apart⟩, small⟩
    · rintro ⟨s', r, denotes', above, small⟩
      obtain ⟨rfl, rfl⟩ := denotes.unique denotes'
      exact ⟨fun ⟨negative, apart⟩ => apart (above negative), small⟩

end Duration

end Baseband
