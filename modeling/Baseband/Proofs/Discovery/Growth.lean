import Baseband.Settings
import Baseband.Proofs.Binary.Operations
import Baseband.Proofs.Discovery.Backoff
import Baseband.Proofs.Duration

/-!
# Delays that can be computed

A delay is computed together with its growth, and the growth has to be a duration before the cap
bounds it. So a discovery fails as soon as some delay does not grow into a duration. If a delay
does, so does every shorter one, and no delay is longer than the cap: all delays can be computed if
the cap itself grows into a duration.

## Main statements

* `growth_ok_of_le`: the growth of shorter delays.
* `growth_eq_error`: factors under which no delay grows.
* `computable_of_cap`: one growth that all delays hang on.
* `schedules_complete_iff`: which factors and caps are safe in accepted settings.
-/

namespace Baseband

open Binary Float.Model.UnpackedFloat

namespace RetryPolicy

variable {p : RetryPolicy} {d d' grown : Duration}

/-! ## The growth of a delay -/

/-- A factor that is infinite or no number makes no delay grow. -/
theorem growth_eq_error (special : ¬ p.multiplier.isFinite) (d : Duration) :
    ∃ why, p.growth d = .error why := by
  cases grows : p.growth d with
  | error why => exact ⟨why, rfl⟩
  | ok grown =>
    obtain ⟨s, r, denotes, -⟩ := Duration.ofSeconds_ok_iff.1 ⟨grown, grows⟩
    exact absurd denotes (Single.unbounded_widen special).mul.pack.not_sized

theorem finite_of_growth (grows : ∃ grown, p.growth d = .ok grown) : p.multiplier.isFinite := by
  obtain ⟨grown, grows⟩ := grows
  by_contra special
  obtain ⟨why, failed⟩ := growth_eq_error special d
  rw [failed] at grows
  cases grows

/-- A delay grows into a duration if its product with the factor, once rounded, is one. -/
theorem exists_product (finite : p.multiplier.isFinite) {a b v : ℚ} (counts : d.Counts a b v) :
    ∃ r, Nearest doubles (v * p.multiplier.size) r ∧
      ((∃ grown, p.growth d = .ok grown) ↔
        (p.multiplier.sign = .negative → r = 0) ∧ r < 2 ^ 64) := by
  obtain ⟨r, near, small, large⟩ := denotes_mul counts.sum (Single.denotes_widen finite)
  rw [positive_mul] at small large
  refine ⟨r, near, Duration.ofSeconds_ok_iff.trans ?_⟩
  constructor
  · rintro ⟨s, r', denotes, above, bound⟩
    rcases lt_or_ge r (2 ^ (1024 : ℤ)) with below | beyond
    · obtain ⟨rfl, rfl⟩ := (small below).unique denotes
      exact ⟨above, bound⟩
    · exact absurd denotes (Unbounded.not_sized (.inr ⟨_, large beyond⟩))
  · rintro ⟨above, bound⟩
    refine ⟨_, r, small (bound.trans ?_), above, bound⟩
    exact_mod_cast zpow_lt_zpow_right₀ (one_lt_two (α := ℚ)) (by omega : (64 : ℤ) < 1024)

/-- If a delay grows into a duration, so does every shorter one. -/
theorem growth_ok_of_le (le : d ≤ d') (grows : ∃ grown, p.growth d' = .ok grown) :
    ∃ grown, p.growth d = .ok grown := by
  obtain ⟨a, b, v, counts⟩ := d.counts
  obtain ⟨a', b', v', counts'⟩ := d'.counts
  have finite := finite_of_growth grows
  rcases (counts.mono counts' le).lt_or_eq with less | rfl
  · obtain ⟨r, near, ok_iff⟩ := exists_product finite counts
    obtain ⟨r', near', ok_iff'⟩ := exists_product finite counts'
    obtain ⟨above, bound⟩ := ok_iff'.1 grows
    have least : 0 ≤ r := near.ge_of_ge zero_mem_doubles
      (mul_nonneg (Sized.nonneg counts.sum) Single.size_nonneg)
    have most : r ≤ r' := by
      rcases p.multiplier.size_nonneg.eq_or_lt with none | some
      · rw [← none, mul_zero] at near near'
        rw [near.eq_of_mem zero_mem_doubles, near'.eq_of_mem zero_mem_doubles]
      · exact near.mono near' (mul_lt_mul_of_pos_right less some)
    refine ok_iff.2 ⟨fun negative => ?_, most.trans_lt bound⟩
    exact le_antisymm (most.trans_eq (above negative)) least
  · rwa [growth, mul_congr_left counts.sum counts'.sum]

/-! ## All delays -/

/-- All delays can be computed if the cap grows. -/
theorem computable_of_cap (grows : ∃ grown, p.growth p.maxDelay = .ok grown) :
    (Backoff.ofPolicy p).Computable p.growth :=
  Backoff.computable_of_grows fun _ le => growth_ok_of_le le grows

end RetryPolicy

namespace Settings

/-- Accepted settings with this factor and this cap never lack a delay, whatever their initial delay
and the number of passes, if and only if the cap grows into a duration. -/
theorem schedules_complete_iff (multiplier : Single) (cap : Duration) :
    (∀ (s : Settings) (p : RetryPolicy), s.check = .ok () → s.retry = some p →
      p.multiplier = multiplier → p.maxDelay = cap →
      ((Backoff.ofPolicy p).schedule p.growth).length = p.maxAttempts.toNat) ↔
    ∃ grown, Duration.ofSeconds (cap.toSeconds * multiplier.widen) = .ok grown := by
  constructor
  · intro complete
    -- A single pass more at the cap already depends on the growth of the cap.
    let p : RetryPolicy := ⟨1, multiplier, cap, cap⟩
    have computable := Backoff.computable_iff_length.2
      (complete { Settings.standard with retry := some p } p rfl rfl rfl rfl)
    obtain ⟨grown, grows, -⟩ := computable.next_eq rfl
    rw [Backoff.ofPolicy, Duration.min_eq_left (Nat.le_refl _)] at grows
    exact ⟨grown, grows⟩
  · rintro grows s p - - rfl rfl
    exact Backoff.computable_iff_length.1 (RetryPolicy.computable_of_cap grows)

/-- The check does not look at the retries, so settings are accepted with a factor below zero and
with one so large that the first growth is no duration, though the cap would bound it. -/
theorem accepted_but_failing :
    ∃ (s s' : Settings) (p p' : RetryPolicy),
      (Draft.empty.changeAll [.maxAttempts 1, .multiplier ⟨0xbf800000⟩]).finish = .ok s ∧
      s.check = .ok () ∧ s.retry = some p ∧
      Backoff.delays p.growth 1 (.ofPolicy p) = ([], .failed .negative) ∧
      (Draft.empty.changeAll [.maxAttempts 1, .multiplier ⟨0x7f7fffff⟩]).finish = .ok s' ∧
      s'.check = .ok () ∧ s'.retry = some p' ∧
      Backoff.delays p'.growth 1 (.ofPolicy p') = ([], .failed .tooLarge) :=
  ⟨_, _, _, _, rfl, rfl, rfl, by decide +kernel, rfl, rfl, rfl, by decide +kernel⟩

end Settings

end Baseband
