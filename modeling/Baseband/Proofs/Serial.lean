import Mathlib.Logic.Function.Iterate
import Baseband.Request

/-!
# The cycle of serials

From any serial on, the successors run through all words but zero before one comes again. A serial
of zero, which a table may be told to start at, is passed once.
-/

namespace Baseband.Serial

def count : Nat :=
  0xffffffff

theorem toNat_injective {s t : Serial} (same : s.value.toNat = t.value.toNat) : s = t := by
  cases s
  cases t
  exact congrArg Serial.mk (UInt32.toNat_inj.1 same)

theorem toNat_ne_zero {s : Serial} (issued : s.value ≠ 0) : s.value.toNat ≠ 0 :=
  fun eq => issued (UInt32.toNat_inj.1 eq)

/-- The serial after the last is the first one. -/
theorem next_value (s : Serial) :
    s.next.value.toNat = if s.value.toNat = count then 1 else s.value.toNat + 1 := by
  have bound := s.value.toNat_lt
  unfold next
  split
  · rename_i last
    simp [first, count, last]
  · rename_i inner
    have hne : s.value.toNat ≠ count := fun eq => inner (UInt32.toNat_inj.1 eq)
    rw [if_neg hne]
    simp only [UInt32.toNat_add, UInt32.toNat_one]
    simp only [count] at hne
    omega

/-- The serials from `s` on run through the cycle of all serials. -/
theorem iterate_next_value {s : Serial} (issued : s.value ≠ 0) (i : Nat) :
    (next^[i] s).value.toNat = (s.value.toNat - 1 + i) % count + 1 := by
  have bound := s.value.toNat_lt
  have pos := toNat_ne_zero issued
  induction i with
  | zero =>
    simp only [Function.iterate_zero, id_eq, Nat.add_zero, count]
    omega
  | succ i ih =>
    rw [Function.iterate_succ_apply', next_value, ih]
    split <;> simp only [count] at * <;> omega

/-- How many steps lead from one serial to another around the cycle 1, 2, ..., `count`, 1, ... -/
def ahead (start serial : Serial) : Nat :=
  (serial.value.toNat + count - start.value.toNat) % count

theorem ahead_lt (start serial : Serial) : ahead start serial < count :=
  Nat.mod_lt _ (by decide)

/-- As many steps as it is ahead lead to a serial. -/
theorem iterate_ahead {start serial : Serial} (issued : start.value ≠ 0)
    (issuable : serial.value ≠ 0) : next^[ahead start serial] start = serial := by
  have bound := start.value.toNat_lt
  have bound' := serial.value.toNat_lt
  have pos := toNat_ne_zero issued
  have pos' := toNat_ne_zero issuable
  apply toNat_injective
  rw [iterate_next_value issued, ahead]
  simp only [count]
  omega

theorem ahead_iterate {start : Serial} (issued : start.value ≠ 0) (i : Nat) :
    ahead start (next^[i] start) = i % count := by
  have bound := start.value.toNat_lt
  have pos := toNat_ne_zero issued
  rw [ahead, iterate_next_value issued]
  simp only [count]
  omega

/-- Within one turn no serial comes twice. -/
theorem eq_of_iterate_next {s : Serial} (issued : s.value ≠ 0) {i j : Nat} (hi : i < count)
    (hj : j < count) (same : next^[i] s = next^[j] s) : i = j := by
  have distances := congrArg (ahead s) same
  rwa [ahead_iterate issued, ahead_iterate issued, Nat.mod_eq_of_lt hi, Nat.mod_eq_of_lt hj]
    at distances

theorem iterate_next_injective {s : Serial} {i j : Nat} (hi : i < count) (hj : j < count)
    (same : next^[i] s = next^[j] s) : i = j := by
  by_cases issued : s.value = 0
  · -- zero is never reached again, and behind it lie the serials from the first one on
    cases i with
    | zero =>
      cases j with
      | zero => rfl
      | succ j =>
        rw [Function.iterate_succ_apply', Function.iterate_zero_apply] at same
        exact absurd (same ▸ issued) (next_ne_zero _)
    | succ i =>
      cases j with
      | zero =>
        rw [Function.iterate_succ_apply', Function.iterate_zero_apply] at same
        exact absurd (same.symm ▸ issued) (next_ne_zero _)
      | succ j =>
        simp only [Function.iterate_succ_apply] at same
        have := eq_of_iterate_next (next_ne_zero s) (by omega) (by omega) same
        omega
  · exact eq_of_iterate_next issued hi hj same

end Baseband.Serial
