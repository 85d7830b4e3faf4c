import Baseband.Proofs.Outstanding.Rotation

/-!
# The search for a free serial

The search looks at one serial after another until it finds one that is not outstanding. Nothing
bounds it but the table: while some serial is left, it ends at the first free one in the cycle of
serials, after at most one look more than requests are outstanding.

## Main definitions

* `Outstanding.Search`: a search without a bound, by the number of its looks.

## Main statements

* `Outstanding.search_ends`: the search of a table ends at the serial that is issued.
-/

namespace Baseband

variable {κ : Type}

namespace Outstanding

open Serial (ahead)

variable {taken : Serial → Bool} {start serial : Serial} {looks : Nat}

/-- A search that ends: it looks at a serial, and goes on to the next while the serial is taken. -/
inductive Search (taken : Serial → Bool) : Serial → Nat → Serial → Prop
  | found {s : Serial} (free : taken s = false) : Search taken s 1 s
  | passed {s serial : Serial} {looks : Nat} (outstanding : taken s = true)
      (onward : Search taken s.next looks serial) : Search taken s (looks + 1) serial

/-- A search ends at the first free serial, and looks at it and at all before it. -/
theorem search_iff :
    Search taken start looks serial ↔
      ∃ i, looks = i + 1 ∧ serial = Serial.next^[i] start ∧ taken serial = false ∧
        ∀ k < i, taken (Serial.next^[k] start) = true := by
  constructor
  · intro search
    induction search with
    | @found s free => exact ⟨0, rfl, rfl, free, fun k within => absurd within (Nat.not_lt_zero k)⟩
    | @passed s serial looks outstanding onward ih =>
      obtain ⟨i, rfl, reached, free, before⟩ := ih
      refine ⟨i + 1, rfl, reached, free, fun k within => ?_⟩
      cases k with
      | zero => exact outstanding
      | succ k => exact before k (Nat.lt_of_succ_lt_succ within)
  · rintro ⟨i, rfl, rfl, free, before⟩
    induction i generalizing start with
    | zero => exact .found free
    | succ i ih =>
      apply Search.passed (before 0 (Nat.succ_pos i))
      apply ih free
      intro k within
      exact before (k + 1) (Nat.succ_lt_succ within)

/-- A search ends in one way. -/
theorem Search.unique {looks' : Nat} {serial' : Serial} (search : Search taken start looks serial)
    (search' : Search taken start looks' serial') : looks = looks' ∧ serial = serial' := by
  induction search generalizing looks' serial' with
  | found free =>
    cases search' with
    | found => exact ⟨rfl, rfl⟩
    | passed outstanding => simp [free] at outstanding
  | passed outstanding onward ih =>
    cases search' with
    | found free => simp [free] at outstanding
    | passed _ onward' =>
      obtain ⟨rfl, rfl⟩ := ih onward'
      exact ⟨rfl, rfl⟩

/-- All serials before the one found are taken. -/
theorem Search.before (search : Search taken start looks serial) (issuable : start.value ≠ 0)
    {other : Serial} (issuable' : other.value ≠ 0)
    (closer : ahead start other < ahead start serial) : taken other = true := by
  obtain ⟨i, -, rfl, -, before⟩ := search_iff.1 search
  rw [Serial.ahead_iterate issuable] at closer
  rw [← Serial.iterate_ahead issuable issuable']
  exact before _ (Nat.lt_of_lt_of_le closer (Nat.mod_le i Serial.count))

/-- What a table takes for the next serial is found by the search. -/
theorem search_freeSerial {o : Outstanding κ} (room : o.size < Serial.count) :
    ∃ looks ≤ o.size + 1, Search o.contains o.nextSerial looks o.freeSerial := by
  obtain ⟨i, short, stop, before, -⟩ := firstFree_eq_iterate o.contains o.size o.nextSerial
  refine ⟨i + 1, Nat.succ_le_succ short, ?_⟩
  exact search_iff.2 ⟨i, rfl, stop, contains_freeSerial room, before⟩

/-- While serials are left, the search ends after at most one look more than requests are
outstanding. The serial it ends at is issued to the next request. It is not zero and not
outstanding, every serial before it in the cycle is outstanding, and the next search starts at the
serial behind it. -/
theorem search_ends {o : Outstanding κ} (room : o.size < Serial.count)
    (issuable : o.nextSerial.value ≠ 0) :
    (∃ looks ≤ o.size + 1, Search o.contains o.nextSerial looks o.freeSerial) ∧
    (∀ looks serial, Search o.contains o.nextSerial looks serial →
      looks ≤ o.size + 1 ∧ serial = o.freeSerial) ∧
    o.freeSerial.value ≠ 0 ∧ o.contains o.freeSerial = false ∧
    (∀ serial : Serial, serial.value ≠ 0 →
      ahead o.nextSerial serial < ahead o.nextSerial o.freeSerial → o.contains serial = true) ∧
    ∀ operation completion attribution,
      let (serial, after) := o.submit operation completion attribution
      serial = o.freeSerial ∧ after.nextSerial.value ≠ 0 ∧
        after.nextSerial.value.toNat = serial.value.toNat % Serial.count + 1 := by
  obtain ⟨looks, short, search⟩ := search_freeSerial room
  have issued := freeSerial_ne_zero issuable
  refine ⟨⟨looks, short, search⟩, ?_, issued, contains_freeSerial room, ?_, ?_⟩
  · intro looks' serial search'
    obtain ⟨rfl, rfl⟩ := search.unique search'
    exact ⟨short, rfl⟩
  · intro serial issuable' closer
    exact search.before issuable issuable' closer
  · intro operation completion attribution
    refine ⟨rfl, Serial.next_ne_zero _, ?_⟩
    have behind := Serial.iterate_next_value issued 1
    rwa [Function.iterate_one,
      Nat.sub_add_cancel (Nat.pos_of_ne_zero (Serial.toNat_ne_zero issued))] at behind

/-- The search goes on behind the largest serial at the first one. -/
theorem search_ends_of_largest :
    let request : Request Nat := ⟨.first, .getSlotStatus, 7, .standard, 0⟩
    let largest : Serial := ⟨0xffffffff⟩
    let o : Outstanding Nat :=
      ⟨(Std.HashMap.emptyWithCapacity.insert .first request).insert largest request, largest, 2⟩
    o.size < Serial.count ∧ o.nextSerial.value ≠ 0 ∧
      Search o.contains o.nextSerial 3 o.freeSerial ∧ o.freeSerial = ⟨2⟩ := by
  intro request largest o
  have room : o.size < Serial.count := by
    have grown : o.size ≤ 0 + 1 + 1 :=
      Nat.le_trans Std.HashMap.size_insert_le (Nat.succ_le_succ Std.HashMap.size_insert_le)
    simp only [Serial.count]
    omega
  have found : Search o.contains largest 3 ⟨2⟩ := by
    refine .passed ?_ (.passed ?_ (.found ?_)) <;>
      simp [o, contains, largest, Serial.next, Serial.first]
  have issuable : o.nextSerial.value ≠ 0 := by decide
  have ended := ((search_ends room issuable).2.1 3 _ found).2
  exact ⟨room, issuable, ended ▸ found, ended.symm⟩

end Outstanding

end Baseband
