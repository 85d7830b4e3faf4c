import Mathlib.Data.List.Range
import Baseband.Proofs.Outstanding.Ledger

/-!
# Serials come round

A search for a serial begins behind the serial that was issued last, so the searches of a whole run
follow each other around the cycle of serials and leave out none. Between two requests under one
serial lies a full turn, on which each other serial was issued or was still outstanding. On the
first turn nothing is outstanding ahead of the search.
-/

namespace Baseband

variable {κ : Type}

namespace Serial

theorem iterate_next_ne_zero {s : Serial} (issued : s.value ≠ 0) (i : Nat) :
    (next^[i] s).value ≠ 0 := by
  cases i with
  | zero => exact issued
  | succ i =>
    rw [Function.iterate_succ_apply']
    exact next_ne_zero _

/-- Whoever comes back to a serial has gone round the whole cycle. -/
theorem count_le_of_iterate_next {s : Serial} (issued : s.value ≠ 0) {n : Nat} (moved : 0 < n)
    (back : next^[n] s = s) : count ≤ n := by
  have distance := ahead_iterate issued n
  have none : ahead s s = 0 := by rw [ahead, Nat.add_sub_cancel_left, Nat.mod_self]
  rw [back, none] at distance
  exact Nat.le_of_dvd moved (Nat.dvd_of_mod_eq_zero distance.symm)

/-- From any serial, each serial that can be issued is reached within one turn. -/
theorem exists_iterate_next {s other : Serial} (issued : s.value ≠ 0) (issuable : other.value ≠ 0) :
    ∃ i < count, next^[i] s = other :=
  ⟨ahead s other, ahead_lt s other, iterate_ahead issued issuable⟩

end Serial

def Use.Answer.serial? : Use.Answer κ → Option Serial
  | .issued serial => some serial
  | _ => none

theorem Use.Answer.serial?_eq_some {answer : Use.Answer κ} {serial : Serial} :
    answer.serial? = some serial ↔ answer = .issued serial := by
  cases answer <;> simp [serial?]

namespace Outstanding

def issued (o : Outstanding κ) (uses : List (Use κ)) : List Serial :=
  (o.answers uses).filterMap Use.Answer.serial?

/-- The search for the serial of a new request comes to this serial, and it is outstanding. -/
def PassesOver (o : Outstanding κ) : Use κ → Serial → Prop
  | .submit .., serial => ∃ i, Serial.next^[i] o.nextSerial = serial ∧
      ∀ k ≤ i, o.contains (Serial.next^[k] o.nextSerial) = true
  | _, _ => False

def Visits (o : Outstanding κ) (use : Use κ) (serial : Serial) : Prop :=
  (o.perform use).1 = .issued serial ∨ o.PassesOver use serial

/-- A use more issues one serial at most, behind the others. -/
theorem issued_append_singleton (o : Outstanding κ) (uses : List (Use κ)) (use : Use κ) :
    o.issued (uses ++ [use]) =
      o.issued uses ++ ((o.after uses).perform use).1.serial?.toList := by
  induction uses generalizing o with
  | nil => cases h : (o.perform use).1.serial? <;> simp [issued, answers, h]
  | cons first uses ih =>
    have later := ih (o.perform first).2
    simp only [issued] at later ⊢
    rw [List.cons_append, answers, List.filterMap_cons, later, answers, List.filterMap_cons,
      after_cons]
    cases (o.perform first).1.serial? <;> rfl

/-- Every request is issued the serial that the search stops at. -/
theorem perform_issued {o : Outstanding κ} {use : Use κ} {serial : Serial}
    (answered : (o.perform use).1 = .issued serial) :
    serial = o.freeSerial ∧ (o.perform use).2.nextSerial = serial.next ∧
      ∃ operation completion attribution, use = .submit operation completion attribution := by
  cases use with
  | submit operation completion attribution =>
    cases answered
    exact ⟨rfl, rfl, _, _, _, rfl⟩
  | take | drain | contains | size => cases answered

/-! ## Going round -/

/-- One use moves the search on by a number of serials and visits each of them. -/
theorem perform_visits (o : Outstanding κ) (use : Use κ) :
    ∃ n ≥ (o.perform use).1.serial?.toList.length,
      (o.perform use).2.nextSerial = Serial.next^[n] o.nextSerial ∧
        ∀ k < n, o.Visits use (Serial.next^[k] o.nextSerial) := by
  cases use with
  | submit operation completion attribution =>
    obtain ⟨j, -, stop, before, -⟩ := firstFree_eq_iterate o.contains o.size o.nextSerial
    refine ⟨j + 1, Nat.succ_le_succ (Nat.zero_le j), ?_, fun k within => ?_⟩
    · rw [Function.iterate_succ_apply', ← stop]
      rfl
    · obtain earlier | rfl := Nat.lt_succ_iff_lt_or_eq.1 within
      · exact .inr ⟨k, rfl, fun i upTo => before i (Nat.lt_of_le_of_lt upTo earlier)⟩
      · rw [← stop]
        exact .inl rfl
  | take | drain | contains | size =>
    exact ⟨0, Nat.le_refl 0, rfl, fun k within => absurd within (Nat.not_lt_zero k)⟩

/-- Uses move the search on, one where the other has stopped, and visit each serial on the way. -/
theorem after_visits (o : Outstanding κ) (uses : List (Use κ)) :
    ∃ n ≥ (o.issued uses).length, (o.after uses).nextSerial = Serial.next^[n] o.nextSerial ∧
      ∀ k < n, ∃ earlier use later, uses = earlier ++ use :: later ∧
        (o.after earlier).Visits use (Serial.next^[k] o.nextSerial) := by
  induction uses using List.reverseRecOn with
  | nil => exact ⟨0, Nat.le_refl 0, rfl, fun k within => absurd within (Nat.not_lt_zero k)⟩
  | append_singleton uses use ih =>
    obtain ⟨n, atLeast, stop, visited⟩ := ih
    obtain ⟨m, atLeast', stop', visited'⟩ := (o.after uses).perform_visits use
    have issues := congrArg List.length (o.issued_append_singleton uses use)
    rw [List.length_append] at issues
    refine ⟨m + n, by omega, ?_, fun k within => ?_⟩
    · rw [after_append, after_cons, after_nil, stop', stop, ← Function.iterate_add_apply]
    · by_cases before : k < n
      · obtain ⟨earlier, visitor, later, rfl, visits⟩ := visited k before
        exact ⟨earlier, visitor, later ++ [use], by simp, visits⟩
      · have visits := visited' (k - n) (by omega)
        rw [stop, ← Function.iterate_add_apply, Nat.sub_add_cancel (by omega)] at visits
        exact ⟨uses, use, [], rfl, visits⟩

/-- A search for a serial never begins at zero. -/
theorem nextSerial_ne_zero (uses : List (Use κ)) :
    ((empty : Outstanding κ).after uses).nextSerial.value ≠ 0 := by
  obtain ⟨n, -, stop, -⟩ := (empty : Outstanding κ).after_visits uses
  rw [stop]
  exact Serial.iterate_next_ne_zero (s := .first) (by decide) n

/-- Zero is never issued. -/
theorem freeSerial_ne_zero {o : Outstanding κ} (issuable : o.nextSerial.value ≠ 0) :
    o.freeSerial.value ≠ 0 := by
  obtain ⟨j, -, stop, -⟩ := firstFree_eq_iterate o.contains o.size o.nextSerial
  rw [freeSerial, stop]
  exact Serial.iterate_next_ne_zero issuable j

/-! ## The first turn -/

/-- The age counts the serials that were issued. -/
theorem nextAge_perform (o : Outstanding κ) (use : Use κ) :
    (o.perform use).2.nextAge = o.nextAge + (o.perform use).1.serial?.toList.length := by
  cases use <;> rfl

theorem Counting.perform {o : Outstanding κ} (counting : o.Counting) (sound : o.Sound)
    {use : Use κ} (fewer : (o.perform use).2.nextAge ≤ Serial.count) :
    (o.perform use).2.Counting := by
  cases use with
  | submit operation completion attribution => exact counting.submit sound fewer _ _ _
  | take serial => exact counting.erase serial
  | drain => exact counting.clear
  | contains | size => exact counting

/-- The count of requests entered is that of serials issued. -/
theorem nextAge_after (uses : List (Use κ)) :
    ((empty : Outstanding κ).after uses).nextAge = (empty.issued uses).length := by
  induction uses using List.reverseRecOn with
  | nil => rfl
  | append_singleton uses use ih =>
    rw [issued_append_singleton, after_append, after_cons, after_nil, nextAge_perform, ih,
      List.length_append]

/-- Until all serials have been issued once, none is outstanding ahead of the search. -/
theorem counting_after {uses : List (Use κ)} (fewer : (empty.issued uses).length ≤ Serial.count) :
    ((empty : Outstanding κ).after uses).Counting := by
  rw [← nextAge_after] at fewer
  induction uses using List.reverseRecOn with
  | nil => exact counting_empty
  | append_singleton uses use ih =>
    rw [after_append, after_cons, after_nil] at fewer ⊢
    have grown := nextAge_perform (empty.after uses) use
    exact (ih (by omega)).perform (sound_after uses) fewer

/-- The serials issued first are all serials in their order. -/
theorem take_issued (uses : List (Use κ)) :
    ((empty.issued uses).take Serial.count).map (·.value.toNat) =
      List.range' 1 (min Serial.count (empty.issued uses).length) := by
  induction uses using List.reverseRecOn with
  | nil => rfl
  | append_singleton uses use ih =>
    rw [issued_append_singleton]
    cases answered : ((empty.after uses).perform use).1.serial? with
    | none => rwa [Option.toList_none, List.append_nil]
    | some serial =>
      rw [Option.toList_some, List.length_append, List.length_singleton]
      by_cases fewer : (empty.issued uses).length < Serial.count
      · have counting := counting_after (Nat.le_of_lt fewer)
        have value := (counting.freeSerial (sound_after uses) (by rwa [nextAge_after])).2
        rw [nextAge_after, ← (perform_issued (Use.Answer.serial?_eq_some.1 answered)).1] at value
        rw [List.take_of_length_le (by omega), Nat.min_eq_right (by omega)] at ih
        rw [List.take_of_length_le (by simp; omega), Nat.min_eq_right (by omega), List.map_append,
          ih, List.map_singleton, value, List.range'_concat]
        simp [Nat.add_comm]
      · rw [List.take_append_of_le_length (by omega), ih]
        congr 1
        omega

/-! ## Every turn -/

/-- As long as serials are left, a fresh table issues neither zero nor an outstanding serial. It
issues all serials in their order, whatever is taken out in between, before any comes again. And
between two requests under one serial, each serial is issued or passed over while it is
outstanding. -/
theorem serials_come_round (uses : List (Use κ)) (room : (empty : Outstanding κ).Roomy uses) :
    (∀ earlier use later serial, uses = earlier ++ use :: later →
      ((empty.after earlier).perform use).1 = .issued serial →
        serial.value ≠ 0 ∧ (empty.after earlier).contains serial = false) ∧
    ((empty.issued uses).take Serial.count).map (·.value.toNat) =
      List.range' 1 (min Serial.count (empty.issued uses).length) ∧
    ((empty.issued uses).take Serial.count).Nodup ∧
    ∀ before first between again later serial,
      uses = before ++ first :: between ++ again :: later →
      ((empty.after before).perform first).1 = .issued serial →
      ((empty.after (before ++ first :: between)).perform again).1 = .issued serial →
      ∀ other : Serial, other.value ≠ 0 →
        ∃ sooner visitor beyond, between ++ [again] = sooner ++ visitor :: beyond ∧
          (empty.after (before ++ first :: sooner)).Visits visitor other := by
  refine ⟨?_, take_issued uses, ?_, ?_⟩
  · rintro earlier use later serial rfl answered
    obtain ⟨rfl, -, operation, completion, attribution, rfl⟩ := perform_issued answered
    exact ⟨freeSerial_ne_zero (nextSerial_ne_zero earlier),
      contains_freeSerial (roomy_append.1 room).2.1⟩
  · refine List.Nodup.of_map (fun serial : Serial => serial.value.toNat) ?_
    rw [take_issued]
    exact List.nodup_range'
  · rintro before first between again later serial rfl issued reissued other issuable
    have behind := (perform_issued issued).2.1
    have behind' := (perform_issued reissued).2.1
    rw [after_append, after_cons] at reissued behind'
    -- the searches that follow the first request come back to the same place
    obtain ⟨n, atLeast, stop, visited⟩ :=
      ((empty.after before).perform first).2.after_visits (between ++ [again])
    rw [after_append, after_cons, after_nil, behind', behind] at stop
    rw [issued_append_singleton, reissued, List.length_append] at atLeast
    have turn : Serial.count ≤ n :=
      Serial.count_le_of_iterate_next (Serial.next_ne_zero serial)
        (Nat.lt_of_lt_of_le (Nat.succ_pos _) atLeast) stop.symm
    obtain ⟨k, within, reached⟩ :=
      Serial.exists_iterate_next (Serial.next_ne_zero serial) issuable
    obtain ⟨sooner, visitor, beyond, split, visits⟩ := visited k (Nat.lt_of_lt_of_le within turn)
    refine ⟨sooner, visitor, beyond, split, ?_⟩
    rw [after_append, after_cons]
    rwa [behind, reached] at visits

/-- A serial that is given back at once is not issued next. -/
theorem serials_come_round_of_taken :
    ((empty : Outstanding Nat).issued [.submit .getSlotStatus 7 .standard, .take .first,
      .submit .getSlotStatus 8 .standard]).map (·.value.toNat) = [1, 2] := by
  have inTurn := (serials_come_round (κ := Nat) [.submit .getSlotStatus 7 .standard, .take .first,
    .submit .getSlotStatus 8 .standard] (roomy_of_length (by decide))).2.1
  rwa [List.take_of_length_le (by decide)] at inTurn

end Outstanding

end Baseband
