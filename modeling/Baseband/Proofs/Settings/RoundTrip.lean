import Mathlib.Data.List.Nodup
import Baseband.Proofs.Duration
import Baseband.Proofs.Json.Printer
import Baseband.Proofs.Settings.Members
import Baseband.Settings.Writer

/-!
# Settings written and read back

Settings that a client can work with are read back from what is written for them. Each part is
written under its names, and its reader finds it there. The one thing left open is whether the
digits of a binary number lead back to it.

## Main statements

* `read_toJson`: the settings a written value stands for.
* `parse_text`: settings are read back from their text.
-/

namespace Baseband.Settings

open Json (NumberLiteral WellFormed)

variable {α : Type} {known : List String} {name : String} {values : List Json} {value : Json}
  {read : Option Json → Option α} {x : α} {n : Nat}

/-! ## Objects with given names -/

theorem named_zipWith (known : List String) (strict : Bool) (values : List Json) :
    Named known strict (known.zipWith (fun name value => (some name, value)) values) := by
  intro member mem
  simp only [← List.map_uncurry_zip_eq_zipWith, List.mem_map] at mem
  obtain ⟨⟨name, value⟩, mem, rfl⟩ := mem
  exact ⟨name, rfl, fun _ => (List.of_mem_zip mem).1⟩

/-- Values written under distinct names are found under them. -/
theorem field_zipWith (nodup : known.Nodup) (mem : (name, value) ∈ known.zip values) :
    Field (known.zipWith (fun name value => (some name, value)) values) name (some value) := by
  induction known generalizing values with
  | nil => simp at mem
  | cons first others ih =>
    cases values with
    | nil => simp at mem
    | cons v rest =>
      obtain ⟨new, nodup⟩ := List.nodup_cons.mp nodup
      rw [List.zip_cons_cons, List.mem_cons] at mem
      rw [List.zipWith_cons_cons, Field]
      obtain h | mem := mem
      · obtain ⟨rfl, rfl⟩ := Prod.mk.inj h
        have absent : Field (others.zipWith (fun name value => (some name, value)) rest) name none := by
          refine List.filter_eq_nil_iff.mpr fun member mem same => ?_
          obtain ⟨key, known, among⟩ := named_zipWith others true rest member mem
          have same : member.1 = some name := by simpa using same
          obtain rfl := Option.some.inj (known.symm.trans same)
          exact new (among rfl)
        rw [List.filter_cons_of_pos (by simp), absent]
        rfl
      · have ne : first ≠ name := by
          rintro rfl
          exact new (List.of_mem_zip mem).1
        rw [List.filter_cons_of_neg (by simpa using ne)]
        exact ih nodup mem

/-- A written member is read from its value. -/
theorem member_zipWith (value : Json) (nodup : known.Nodup) (mem : (name, value) ∈ known.zip values)
    (h : read (some value) = some x) :
    Member (known.zipWith (fun name value => (some name, value)) values) name read x :=
  ⟨some value, field_zipWith nodup mem, h⟩

theorem wellFormed_objectOf (h : ∀ value ∈ values, WellFormed value) :
    WellFormed (objectOf known values) := by
  refine Json.wellFormed_object fun member mem => ?_
  simp only [← List.map_uncurry_zip_eq_zipWith, List.mem_map] at mem
  obtain ⟨⟨name, value⟩, mem, rfl⟩ := mem
  exact h value (List.of_mem_zip mem).2

/-! ## Parts of settings -/

theorem readNatural_naturalJson {limit : Nat} (le : n ≤ limit)
    (fits : limit ≤ NumberLiteral.wordLimit) : readNatural limit (naturalJson n) = some n :=
  NumberLiteral.natural?_ofNat le fits

theorem readWord_naturalJson (n : UInt64) : readWord (naturalJson n.toNat) = some n := by
  have fits : n.toNat ≤ 1 <<< 64 - 1 := Nat.le_pred_of_lt n.toNat_lt
  rw [readWord, readNatural_naturalJson fits le_rfl, Option.map_some, UInt64.ofNat_toNat]

theorem readVersion_versionJson (v : Version) : readVersion (versionJson v) = some v :=
  readVersion_object.mpr ⟨named_zipWith _ _ _, v.major.toNat, v.minor.toNat,
    member_zipWith (naturalJson v.major.toNat) (by decide) (by simp [versionNames])
      (readNatural_naturalJson (Nat.le_pred_of_lt v.major.toNat_lt) (by decide)),
    member_zipWith (naturalJson v.minor.toNat) (by decide) (by simp [versionNames])
      (readNatural_naturalJson (Nat.le_pred_of_lt v.minor.toNat_lt) (by decide)),
    by simp⟩

theorem readAttribution_attributionJson (w : Attribution) :
    readAttribution (attributionJson w) = some w :=
  readAttribution_object.mpr ⟨named_zipWith _ _ _, w.uid.toNat, w.package,
    member_zipWith (naturalJson w.uid.toNat) (by decide) (by simp [attributionNames])
      (readNatural_naturalJson (Nat.le_pred_of_lt w.uid.toNat_lt) (by decide)),
    member_zipWith (.string (some w.package)) (by decide) (by simp [attributionNames]) rfl,
    by simp⟩

theorem readDuration_durationJson (d : Duration) : readDuration (durationJson d) = some d := by
  have fits : d.seconds ≤ 1 <<< 64 - 1 := Nat.le_pred_of_lt d.seconds_lt
  have small : d.subsecond ≤ 1 <<< 32 - 1 := d.subsecond_lt.le.trans (by decide)
  exact readDuration_object.mpr ⟨named_zipWith _ _ _, d.seconds, d.subsecond,
    member_zipWith (naturalJson d.seconds) (by decide) (by simp [durationNames])
      (readNatural_naturalJson fits le_rfl),
    member_zipWith (naturalJson d.subsecond) (by decide) (by simp [durationNames])
      (readNatural_naturalJson small (by decide)),
    d.of?_seconds_subsecond⟩

/-- The digits that are written for a binary number lead back to it. -/
def ReadsBack (x : Single) : Prop :=
  (NumberLiteral.ofSingle x).single? = some x

/-- A finite number is read back if its digits lead back to it. -/
theorem readSingle_singleJson {x : Single} (finite : x.isFinite) (back : ReadsBack x) :
    readSingle (singleJson x) = some x := by
  rw [singleJson, if_pos finite]
  exact back

theorem readRetry_retryJson {r : RetryPolicy} (finite : r.multiplier.isFinite)
    (back : ReadsBack r.multiplier) : readRetry (retryJson r) = some r :=
  readRetry_object.mpr ⟨named_zipWith _ _ _, r.maxAttempts.toNat,
    member_zipWith (naturalJson r.maxAttempts.toNat) (by decide) (by simp [retryNames])
      (readNatural_naturalJson (Nat.le_pred_of_lt r.maxAttempts.toNat_lt) (by decide)),
    member_zipWith (singleJson r.multiplier) (by decide) (by simp [retryNames])
      (readSingle_singleJson finite back),
    member_zipWith (durationJson r.initialDelay) (by decide) (by simp [retryNames])
      (readDuration_durationJson r.initialDelay),
    member_zipWith (durationJson r.maxDelay) (by decide) (by simp [retryNames])
      (readDuration_durationJson r.maxDelay),
    UInt32.ofNat_toNat⟩

theorem readList_map {β : Type} {read : From β} {write : β → Json}
    (back : ∀ x, read (write x) = some x) (xs : List β) :
    readList read (.array (xs.map write)) = some xs :=
  mapM_eq_some.mpr (List.forall₂_map_left_iff.mpr (List.forall₂_same.mpr fun x _ => back x))

theorem readOptional_retryJson {retry : Option RetryPolicy}
    (finite : ∀ r ∈ retry, r.multiplier.isFinite) (back : ∀ r ∈ retry, ReadsBack r.multiplier) :
    readOptional readRetry ((retry.map retryJson).getD .null) = some retry := by
  cases retry with
  | none => rfl
  | some r => exact congrArg (Option.map some) (readRetry_retryJson (finite r rfl) (back r rfl))

/-! ## Settings -/

variable {s : Settings}

/-- Settings are read back from their own members. -/
theorem read_toJson (s : Settings) (finite : ∀ r ∈ s.retry, r.multiplier.isFinite)
    (back : ∀ r ∈ s.retry, ReadsBack r.multiplier) : Settings.read s.toJson = some s := by
  refine read_object.mpr ⟨named_zipWith _ _ _, ?_, ?_, ?_, ?_, ?_, ?_, ?_⟩
  · exact member_zipWith (.array (s.candidates.map versionJson)) (by decide) (by simp [names])
      (readList_map readVersion_versionJson s.candidates)
  · exact member_zipWith (.bool s.mobileNetwork) (by decide) (by simp [names]) rfl
  · exact member_zipWith (attributionJson s.attribution) (by decide) (by simp [names])
      (readAttribution_attributionJson s.attribution)
  · exact member_zipWith (.bool s.standalone) (by decide) (by simp [names]) rfl
  · exact member_zipWith (.bool s.nonStandalone) (by decide) (by simp [names]) rfl
  · exact member_zipWith ((s.retry.map retryJson).getD .null) (by decide) (by simp [names])
      (readOptional_retryJson finite back)
  · exact member_zipWith (naturalJson s.inboxCapacity.toNat) (by decide) (by simp [names])
      (readWord_naturalJson s.inboxCapacity)

theorem wellFormed_naturalJson (n : Nat) : WellFormed (naturalJson n) :=
  Json.wellFormed_number (NumberLiteral.wellFormed_ofNat n)

theorem wellFormed_singleJson (x : Single) : WellFormed (singleJson x) := by
  unfold singleJson
  split
  · exact Json.wellFormed_number (NumberLiteral.wellFormed_ofSingle x)
  · exact Json.wellFormed_null

theorem wellFormed_versionJson (v : Version) : WellFormed (versionJson v) :=
  wellFormed_objectOf (by simp [wellFormed_naturalJson])

theorem wellFormed_attributionJson (w : Attribution) : WellFormed (attributionJson w) :=
  wellFormed_objectOf (by simp [wellFormed_naturalJson, Json.wellFormed_string])

theorem wellFormed_durationJson (d : Duration) : WellFormed (durationJson d) :=
  wellFormed_objectOf (by simp [wellFormed_naturalJson])

theorem wellFormed_retryJson (r : RetryPolicy) : WellFormed (retryJson r) :=
  wellFormed_objectOf (by
    simp [wellFormed_naturalJson, wellFormed_singleJson, wellFormed_durationJson])

/-- The written settings contain well-formed numbers only. -/
theorem wellFormed_toJson (s : Settings) : WellFormed s.toJson := by
  have candidates : WellFormed (.array (s.candidates.map versionJson)) :=
    Json.wellFormed_array (by simp [wellFormed_versionJson])
  have retry : WellFormed ((s.retry.map retryJson).getD .null) := by
    cases s.retry with
    | none => exact Json.wellFormed_null
    | some r => exact wellFormed_retryJson r
  exact wellFormed_objectOf (by
    simp [candidates, retry, Json.wellFormed_bool, wellFormed_attributionJson,
      wellFormed_naturalJson])

/-- Accepted settings are read back from their text, if the digits of their factor lead back to
it. -/
theorem parse_text (accepted : s.check = .ok ()) (finite : ∀ r ∈ s.retry, r.multiplier.isFinite)
    (back : ∀ r ∈ s.retry, ReadsBack r.multiplier) : parse s.text = .ok s := by
  have written : Json.parse? s.text = some s.toJson := Json.parse?_text (wellFormed_toJson s)
  simp only [parse, written, Option.bind_some, read_toJson s finite back, accepted]
  rfl

theorem parse_text_of_escapes :
    let r : RetryPolicy := ⟨7, ⟨0x3dcccccd⟩, .millis 1500, .millis 4294967295⟩
    let s : Settings := { Settings.standard with
      candidates := [⟨1, 0⟩, ⟨65535, 65535⟩, ⟨1, 0⟩]
      attribution := ⟨4294967295, "a\"b\\c\n\u0001é"⟩
      retry := some r
      inboxCapacity := 18446744073709551615 }
    s.check = .ok () ∧ r.multiplier.isFinite ∧ ReadsBack r.multiplier ∧ parse s.text = .ok s := by
  intro r s
  have finite : r.multiplier.isFinite := by decide +kernel
  have back : ReadsBack r.multiplier := by unfold ReadsBack; decide +kernel
  have finite_retry : ∀ r ∈ s.retry, r.multiplier.isFinite := by
    rintro _ ⟨⟩
    exact finite
  have back_retry : ∀ r ∈ s.retry, ReadsBack r.multiplier := by
    rintro _ ⟨⟩
    exact back
  exact ⟨rfl, finite, back, parse_text rfl finite_retry back_retry⟩

end Baseband.Settings
