import Mathlib.Data.List.TakeDrop
import Baseband.Proofs.Record

/-!
# Records cut short

A record whose last field is optional may end before it. That leaves no doubt about where a record
ends: the fields of one record begin with those of another only if they are the same, or if the
longer record has nothing more than the list of capabilities that the shorter one lacks. A record
that is cut anywhere else is refused, also under a header that states the size of what is left.

## Main statements

* `delimited_of_reads`: nothing that is read from the front is the beginning of another record.
* `PhoneCapability.shortens`: where the end of the envelope stands for an absent list.
-/

namespace Baseband

open Envelope Reader

namespace Record

variable {α : Type} [Record α] {fields fields' : Bytes} {v v' : α}

/-! ## Fields of accepted records -/

def FieldsOf (fields : Bytes) (v : α) : Prop :=
  ∃ bytes, unwrap bytes = .ok fields ∧ decode bytes = .ok v

/-- Fields of an accepted record are accepted under a header of their own. -/
theorem fieldsOf_iff : FieldsOf fields v ↔ decode (wrap fields) = .ok v := by
  constructor
  · rintro ⟨bytes, opened, read⟩
    rwa [← (unwrap_eq_ok.1 opened).1]
  · intro read
    obtain ⟨_, same, fits, -⟩ := Envelope.decode_eq_ok.1 read
    exact ⟨wrap fields, unwrap_eq_ok.2 ⟨rfl, fits⟩, read⟩

theorem wrap_injective (same : wrap fields = wrap fields') : fields = fields' := by
  have opened (fields : Bytes) : (wrap fields).drop headerSize = fields := List.drop_left' rfl
  rw [← opened fields, same, opened]

/-- The fields of an exact record are those written of it. -/
theorem Exact.fieldsOf_iff (exact : Exact α) :
    FieldsOf fields v ↔ fields = write v ∧ Fits (wrap fields).length := by
  rw [Record.fieldsOf_iff, exact.decode_eq_ok, maxSize, Fits, Nat.lt_succ_iff]
  refine and_congr_left fun _ => ⟨fun same => (wrap_injective same).symm, ?_⟩
  rintro rfl
  rfl

theorem Exact.fits (exact : Exact α) (own : FieldsOf fields v) : Fits (write v).length := by
  obtain ⟨rfl, fits⟩ := exact.fieldsOf_iff.1 own
  rw [length_wrap] at fits
  exact fits.of_le (Nat.le_add_left _ _)

/-- Fewer bytes than those of an accepted record fit into an envelope as well. -/
theorem Exact.fits_of_take (exact : Exact α) (own : FieldsOf fields v) (n : Nat) :
    Fits (wrap (fields.take n)).length := by
  refine (exact.fieldsOf_iff.1 own).2.of_le ?_
  rw [length_wrap, length_wrap, List.length_take]
  omega

/-! ## Records that end by themselves -/

/-- The fields of a record never begin with those of another, so nothing that is cut off at their
end can be told from them. -/
structure Delimited (α : Type) [Record α] : Prop where
  eq_of_prefix : ∀ (fields fields' : Bytes) (v v' : α), FieldsOf fields v → FieldsOf fields' v' →
    fields <+: fields' → fields = fields'
  cut : ∀ (fields : Bytes) (v : α) (n : Nat), FieldsOf fields v → n < fields.length →
    ∃ why, (decode (wrap (fields.take n)) : Except Malformed α) = .error why

/-- A record whose reader stops by itself is delimited. -/
theorem delimited_of_reads {known : α → Prop} (reads : Reads (read : Reader α) known write)
    (knows : ∀ v : α, Fits (write v).length → known v) : Delimited α := by
  have exact : Exact α := exact_of_reads reads knows
  have free (fields fields' : Bytes) (v v' : α) (own : FieldsOf fields v)
      (other : FieldsOf fields' v') (le : fields <+: fields') : fields = fields' := by
    have ok := knows v (exact.fits own)
    have ok' := knows v' (exact.fits other)
    obtain ⟨rfl, -⟩ := exact.fieldsOf_iff.1 own
    obtain ⟨rfl, -⟩ := exact.fieldsOf_iff.1 other
    obtain ⟨more, same⟩ := le
    rw [(reads.append_inj ok ok' (same.trans (List.append_nil _).symm)).1]
  refine ⟨free, fun fields v n own short => ?_⟩
  cases read : (decode (wrap (fields.take n)) : Except Malformed α) with
  | error why => exact ⟨why, rfl⟩
  | ok v' =>
    have same := free _ _ v' v (fieldsOf_iff.2 read) own (List.take_prefix n fields)
    exact absurd ((List.take_eq_self_iff _).1 same) (Nat.not_le_of_lt short)

end Record

/-! ## The capability of the phone -/

namespace PhoneCapability

open Record

variable {v v' : PhoneCapability}

def SameMandatory (v v' : PhoneCapability) : Prop :=
  v.maxActiveData = v'.maxActiveData ∧ v.maxActiveInternetData = v'.maxActiveInternetData ∧
    v.internetLinger = v'.internetLinger ∧ v.logicalModems = v'.logicalModems

theorem fits_logicalModems (fits : Fits (write v).length) : Fits v.logicalModems.length := by
  refine fits_of_u32s (fits.of_le ?_)
  simp only [Record.write, List.length_append]
  omega

theorem fits_codes {capabilities : List NrCapability} (fits : Fits (write v).length)
    (present : v.nrCapabilities = some capabilities) :
    Fits (capabilities.map NrCapability.code).length := by
  refine fits_of_u32s (fits.of_le ?_)
  simp only [Record.write, present, writeNr, List.length_append]
  omega

/-- Bytes that begin with two capabilities say the same in every mandatory field, and what follows
these fields is the same. -/
theorem write_append_inj (fits : Fits (write v).length) (fits' : Fits (write v').length)
    {rest rest' : Bytes} (same : write v ++ rest = write v' ++ rest') :
    SameMandatory v v' ∧
      writeNr v.nrCapabilities ++ rest = writeNr v'.nrCapabilities ++ rest' := by
  simp only [Record.write, List.append_assoc] at same
  obtain ⟨data, same⟩ := reads_u8.append_inj trivial trivial same
  obtain ⟨internet, same⟩ := reads_u8.append_inj trivial trivial same
  obtain ⟨linger, same⟩ := reads_bool.append_inj trivial trivial same
  obtain ⟨modems, same⟩ :=
    reads_u32s.append_inj (fits_logicalModems fits) (fits_logicalModems fits') same
  exact ⟨⟨data, internet, linger, modems⟩, same⟩

theorem writeNr_ne_nil (capabilities : List NrCapability) : writeNr (some capabilities) ≠ [] := by
  simp [writeNr, Envelope.u32s, count, Envelope.u32]

/-- A capability with the list begins with the same one without it. -/
theorem write_of_sameMandatory (same : SameMandatory v v') (absent : v.nrCapabilities = none) :
    write v' = write v ++ writeNr v'.nrCapabilities := by
  obtain ⟨data, internet, linger, modems⟩ := same
  simp only [Record.write, absent, data, internet, linger, modems, writeNr, List.append_nil]

/-- What is written of a capability goes on after another one only with the list that the other
lacks. -/
theorem write_prefix_iff (fits : Fits (write v).length) (fits' : Fits (write v').length) :
    (write v <+: write v' ∧ write v ≠ write v') ↔
      SameMandatory v v' ∧ v.nrCapabilities = none ∧ v'.nrCapabilities.isSome := by
  constructor
  · rintro ⟨⟨more, same⟩, proper⟩
    obtain ⟨mandatory, tail⟩ := write_append_inj fits fits' (same.trans (List.append_nil _).symm)
    refine ⟨mandatory, ?_⟩
    rw [List.append_nil] at tail
    cases own : v.nrCapabilities with
    | none =>
      cases other : v'.nrCapabilities with
      | none =>
        have whole := write_of_sameMandatory mandatory own
        rw [other, writeNr, List.append_nil] at whole
        exact absurd whole.symm proper
      | some capabilities => exact ⟨rfl, rfl⟩
    | some capabilities =>
      rw [own] at tail
      cases other : v'.nrCapabilities with
      | none =>
        rw [other] at tail
        exact absurd (List.append_eq_nil_iff.1 tail).1 (writeNr_ne_nil capabilities)
      | some capabilities' =>
        -- both lists carry their counts, so nothing can follow the first one
        rw [other, ← List.append_nil (writeNr (some capabilities'))] at tail
        obtain ⟨-, rfl⟩ :=
          reads_u32s.append_inj (fits_codes fits own) (fits_codes fits' other) tail
        exact absurd ((List.append_nil _).symm.trans same) proper
  · rintro ⟨mandatory, absent, present⟩
    obtain ⟨capabilities, listed⟩ := Option.isSome_iff_exists.1 present
    rw [write_of_sameMandatory mandatory absent, listed]
    exact ⟨List.prefix_append _ _, fun same =>
      writeNr_ne_nil capabilities (List.self_eq_append_right.1 same)⟩

/-- The fields of a capability begin with those of another exactly if the other lacks its list, and
they can be cut only where that list begins. -/
structure Shortens : Prop where
  prefix_iff : ∀ (fields fields' : Bytes) (v v' : PhoneCapability),
    FieldsOf fields v → FieldsOf fields' v' →
      ((fields <+: fields' ∧ fields ≠ fields') ↔
        SameMandatory v v' ∧ v.nrCapabilities = none ∧ v'.nrCapabilities.isSome)
  cut_before_list : ∀ (fields : Bytes) (v : PhoneCapability), FieldsOf fields v →
    decode (wrap (fields.take (write { v with nrCapabilities := none }).length)) =
      .ok { v with nrCapabilities := none }
  cut_elsewhere : ∀ (fields : Bytes) (v : PhoneCapability) (n : Nat), FieldsOf fields v →
    n < fields.length → n ≠ (write { v with nrCapabilities := none }).length →
      ∃ why, (decode (wrap (fields.take n)) : Except Malformed PhoneCapability) = .error why

theorem write_eq_append (v : PhoneCapability) :
    write v = write { v with nrCapabilities := none } ++ writeNr v.nrCapabilities :=
  write_of_sameMandatory ⟨rfl, rfl, rfl, rfl⟩ rfl

/-- The capability is the one record that can be shortened, and only by its whole list. -/
theorem shortens : Shortens where
  prefix_iff fields fields' v v' own other := by
    have fits := exact.fits own
    have fits' := exact.fits other
    obtain ⟨rfl, -⟩ := exact.fieldsOf_iff.1 own
    obtain ⟨rfl, -⟩ := exact.fieldsOf_iff.1 other
    exact write_prefix_iff fits fits'
  cut_before_list fields v own := by
    have fits := exact.fits_of_take own (write { v with nrCapabilities := none }).length
    obtain ⟨rfl, -⟩ := exact.fieldsOf_iff.1 own
    have front : (write v).take (write { v with nrCapabilities := none }).length =
        write { v with nrCapabilities := none } := by
      rw [write_eq_append v, List.take_left]
    rw [front] at fits ⊢
    exact fieldsOf_iff.1 (exact.fieldsOf_iff.2 ⟨rfl, fits⟩)
  cut_elsewhere fields v n own short elsewhere := by
    cases read : (decode (wrap (fields.take n)) : Except Malformed PhoneCapability) with
    | error why => exact ⟨why, rfl⟩
    | ok v' =>
      have cut := fieldsOf_iff.2 read
      have fits := exact.fits own
      have fits' := exact.fits cut
      obtain ⟨front, -⟩ := exact.fieldsOf_iff.1 cut
      obtain ⟨rfl, -⟩ := exact.fieldsOf_iff.1 own
      have size := congrArg List.length front
      rw [List.length_take, Nat.min_eq_left short.le] at size
      have proper : write v' <+: write v ∧ write v' ≠ write v := by
        rw [← front]
        exact ⟨List.take_prefix _ _, fun same =>
          Nat.not_le_of_lt short ((List.take_eq_self_iff _).1 same)⟩
      obtain ⟨mandatory, absent, -⟩ := (write_prefix_iff fits' fits).1 proper
      have whole := write_of_sameMandatory mandatory absent
      rw [write_eq_append v] at whole
      rw [List.append_cancel_right whole] at elsewhere
      exact absurd size elsewhere

end PhoneCapability

namespace Record

/-- No accepted record is the beginning of another one, except that a capability without its last
list is the beginning of one with it. -/
theorem truncation_unambiguous :
    Delimited NoArguments ∧ Delimited SlotMapping ∧ Delimited PreferredDataModem ∧
      Delimited LiveModems ∧ Delimited SlotStatus ∧ Delimited SlotStatusList ∧
      Delimited DeviceCapability ∧ PhoneCapability.Shortens :=
  ⟨delimited_of_reads reads_noArguments fun _ _ => trivial,
    delimited_of_reads reads_slotMapping fun _ => fits_of_u32s,
    delimited_of_reads reads_preferredDataModem fun _ _ => trivial,
    delimited_of_reads reads_liveModems fun _ _ => trivial,
    delimited_of_reads SlotStatus.reads fun _ => SlotStatus.textsFit_of_fits,
    delimited_of_reads reads_slotStatusList fun _ => fits_of_slotStatusList,
    delimited_of_reads reads_deviceCapability fun _ _ => trivial,
    PhoneCapability.shortens⟩

end Record

end Baseband
