import Baseband.Record
import Baseband.Proofs.Envelope.Reading

/-!
# Records have one written form

Every byte string that is read as a record is what is written of that record. The readers of all
records but one take what is written from the front, whatever follows; the reader of a phone
capability looks for the end of the envelope.
-/

namespace Baseband

open Envelope Reader

namespace Record

/-- The most bytes that an envelope can have, its size being a word. -/
def maxSize : Nat :=
  0xffffffff

/-- The fields are read, up to the end of the envelope, exactly from what is written of them. -/
def Exact (α : Type) [Record α] : Prop :=
  ∀ (fields : Bytes) (v : α), Fits fields.length →
    ((read : Reader α) fields = .ok (v, []) ↔ fields = write v)

/-- A record is exact if all its counts fit whenever it is written within the largest envelope. -/
theorem exact_of_reads {α : Type} [Record α] {known : α → Prop}
    (reads : Reads (read : Reader α) known write)
    (knows : ∀ v : α, Fits (write v).length → known v) : Exact α := by
  intro fields v fits
  rw [reads, List.append_nil]
  constructor
  · exact And.right
  · rintro rfl
    exact ⟨knows v fits, rfl⟩

/-- A record is read from its encoding, and from nothing else. -/
theorem Exact.decode_eq_ok {α : Type} [Record α] (exact : Exact α) {bytes : Bytes} {v : α} :
    decode bytes = .ok v ↔ encode v = bytes ∧ bytes.length ≤ maxSize := by
  have fits : bytes.length ≤ maxSize ↔ Fits bytes.length := Nat.lt_succ_iff.symm
  have inner (fields : Bytes) (outer : Fits (wrap fields).length) : Fits fields.length := by
    rw [length_wrap] at outer
    exact outer.of_le (Nat.le_add_left _ _)
  rw [Record.decode, Envelope.decode_eq_ok, fits]
  constructor
  · rintro ⟨fields, rfl, outer, read⟩
    obtain rfl := (exact fields v (inner fields outer)).1 read
    exact ⟨rfl, outer⟩
  · rintro ⟨rfl, outer⟩
    exact ⟨write v, rfl, outer, (exact _ v (inner _ outer)).2 rfl⟩

end Record

/-! ## Records that are read from the front -/

theorem reads_noArguments :
    Reads (Record.read : Reader NoArguments) (fun _ => True) Record.write := by
  intro bs v rest
  refine pure_eq_ok.trans ?_
  rw [true_and]
  exact and_iff_right rfl

theorem reads_slotMapping :
    Reads (Record.read : Reader SlotMapping) (fun r => Fits r.physicalSlots.length)
      Record.write :=
  reads_u32s.of_field SlotMapping.mk SlotMapping.physicalSlots (fun _ => rfl) fun _ => rfl

theorem reads_preferredDataModem :
    Reads (Record.read : Reader PreferredDataModem) (fun _ => True) Record.write :=
  reads_u8.of_field PreferredDataModem.mk PreferredDataModem.modem (fun _ => rfl) fun _ => rfl

theorem reads_liveModems :
    Reads (Record.read : Reader LiveModems) (fun _ => True) Record.write :=
  reads_u8.of_field LiveModems.mk LiveModems.count (fun _ => rfl) fun _ => rfl

theorem reads_deviceCapability :
    Reads (Record.read : Reader DeviceCapability) (fun _ => True) Record.write :=
  reads_bool.of_field DeviceCapability.mk DeviceCapability.reducedFeatureSet (fun _ => rfl)
    fun _ => rfl

/-! ## The status of a slot -/

namespace CardState

theorem ofCode?_eq_some {byte : UInt8} {state : CardState} :
    ofCode? byte = some state ↔ byte = state.code := by
  constructor
  · unfold ofCode?
    split <;> rintro ⟨⟩ <;> rfl
  · rintro rfl
    exact ofCode?_code state

theorem reads : Reads CardState.read (fun _ => True) fun state => Envelope.u8 state.code := by
  intro bs v rest
  simp only [CardState.read, bind_eq_ok, reads_u8 _ _ _, true_and]
  constructor
  · rintro ⟨byte, mid, rfl, read⟩
    cases known : ofCode? byte with
    | none =>
      rw [known] at read
      exact (throw_eq_ok.1 read).elim
    | some state =>
      rw [known] at read
      obtain ⟨rfl, rfl⟩ := pure_eq_ok.1 read
      rw [ofCode?_eq_some.1 known]
  · rintro rfl
    refine ⟨v.code, rest, rfl, ?_⟩
    rw [ofCode?_code]
    exact pure_eq_ok.2 ⟨rfl, rfl⟩

end CardState

namespace SlotStatus

/-- The presence bits without an unknown one are those of a field that is absent or present. -/
theorem eidBit_cases (bits : UInt8) (known : bits &&& ~~~eidBit = 0) :
    bits = 0 ∨ bits = eidBit := by
  revert known
  obtain ⟨⟨bits⟩⟩ := bits
  revert bits
  decide +kernel

theorem reads_eid : Reads readEid (fun eid? => ∀ eid ∈ eid?, Fits (textSize eid)) writeEid := by
  intro bs v rest
  simp only [readEid, bind_eq_ok, reads_u8 _ _ _, true_and]
  constructor
  · rintro ⟨bits, mid, rfl, read⟩
    by_cases known : bits &&& ~~~eidBit = 0
    · rw [if_neg (not_not_intro known)] at read
      obtain rfl | rfl := eidBit_cases bits known
      · rw [if_neg (by decide)] at read
        obtain ⟨rfl, rfl⟩ := pure_eq_ok.1 read
        exact ⟨by simp, rfl⟩
      · rw [if_pos (by decide)] at read
        simp only [bind_eq_ok, pure_eq_ok, reads_text _ _ _] at read
        obtain ⟨eid, _, ⟨fits, rfl⟩, rfl, rfl⟩ := read
        exact ⟨by simpa using fits, by rw [writeEid, List.append_assoc]⟩
    · rw [if_pos known] at read
      obtain ⟨_, _, thrown, -⟩ := bind_eq_ok.1 read
      exact (throw_eq_ok.1 thrown).elim
  · rintro ⟨fits, rfl⟩
    cases v with
    | none =>
      refine ⟨0, rest, rfl, ?_⟩
      rw [if_neg (by decide), if_neg (by decide)]
      exact pure_eq_ok.2 ⟨rfl, rfl⟩
    | some eid =>
      refine ⟨eidBit, text eid ++ rest, by rw [writeEid, List.append_assoc], ?_⟩
      rw [if_neg (by decide), if_pos (by decide)]
      exact bind_eq_ok.2 ⟨eid, rest, (reads_text _ _ _).2 ⟨fits eid rfl, rfl⟩,
        pure_eq_ok.2 ⟨rfl, rfl⟩⟩

def TextsFit (status : SlotStatus) : Prop :=
  Fits (textSize status.atr) ∧ Fits (textSize status.iccid) ∧
    ∀ eid ∈ status.eid, Fits (textSize eid)

theorem reads : Reads (Record.read : Reader SlotStatus) TextsFit Record.write := by
  intro bs v rest
  simp only [Record.read, Record.write, bind_eq_ok, pure_eq_ok, CardState.reads _ _ _,
    reads_bool _ _ _, reads_u32 _ _ _, reads_text _ _ _, reads_eid _ _ _, true_and]
  constructor
  · rintro ⟨card, _, rfl, active, _, rfl, logicalSlot, _, rfl, atr, _, ⟨atrFits, rfl⟩, iccid, _,
      ⟨iccidFits, rfl⟩, eid, _, ⟨eidFits, rfl⟩, rfl, rfl⟩
    exact ⟨⟨atrFits, iccidFits, eidFits⟩, by simp only [List.append_assoc]⟩
  · rintro ⟨⟨atrFits, iccidFits, eidFits⟩, rfl⟩
    simp only [List.append_assoc]
    exact ⟨_, _, rfl, _, _, rfl, _, _, rfl, _, _, ⟨atrFits, rfl⟩, _, _, ⟨iccidFits, rfl⟩, _, _,
      ⟨eidFits, rfl⟩, rfl, rfl⟩

/-- The texts of a status that is written within the largest envelope have their counts. -/
theorem textsFit_of_fits {status : SlotStatus} (fits : Fits (Record.write status).length) :
    TextsFit status := by
  have atr := textSize_le status.atr
  have iccid := textSize_le status.iccid
  simp only [Record.write, List.length_append, Fits] at fits
  refine ⟨by simp only [Fits]; omega, by simp only [Fits]; omega, fun eid present => ?_⟩
  have size := textSize_le eid
  rw [Option.mem_def.1 present, writeEid, List.length_append] at fits
  simp only [Fits]
  omega

theorem write_ne_nil (status : SlotStatus) : Record.write status ≠ [] := by
  simp [Record.write, Envelope.u8]

end SlotStatus

theorem reads_slotStatusList :
    Reads (Record.read : Reader SlotStatusList)
      (fun r => Fits r.slots.length ∧ ∀ status ∈ r.slots, status.TextsFit) Record.write :=
  (reads_records SlotStatus.reads fun status _ => status.write_ne_nil).of_field SlotStatusList.mk
    SlotStatusList.slots (fun _ => rfl) fun _ => rfl

theorem fits_of_slotStatusList {list : SlotStatusList} (fits : Fits (Record.write list).length) :
    Fits list.slots.length ∧ ∀ status ∈ list.slots, status.TextsFit := by
  have inner : Fits (list.slots.flatMap Record.write).length := by
    refine fits.of_le ?_
    simp only [Record.write, Envelope.records, List.length_append]
    exact Nat.le_add_left _ _
  refine ⟨inner.of_le (length_le_flatMap fun status _ => status.write_ne_nil), ?_⟩
  intro status listed
  exact SlotStatus.textsFit_of_fits (inner.of_le (length_le_of_mem_flatMap listed))

/-! ## The capability of the phone -/

namespace NrCapability

theorem ofCode?_eq_some {code : UInt32} {capability : NrCapability} :
    ofCode? code = some capability ↔ code = capability.code := by
  constructor
  · unfold ofCode?
    split <;> rintro ⟨⟩ <;> rfl
  · rintro rfl
    exact ofCode?_code capability

theorem ofCodes_map (capabilities : List NrCapability) :
    ofCodes (capabilities.map code) = .ok capabilities := by
  induction capabilities with
  | nil => rfl
  | cons capability rest ih => rw [List.map_cons, ofCodes, ofCode?_code, ih]; rfl

/-- Codes are accepted if each is that of a capability. -/
theorem ofCodes_eq_ok {codes : List UInt32} {capabilities : List NrCapability} :
    ofCodes codes = .ok capabilities ↔ codes = capabilities.map code := by
  constructor
  · intro known
    induction codes generalizing capabilities with
    | nil =>
      obtain rfl := Except.ok.inj known
      rfl
    | cons word words ih =>
      rw [ofCodes] at known
      split at known
      · cases known
      · rename_i capability one
        cases others : ofCodes words with
        | error why =>
          rw [others] at known
          cases known
        | ok rest =>
          rw [others] at known
          obtain rfl := Except.ok.inj known
          rw [List.map_cons, ofCode?_eq_some.1 one, ih others]
  · rintro rfl
    exact ofCodes_map capabilities

end NrCapability

namespace PhoneCapability

/-- The list of capabilities is read to the end of the envelope, and is absent if nothing is left.
-/
theorem readNr_eq_ok {fields : Bytes} {nr : Option (List NrCapability)}
    (fits : Fits fields.length) :
    readNr fields = .ok (nr, []) ↔ fields = writeNr nr := by
  simp only [readNr, bind_eq_ok, hasRemaining_eq_ok]
  -- a list that is present has a count at least, so only an absent one is written as nothing
  cases fields with
  | nil =>
    cases nr with
    | none => simp [writeNr, pure_eq_ok]
    | some capabilities => simp [writeNr, pure_eq_ok, Envelope.u32s, count, Envelope.u32]
  | cons byte bytes =>
    have more : (byte :: bytes).isEmpty = false := rfl
    simp only [more, Bool.not_false]
    constructor
    · rintro ⟨_, _, ⟨rfl, rfl⟩, read⟩
      rw [if_pos rfl] at read
      simp only [bind_eq_ok, reads_u32s _ _ _, liftM_eq_ok, pure_eq_ok, NrCapability.ofCodes_eq_ok]
        at read
      obtain ⟨_, _, ⟨-, same⟩, capabilities, _, ⟨rfl, rfl⟩, rfl, rfl⟩ := read
      rw [same, writeNr, List.append_nil]
    · intro written
      refine ⟨true, _, ⟨rfl, rfl⟩, ?_⟩
      rw [if_pos rfl]
      simp only [bind_eq_ok, reads_u32s _ _ _, liftM_eq_ok, pure_eq_ok, NrCapability.ofCodes_eq_ok]
      cases nr with
      | none => cases written
      | some capabilities =>
        refine ⟨_, [], ⟨?_, ?_⟩, capabilities, [], ⟨rfl, rfl⟩, rfl, rfl⟩
        · rw [written] at fits
          exact fits_of_u32s fits
        · rw [written, writeNr, List.append_nil]

theorem exact : Record.Exact PhoneCapability := by
  intro fields v fits
  simp only [Record.read, Record.write, bind_eq_ok, pure_eq_ok, reads_u8 _ _ _, reads_bool _ _ _,
    reads_u32s _ _ _, true_and]
  constructor
  · rintro ⟨data, _, rfl, internet, _, rfl, linger, _, rfl, modems, tail, ⟨modemsFit, rfl⟩, nr, _,
      read, rfl, rfl⟩
    simp only [List.length_append, Fits] at fits
    have tailFits : Fits tail.length := by simp only [Fits]; omega
    rw [(readNr_eq_ok tailFits).1 read]
    simp only [List.append_assoc]
  · rintro rfl
    simp only [List.length_append, Fits] at fits
    have modemsFit : Fits v.logicalModems.length := fits_of_u32s (by simp only [Fits]; omega)
    have nrFits : Fits (writeNr v.nrCapabilities).length := by simp only [Fits]; omega
    simp only [List.append_assoc]
    exact ⟨_, _, rfl, _, _, rfl, _, _, rfl, _, _, ⟨modemsFit, rfl⟩, _, _,
      (readNr_eq_ok nrFits).2 rfl, rfl, rfl⟩

/-- An absent list is written otherwise than an empty one. -/
theorem encode_absent_ne_empty (r : PhoneCapability) :
    Record.encode { r with nrCapabilities := none } ≠
      Record.encode { r with nrCapabilities := some [] } := by
  intro same
  have sizes := congrArg List.length same
  simp only [Record.encode, length_wrap, Record.write, List.length_append, writeNr,
    List.length_nil] at sizes
  simp [Envelope.u32s] at sizes

end PhoneCapability

/-! ## One written form -/

namespace Record

theorem exact_noArguments : Exact NoArguments :=
  exact_of_reads reads_noArguments fun _ _ => trivial

theorem exact_slotMapping : Exact SlotMapping :=
  exact_of_reads reads_slotMapping fun _ => fits_of_u32s

theorem exact_preferredDataModem : Exact PreferredDataModem :=
  exact_of_reads reads_preferredDataModem fun _ _ => trivial

theorem exact_liveModems : Exact LiveModems :=
  exact_of_reads reads_liveModems fun _ _ => trivial

theorem exact_slotStatus : Exact SlotStatus :=
  exact_of_reads SlotStatus.reads fun _ => SlotStatus.textsFit_of_fits

theorem exact_slotStatusList : Exact SlotStatusList :=
  exact_of_reads reads_slotStatusList fun _ => fits_of_slotStatusList

theorem exact_deviceCapability : Exact DeviceCapability :=
  exact_of_reads reads_deviceCapability fun _ _ => trivial

/-- Records and the byte strings that are accepted as records correspond to each other. -/
structure Canonical (α : Type) [Record α] : Prop where
  decode_eq_ok : ∀ (bytes : Bytes) (v : α), (encode v).length ≤ maxSize →
    (decode bytes = .ok v ↔ encode v = bytes)
  unique : ∀ (first second : Bytes) (v : α), decode first = .ok v → decode second = .ok v →
    first = second
  header : ∀ (bytes : Bytes) (v : α), decode bytes = .ok v →
    littleEndian (bytes.take headerSize) = bytes.length
  refused : ∀ bytes : Bytes, (∃ why, (decode bytes : Except Malformed α) = .error why) ↔
    ∀ v : α, (encode v).length ≤ maxSize → encode v ≠ bytes

/-- Exact records have one byte string each, and every accepted byte string is one of them. -/
theorem Exact.canonical {α : Type} [Record α] (exact : Exact α) : Canonical α where
  decode_eq_ok bytes v size := by
    rw [exact.decode_eq_ok]
    constructor
    · exact And.left
    · rintro rfl
      exact ⟨rfl, size⟩
  unique first second v read again :=
    (exact.decode_eq_ok.1 read).1.symm.trans (exact.decode_eq_ok.1 again).1
  header bytes v read := by
    obtain ⟨fields, rfl, fits, -⟩ := Envelope.decode_eq_ok.1 read
    exact (unwrap_eq_ok_iff.1 (unwrap_eq_ok.2 ⟨rfl, fits⟩)).2.1
  refused bytes := by
    constructor
    · rintro ⟨why, failed⟩ v size rfl
      rw [exact.decode_eq_ok.2 ⟨rfl, size⟩] at failed
      cases failed
    · intro other
      cases read : (decode bytes : Except Malformed α) with
      | error why => exact ⟨why, rfl⟩
      | ok v =>
        obtain ⟨written, size⟩ := exact.decode_eq_ok.1 read
        exact (other v (written ▸ size) written).elim

/-- Every record has one written form, which is all that is accepted as that record. In particular
a capability list that is absent is told from one that is empty. -/
theorem written_in_one_form :
    Canonical NoArguments ∧ Canonical SlotMapping ∧ Canonical PreferredDataModem ∧
      Canonical LiveModems ∧ Canonical SlotStatus ∧ Canonical SlotStatusList ∧
      Canonical PhoneCapability ∧ Canonical DeviceCapability ∧
      ∀ r : PhoneCapability, encode { r with nrCapabilities := none } ≠
        encode { r with nrCapabilities := some [] } :=
  ⟨exact_noArguments.canonical, exact_slotMapping.canonical, exact_preferredDataModem.canonical,
    exact_liveModems.canonical, exact_slotStatus.canonical, exact_slotStatusList.canonical,
    PhoneCapability.exact.canonical, exact_deviceCapability.canonical,
    PhoneCapability.encode_absent_ne_empty⟩

end Record

end Baseband
