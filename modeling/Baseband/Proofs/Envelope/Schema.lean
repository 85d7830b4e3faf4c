import Baseband.Envelope.Schema
import Baseband.Proofs.Record

/-!
# Values are read by their schema as they are written

Values are written without their schema, and the schema alone reads them. What is read is what has
been written, however deeply lists of records are nested, as long as every field of the schema is
one that is written: neither the number of bytes left nor a part that is there only if bytes are
left, and no list of records without fields, since nothing would be written of its elements.

## Main statements

* `Field.reads`: the values of a field are read from the front, whatever follows them.
* `schema_round_trips`: an envelope is read as the values of which it is written, and as nothing
  else.
-/

namespace Baseband.Envelope

open Reader

/-! ## Schemas and their values -/

mutual

/-- Every value of the field is written with at least one byte, and so is every record in it. -/
def Field.Plain : Field → Prop
  | .u8 | .bool | .u32 | .i32 | .blob | .text | .u32s => True
  | .records fields => fields ≠ [] ∧ Field.PlainAll fields
  | .remaining | .optional _ => False

def Field.PlainAll : List Field → Prop
  | [] => True
  | field :: fields => field.Plain ∧ Field.PlainAll fields

end

mutual

def Value.Fills (admitted : Nat → Prop) : Field → Value → Prop
  | .u8, .u8 _ | .bool, .bool _ | .u32, .u32 _ | .i32, .i32 _ => True
  | .blob, .blob v => admitted v.length
  | .text, .text v => admitted (textSize v)
  | .u32s, .u32s v => admitted v.length
  | .records fields, .records rows =>
    admitted rows.length ∧ ∀ row ∈ rows, Value.FillsAll admitted fields row
  | _, _ => False

def Value.FillsAll (admitted : Nat → Prop) : List Field → List Value → Prop
  | [], [] => True
  | field :: fields, value :: values =>
    Value.Fills admitted field value ∧ Value.FillsAll admitted fields values
  | _, _ => False

end

/-- The values are those of the schema, one for each field. -/
def OfSchema (schema : List Field) (values : List Value) : Prop :=
  Value.FillsAll (fun _ => True) schema values

variable {admitted admitted' : Nat → Prop}

theorem Value.fillsAll_cons {field : Field} {fields : List Field} {values : List Value} :
    Value.FillsAll admitted (field :: fields) values ↔
      ∃ value others, values = value :: others ∧ Value.Fills admitted field value ∧
        Value.FillsAll admitted fields others := by
  cases values <;> simp [Value.FillsAll]

theorem Value.fillsAll_nil {values : List Value} :
    Value.FillsAll admitted [] values ↔ values = [] := by
  cases values <;> simp [Value.FillsAll]

theorem Value.fills_records {fields : List Field} {value : Value} :
    Value.Fills admitted (.records fields) value ↔
      ∃ rows, .records rows = value ∧ admitted rows.length ∧
        ∀ row ∈ rows, Value.FillsAll admitted fields row := by
  cases value <;> simp [Value.Fills]

mutual

/-- Where more counts are admitted, a value still fills its field, and so do the rows of a list. -/
theorem Value.Fills.imp (wider : ∀ n, admitted n → admitted' n) : (field : Field) →
    (value : Value) → Value.Fills admitted field value → Value.Fills admitted' field value
  | .records fields, value, fills => by
    obtain ⟨rows, rfl, many, all⟩ := Value.fills_records.1 fills
    exact ⟨wider _ many, fun row listed => Value.FillsAll.imp wider fields row (all row listed)⟩
  | .blob, .blob _, fills | .text, .text _, fills | .u32s, .u32s _, fills => wider _ fills
  | .u8, .u8 _, _ | .bool, .bool _, _ | .u32, .u32 _, _ | .i32, .i32 _, _ => trivial

theorem Value.FillsAll.imp (wider : ∀ n, admitted n → admitted' n) : (fields : List Field) →
    (values : List Value) → Value.FillsAll admitted fields values →
      Value.FillsAll admitted' fields values
  | [], [], _ => trivial
  | field :: fields, value :: values, ⟨one, others⟩ =>
    ⟨Value.Fills.imp wider field value one, Value.FillsAll.imp wider fields values others⟩

end

/-! ## What is written -/

theorem Value.writeRows_eq (rows : List (List Value)) :
    Value.writeRows rows = rows.flatMap Value.writeAll := by
  induction rows with
  | nil => rfl
  | cons row rows ih => rw [Value.writeRows, ih, List.flatMap_cons]

theorem Value.write_records (rows : List (List Value)) :
    (Value.records rows).write = Envelope.records Value.writeAll rows := by
  rw [Value.write, Value.writeRows_eq, Envelope.records]

/-- Every value of a plain field takes at least one byte. -/
theorem Value.write_ne_nil {field : Field} {value : Value}
    (fills : Value.Fills admitted field value) : value.write ≠ [] := by
  cases field <;> cases value <;> simp only [Value.Fills] at fills <;>
    simp [Value.write, Envelope.u8, Envelope.bool, Envelope.u32, Envelope.i32, Envelope.blob,
      Envelope.text, Envelope.u32s, count]

/-- Something is written of every record that has fields. -/
theorem Value.writeAll_ne_nil {fields : List Field} {values : List Value} (some : fields ≠ [])
    (fills : Value.FillsAll admitted fields values) : Value.writeAll values ≠ [] := by
  cases fields with
  | nil => exact absurd rfl some
  | cons field fields =>
    obtain ⟨value, others, rfl, one, -⟩ := Value.fillsAll_cons.1 fills
    rw [Value.writeAll]
    exact List.append_ne_nil_of_left_ne_nil (Value.write_ne_nil one) _

mutual

/-- No count in a value is larger than the bytes that are written of it. -/
theorem Value.fills_of_fits : (field : Field) → field.Plain → (value : Value) →
    Value.Fills (fun _ => True) field value → Fits value.write.length →
      Value.Fills Fits field value
  | .u8, _, .u8 _, _, _ | .bool, _, .bool _, _, _ | .u32, _, .u32 _, _, _
  | .i32, _, .i32 _, _, _ => trivial
  | .blob, _, .blob v, _, fits => fits.of_le (by simp [Value.write, Envelope.blob])
  | .text, _, .text v, _, fits => fits.of_le (textSize_le v)
  | .u32s, _, .u32s v, _, fits => fits_of_u32s fits
  | .records fields, plain, value, fills, fits => by
    obtain ⟨rows, rfl, -, all⟩ := Value.fills_records.1 fills
    rw [Value.write_records, Envelope.records, List.length_append] at fits
    have inner : Fits (rows.flatMap Value.writeAll).length := fits.of_le (Nat.le_add_left _ _)
    refine ⟨inner.of_le (length_le_flatMap fun row listed => ?_), fun row listed => ?_⟩
    · exact Value.writeAll_ne_nil plain.1 (all row listed)
    · exact Value.fillsAll_of_fits fields plain.2 row (all row listed)
        (inner.of_le (length_le_of_mem_flatMap listed))

/-- In what is written within the largest envelope, all counts fit. -/
theorem Value.fillsAll_of_fits : (fields : List Field) → Field.PlainAll fields →
    (values : List Value) → Value.FillsAll (fun _ => True) fields values →
      Fits (Value.writeAll values).length → Value.FillsAll Fits fields values
  | [], _, [], _, _ => trivial
  | field :: fields, plain, value :: values, fills, fits => by
    rw [Value.writeAll, List.length_append] at fits
    exact ⟨Value.fills_of_fits field plain.1 value fills.1 (fits.of_le (Nat.le_add_right _ _)),
      Value.fillsAll_of_fits fields plain.2 values fills.2 (fits.of_le (Nat.le_add_left _ _))⟩

end

/-! ## What is read -/

/-- The values of a field are made of what its reader takes. -/
theorem Reads.filling {α : Type} {r : Reader α} {known : α → Prop} {write : α → Bytes}
    {field : Field} (reads : Reads r known write) (make : α → Value)
    (fills : ∀ value, Value.Fills Fits field value ↔ ∃ a, make a = value ∧ known a)
    (written : ∀ a, (make a).write = write a) :
    Reads (make <$> r) (Value.Fills Fits field) Value.write := by
  intro bs value rest
  simp only [map_eq_ok, reads _ _ _, fills]
  constructor
  · rintro ⟨a, ⟨ok, rfl⟩, rfl⟩
    exact ⟨⟨a, rfl, ok⟩, by rw [written]⟩
  · rintro ⟨⟨a, rfl, ok⟩, rfl⟩
    exact ⟨a, ⟨ok, by rw [written]⟩, rfl⟩

mutual

/-- The values of a field are read from the front exactly as they are written. -/
theorem Field.reads : (field : Field) → field.Plain →
    Reads field.read (Value.Fills Fits field) Value.write
  | .u8, _ => reads_u8.filling .u8 (by intro v; cases v <;> simp [Value.Fills]) fun _ => rfl
  | .bool, _ => reads_bool.filling .bool (by intro v; cases v <;> simp [Value.Fills]) fun _ => rfl
  | .u32, _ => reads_u32.filling .u32 (by intro v; cases v <;> simp [Value.Fills]) fun _ => rfl
  | .i32, _ => reads_i32.filling .i32 (by intro v; cases v <;> simp [Value.Fills]) fun _ => rfl
  | .blob, _ => reads_blob.filling .blob (by intro v; cases v <;> simp [Value.Fills]) fun _ => rfl
  | .text, _ => reads_text.filling .text (by intro v; cases v <;> simp [Value.Fills]) fun _ => rfl
  | .u32s, _ => reads_u32s.filling .u32s (by intro v; cases v <;> simp [Value.Fills]) fun _ => rfl
  | .records fields, plain =>
    (reads_records (Field.readsAll fields plain.2) fun _ => Value.writeAll_ne_nil plain.1).filling
      .records (fun _ => Value.fills_records) Value.write_records

/-- The values of a plain schema are read back exactly. -/
theorem Field.readsAll : (fields : List Field) → Field.PlainAll fields →
    Reads (Field.readAll fields) (Value.FillsAll Fits fields) Value.writeAll
  | [], _ => by
    intro bs values rest
    rw [Field.readAll, pure_eq_ok, Value.fillsAll_nil]
    constructor
    · rintro ⟨rfl, rfl⟩
      exact ⟨rfl, rfl⟩
    · rintro ⟨rfl, rfl⟩
      exact ⟨rfl, rfl⟩
  | field :: fields, plain => by
    intro bs values rest
    simp only [Field.readAll, bind_eq_ok, pure_eq_ok, Field.reads field plain.1 _ _ _,
      Field.readsAll fields plain.2 _ _ _, Value.fillsAll_cons]
    constructor
    · rintro ⟨value, _, ⟨one, rfl⟩, others, _, ⟨all, rfl⟩, rfl, rfl⟩
      exact ⟨⟨value, others, rfl, one, all⟩, by rw [Value.writeAll, List.append_assoc]⟩
    · rintro ⟨⟨value, others, rfl, one, all⟩, rfl⟩
      exact ⟨value, _, ⟨one, by rw [Value.writeAll, List.append_assoc]⟩, others, rest, ⟨all, rfl⟩,
        rfl, rfl⟩

end

/-! ## Envelopes -/

/-- An envelope is read as values exactly if these are of the schema and it is written of them. -/
theorem decodeValues_eq_ok {schema : List Field} (plain : Field.PlainAll schema)
    {values : List Value} {bytes : Bytes} :
    decodeValues schema bytes = .ok values ↔
      OfSchema schema values ∧ encodeValues values = bytes ∧ Fits bytes.length := by
  rw [decodeValues, decode_eq_ok]
  simp only [Field.readsAll schema plain _ _ _, List.append_nil]
  constructor
  · rintro ⟨_, rfl, fits, fills, rfl⟩
    exact ⟨Value.FillsAll.imp (fun _ _ => trivial) schema values fills, rfl, fits⟩
  · rintro ⟨ofSchema, rfl, fits⟩
    refine ⟨_, rfl, fits, Value.fillsAll_of_fits schema plain values ofSchema ?_, rfl⟩
    rw [encodeValues, length_wrap] at fits
    exact fits.of_le (Nat.le_add_left _ _)

/-- The values of a schema and the byte strings that are read by it correspond to each other. -/
structure RoundTrips (schema : List Field) : Prop where
  decode_eq_ok : ∀ (values : List Value) (bytes : Bytes), OfSchema schema values →
    (encodeValues values).length ≤ Record.maxSize →
      (decodeValues schema bytes = .ok values ↔ encodeValues values = bytes)
  ofSchema : ∀ (values : List Value) (bytes : Bytes), decodeValues schema bytes = .ok values →
    OfSchema schema values
  header : ∀ (values : List Value) (bytes : Bytes), decodeValues schema bytes = .ok values →
    (bytes.take headerSize).length = headerSize ∧
      littleEndian (bytes.take headerSize) = bytes.length

/-- By every schema of plain fields exactly those bytes are read as values that are written of
them, and their header is their number. -/
theorem schema_round_trips (schema : List Field) (plain : Field.PlainAll schema) :
    RoundTrips schema where
  decode_eq_ok values bytes ofSchema size := by
    rw [decodeValues_eq_ok plain]
    constructor
    · exact fun read => read.2.1
    · rintro rfl
      exact ⟨ofSchema, rfl, Nat.lt_succ_of_le size⟩
  ofSchema values bytes read := ((decodeValues_eq_ok plain).1 read).1
  header values bytes read := by
    obtain ⟨-, rfl, fits⟩ := (decodeValues_eq_ok plain).1 read
    obtain ⟨long, declared, -⟩ := unwrap_eq_ok_iff.1 (unwrap_eq_ok.2 ⟨rfl, fits⟩)
    exact ⟨List.length_take_of_le long, declared⟩

/-- One record with a text and a list of one flag. -/
theorem schema_round_trips_of_nested :
    ∃ (schema : List Field) (values : List Value),
      schema = [.records [.text, .records [.bool]]] ∧
        values = [.records [[.text "é", .records [[.bool true]]]]] ∧
        Field.PlainAll schema ∧ OfSchema schema values ∧
        decodeValues schema [19, 0, 0, 0, 1, 0, 0, 0, 2, 0, 0, 0, 0xc3, 0xa9, 1, 0, 0, 0, 1] =
          .ok values := by
  refine ⟨_, _, rfl, rfl, ?_⟩
  have plain : Field.PlainAll [.records [.text, .records [.bool]]] := by
    simp [Field.PlainAll, Field.Plain]
  have ofSchema : OfSchema [.records [.text, .records [.bool]]]
      [.records [[.text "é", .records [[.bool true]]]]] := by
    simp [OfSchema, Value.FillsAll, Value.Fills]
  exact ⟨plain, ofSchema, ((schema_round_trips _ plain).decode_eq_ok _ _ ofSchema
    (by decide)).2 (by decide)⟩

end Baseband.Envelope
