import Mathlib.Data.List.Basic
import Baseband.Envelope.Basic
import Baseband.Proofs.Text.Utf8

/-!
# Fields are read as they are written

A reader accepts exactly the bytes that are written of a value, whatever follows them, if the counts
in them fit into four bytes. An equation of this kind is stated for each field; the reader of a
record, which asks for one field after another, is then opened field by field.
-/

namespace Baseband.Envelope

variable {α β : Type}

def Fits (n : Nat) : Prop :=
  n < 4294967296

theorem Fits.of_le {m n : Nat} (fits : Fits n) (le : m ≤ n) : Fits m :=
  Nat.lt_of_le_of_lt le fits

/-- The reader takes from the front exactly what is written of the values that it knows. -/
def Reads (r : Reader α) (known : α → Prop) (write : α → Bytes) : Prop :=
  ∀ bs v rest, r bs = .ok (v, rest) ↔ known v ∧ bs = write v ++ rest

/-- What is written of a value ends where the value ends, whatever follows. -/
theorem Reads.append_inj {r : Reader α} {known : α → Prop} {write : α → Bytes}
    (reads : Reads r known write) {v v' : α} (ok : known v) (ok' : known v') {rest rest' : Bytes}
    (same : write v ++ rest = write v' ++ rest') : v = v' ∧ rest = rest' := by
  have read := (reads _ v rest).2 ⟨ok, rfl⟩
  rw [same, (reads _ v' rest').2 ⟨ok', rfl⟩] at read
  obtain ⟨rfl, rfl⟩ := Prod.mk.inj (Except.ok.inj read)
  exact ⟨rfl, rfl⟩

namespace Reader

/-! ## Steps of a reader -/

/-- A reading in two parts succeeds where both do, the second from where the first has stopped. -/
theorem bind_eq_ok {r : Reader α} {next : α → Reader β} {bs : Bytes} {v : β} {rest : Bytes} :
    (r >>= next) bs = .ok (v, rest) ↔
      ∃ a mid, r bs = .ok (a, mid) ∧ next a mid = .ok (v, rest) := by
  change (r bs >>= fun p => next p.1 p.2) = _ ↔ _
  cases read : r bs with
  | error why => simp [bind, Except.bind]
  | ok p =>
    obtain ⟨a, mid⟩ := p
    simp [bind, Except.bind]

theorem pure_eq_ok {a v : α} {bs rest : Bytes} :
    (pure a : Reader α) bs = .ok (v, rest) ↔ a = v ∧ bs = rest := by
  change Except.ok (a, bs) = _ ↔ _
  simp

theorem throw_eq_ok {why : Malformed} {v : α} {bs rest : Bytes} :
    (throw why : Reader α) bs = .ok (v, rest) ↔ False := by
  change Except.error why = _ ↔ _
  simp

theorem liftM_eq_ok {e : Except Malformed α} {v : α} {bs rest : Bytes} :
    (liftM e : Reader α) bs = .ok (v, rest) ↔ e = .ok v ∧ bs = rest := by
  cases e with
  | error why => exact ⟨nofun, nofun⟩
  | ok a =>
    refine pure_eq_ok.trans ?_
    rw [Except.ok.injEq]

theorem map_eq_ok {make : α → β} {r : Reader α} {v : β} {bs rest : Bytes} :
    (make <$> r) bs = .ok (v, rest) ↔ ∃ a, r bs = .ok (a, rest) ∧ make a = v := by
  change (pure ∘ make =<< r) bs = _ ↔ _
  refine bind_eq_ok.trans ?_
  simp only [Function.comp_apply, pure_eq_ok]
  constructor
  · rintro ⟨a, _, read, rfl, rfl⟩
    exact ⟨a, read, rfl⟩
  · rintro ⟨a, read, rfl⟩
    exact ⟨a, rest, read, rfl, rfl⟩

theorem demand_eq_ok {n : Nat} {field : String} {u : Unit} {bs rest : Bytes} :
    demand n field bs = .ok (u, rest) ↔ n ≤ bs.length ∧ bs = rest := by
  unfold demand
  split
  · rename_i enough
    simp [atLeast_iff.1 enough]
  · rename_i few
    simp [mt atLeast_iff.2 few]

/-- Bytes are taken from the front. -/
theorem take_eq_ok {n : Nat} {v bs rest : Bytes} :
    take n bs = .ok (v, rest) ↔ v.length = n ∧ bs = v ++ rest := by
  unfold take
  split
  · rename_i enough
    rw [atLeast_iff] at enough
    simp only [Except.ok.injEq, Prod.mk.injEq]
    constructor
    · rintro ⟨rfl, rfl⟩
      exact ⟨List.length_take_of_le enough, (List.take_append_drop n bs).symm⟩
    · rintro ⟨rfl, rfl⟩
      exact ⟨List.take_left, List.drop_left⟩
  · rename_i few
    rw [atLeast_iff] at few
    simp only [reduceCtorEq, false_iff, not_and]
    rintro rfl rfl
    exact few (by simp)

theorem reserve_eq_ok {n width : Nat} {u : Unit} {bs rest : Bytes} :
    reserve n width bs = .ok (u, rest) ↔ n * width ≤ bs.length ∧ bs = rest := by
  unfold reserve
  split
  · rename_i enough
    simp [atLeast_iff.1 enough]
  · rename_i few
    simp [mt atLeast_iff.2 few]

theorem hasRemaining_eq_ok {b : Bool} {bs rest : Bytes} :
    hasRemaining bs = .ok (b, rest) ↔ b = !bs.isEmpty ∧ bs = rest := by
  simp [hasRemaining, eq_comm]

end Reader

open Reader

/-! ## Plain fields -/

theorem reads_u8 : Reads Reader.u8 (fun _ => True) Envelope.u8 := by
  intro bs v rest
  simp only [Reader.u8, bind_eq_ok, pure_eq_ok, demand_eq_ok, take_eq_ok, Envelope.u8, true_and,
    List.singleton_append]
  constructor
  · rintro ⟨-, _, ⟨-, rfl⟩, byte, _, ⟨one, rfl⟩, rfl, rfl⟩
    obtain ⟨b, rfl⟩ := List.length_eq_one_iff.1 one
    simp [littleEndian]
  · rintro rfl
    exact ⟨(), _, ⟨by simp, rfl⟩, [v], rest, ⟨rfl, rfl⟩, by simp [littleEndian], rfl⟩

theorem reads_bool : Reads Reader.bool (fun _ => True) Envelope.bool := by
  intro bs v rest
  simp only [Reader.bool, bind_eq_ok, reads_u8 _ _ _, true_and]
  constructor
  · rintro ⟨byte, mid, rfl, read⟩
    split at read
    · obtain ⟨rfl, rfl⟩ := pure_eq_ok.1 read
      rfl
    · obtain ⟨rfl, rfl⟩ := pure_eq_ok.1 read
      rfl
    · exact (throw_eq_ok.1 read).elim
  · rintro rfl
    cases v with
    | false => exact ⟨0, rest, rfl, rfl⟩
    | true => exact ⟨1, rest, rfl, rfl⟩

theorem littleEndian_lt {bytes : Bytes} (four : bytes.length = 4) :
    littleEndian bytes < 4294967296 := by
  obtain ⟨a, b, c, d, rfl⟩ := List.length_eq_four.1 four
  have := a.toNat_lt
  have := b.toNat_lt
  have := c.toNat_lt
  have := d.toNat_lt
  simp only [littleEndian]
  omega

/-- Four bytes are those of the word that they make up. -/
theorem u32_littleEndian {bytes : Bytes} (four : bytes.length = 4) :
    Envelope.u32 (.ofNat (littleEndian bytes)) = bytes := by
  have value := UInt32.toNat_ofNat_of_lt' (littleEndian_lt four)
  obtain ⟨a, b, c, d, rfl⟩ := List.length_eq_four.1 four
  have := a.toNat_lt
  have := b.toNat_lt
  have := c.toNat_lt
  have := d.toNat_lt
  simp only [littleEndian] at value ⊢
  simp only [Envelope.u32, List.cons.injEq, ← UInt8.toNat_inj, UInt32.toNat_toUInt8,
    UInt32.toNat_shiftRight, Nat.shiftRight_eq_div_pow, UInt32.reduceToNat, Nat.reduceMod,
    Nat.reducePow, and_true]
  refine ⟨?_, ?_, ?_, ?_⟩ <;> omega

theorem reads_takeU32 : Reads takeU32 (fun _ => True) Envelope.u32 := by
  intro bs v rest
  simp only [takeU32, bind_eq_ok, pure_eq_ok, take_eq_ok, true_and]
  constructor
  · rintro ⟨bytes, _, ⟨four, rfl⟩, rfl, rfl⟩
    rw [u32_littleEndian four]
  · rintro rfl
    exact ⟨Envelope.u32 v, rest, ⟨rfl, rfl⟩, by rw [littleEndian_u32, UInt32.ofNat_toNat], rfl⟩

theorem reads_u32 : Reads Reader.u32 (fun _ => True) Envelope.u32 := by
  intro bs v rest
  simp only [Reader.u32, bind_eq_ok, demand_eq_ok, reads_takeU32 _ _ _, true_and]
  constructor
  · rintro ⟨-, _, ⟨-, rfl⟩, same⟩
    exact same
  · rintro rfl
    exact ⟨(), _, ⟨by simp [Envelope.u32], rfl⟩, rfl⟩

theorem reads_i32 : Reads Reader.i32 (fun _ => True) Envelope.i32 := by
  intro bs v rest
  simp only [Reader.i32, bind_eq_ok, pure_eq_ok, demand_eq_ok, reads_takeU32 _ _ _, true_and]
  constructor
  · rintro ⟨-, _, ⟨-, rfl⟩, word, _, rfl, rfl, rfl⟩
    rw [Envelope.i32, UInt32.toUInt32_toInt32]
  · rintro rfl
    exact ⟨(), _, ⟨by simp [Envelope.i32, Envelope.u32], rfl⟩, v.toUInt32, rest, rfl,
      Int32.toInt32_toUInt32 v, rfl⟩

/-! ## Fields with a count -/

@[simp] theorem length_u32 (v : UInt32) : (Envelope.u32 v).length = 4 :=
  rfl

@[simp] theorem length_count (n : Nat) : (count n).length = 4 :=
  rfl

/-- A word is the count of as many as it says. -/
theorem count_toNat (v : UInt32) : count v.toNat = Envelope.u32 v := by
  rw [count, UInt32.ofNat_toNat]

theorem toNat_of_fits {n : Nat} (fits : Fits n) : (UInt32.ofNat n).toNat = n :=
  UInt32.toNat_ofNat_of_lt' fits

/-- A count is read, and what is read after it may depend on it. -/
theorem counted_eq_ok (next : Nat → Reader α) {bs : Bytes} {v : α} {rest : Bytes} :
    (do next (← Reader.u32).toNat) bs = .ok (v, rest) ↔
      ∃ n mid, Fits n ∧ bs = count n ++ mid ∧ next n mid = .ok (v, rest) := by
  simp only [bind_eq_ok, reads_u32 _ _ _, true_and]
  constructor
  · rintro ⟨n, mid, rfl, read⟩
    exact ⟨n.toNat, mid, n.toNat_lt, by rw [count_toNat], read⟩
  · rintro ⟨n, mid, fits, rfl, read⟩
    exact ⟨.ofNat n, mid, rfl, by rwa [toNat_of_fits fits]⟩

theorem reads_blob : Reads Reader.blob (fun v => Fits v.length) Envelope.blob := by
  intro bs v rest
  refine (counted_eq_ok fun n => do demand n "byte blob"; take n).trans ?_
  simp only [bind_eq_ok, demand_eq_ok, take_eq_ok]
  constructor
  · rintro ⟨n, _, fits, rfl, -, _, ⟨-, rfl⟩, rfl, rfl⟩
    exact ⟨fits, by rw [Envelope.blob, List.append_assoc]⟩
  · rintro ⟨fits, rfl⟩
    exact ⟨v.length, v ++ rest, fits, by rw [Envelope.blob, List.append_assoc], (), _,
      ⟨by simp, rfl⟩, rfl, rfl⟩

def textSize (v : String) : Nat :=
  (Text.Utf8.encode v.toList).length

theorem textSize_le (v : String) : textSize v ≤ (Envelope.text v).length := by
  rw [Envelope.text, Envelope.blob, List.length_append]
  exact Nat.le_add_left _ _

theorem reads_text : Reads Reader.text (fun v => Fits (textSize v)) Envelope.text := by
  intro bs v rest
  simp only [Reader.text, bind_eq_ok, reads_blob _ _ _]
  constructor
  · rintro ⟨bytes, mid, ⟨fits, rfl⟩, read⟩
    cases decoded : Text.Utf8.decode bytes with
    | error flaw =>
      rw [decoded] at read
      exact (throw_eq_ok.1 read).elim
    | ok cs =>
      rw [decoded] at read
      obtain ⟨rfl, rfl⟩ := pure_eq_ok.1 read
      rw [Text.Utf8.decode_eq_ok.1 decoded] at fits ⊢
      rw [textSize, Envelope.text, String.toList_ofList]
      exact ⟨fits, rfl⟩
  · rintro ⟨fits, rfl⟩
    refine ⟨Text.Utf8.encode v.toList, rest, ⟨fits, rfl⟩, ?_⟩
    rw [Text.Utf8.decode_eq_ok.2 rfl]
    exact pure_eq_ok.2 ⟨String.ofList_toList, rfl⟩

/-- Elements one after another are read as they are written. -/
theorem times_eq_ok {element : Reader α} {known : α → Prop} {write : α → Bytes}
    (reads : Reads element known write) {n : Nat} {bs : Bytes} {vs : List α} {rest : Bytes} :
    times n element bs = .ok (vs, rest) ↔
      vs.length = n ∧ (∀ v ∈ vs, known v) ∧ bs = vs.flatMap write ++ rest := by
  induction n generalizing bs vs rest with
  | zero =>
    simp only [times, pure_eq_ok, List.length_eq_zero_iff]
    constructor
    · rintro ⟨rfl, rfl⟩
      exact ⟨rfl, by simp, rfl⟩
    · rintro ⟨rfl, -, rfl⟩
      exact ⟨rfl, rfl⟩
  | succ n ih =>
    simp only [times, bind_eq_ok, pure_eq_ok, reads _ _ _, ih]
    constructor
    · rintro ⟨v, _, ⟨ok, rfl⟩, vs, _, ⟨rfl, all, rfl⟩, rfl, rfl⟩
      exact ⟨rfl, List.forall_mem_cons.2 ⟨ok, all⟩, by simp⟩
    · rintro ⟨many, all, rfl⟩
      obtain ⟨v, vs, rfl⟩ := List.exists_cons_of_length_eq_add_one many
      obtain ⟨ok, all⟩ := List.forall_mem_cons.1 all
      exact ⟨v, vs.flatMap write ++ rest, ⟨ok, by simp⟩, vs, rest,
        ⟨Nat.succ.inj many, all, rfl⟩, rfl, rfl⟩

theorem length_flatMap_u32 (vs : List UInt32) :
    (vs.flatMap Envelope.u32).length = vs.length * 4 := by
  simp [List.length_flatMap]

/-- Words are read back exactly if their count fits. -/
theorem reads_u32s : Reads Reader.u32s (fun v => Fits v.length) Envelope.u32s := by
  intro bs vs rest
  refine (counted_eq_ok fun n => do
    demand (n * 4) "u32 list"; reserve n 4; times n takeU32).trans ?_
  simp only [bind_eq_ok, demand_eq_ok, reserve_eq_ok, times_eq_ok reads_takeU32]
  constructor
  · rintro ⟨_, _, fits, rfl, -, _, ⟨-, rfl⟩, -, _, ⟨-, rfl⟩, rfl, -, rfl⟩
    exact ⟨fits, by rw [Envelope.u32s, List.append_assoc]⟩
  · rintro ⟨fits, rfl⟩
    have enough : vs.length * 4 ≤ (vs.flatMap Envelope.u32 ++ rest).length := by
      rw [List.length_append, length_flatMap_u32]
      exact Nat.le_add_right _ _
    exact ⟨vs.length, vs.flatMap Envelope.u32 ++ rest, fits,
      by rw [Envelope.u32s, List.append_assoc], (), _, ⟨enough, rfl⟩, (), _, ⟨enough, rfl⟩, rfl,
      by simp, rfl⟩

/-- A list of words that is written within the largest envelope has a count that fits. -/
theorem fits_of_u32s {vs : List UInt32} (fits : Fits (Envelope.u32s vs).length) :
    Fits vs.length := by
  simp only [Envelope.u32s, List.length_append, length_flatMap_u32, Fits] at fits ⊢
  omega

/-- As many bytes are written of elements as there are elements, if something is written of each. -/
theorem length_le_flatMap {write : α → Bytes} {vs : List α} (some : ∀ v ∈ vs, write v ≠ []) :
    vs.length ≤ (vs.flatMap write).length := by
  induction vs with
  | nil => exact Nat.le_refl 0
  | cons v vs ih =>
    obtain ⟨first, others⟩ := List.forall_mem_cons.1 some
    have := List.length_pos_iff.2 first
    have := ih others
    rw [List.flatMap_cons, List.length_append, List.length_cons]
    omega

theorem length_le_of_mem_flatMap {write : α → Bytes} {v : α} {vs : List α} (listed : v ∈ vs) :
    (write v).length ≤ (vs.flatMap write).length := by
  rw [List.flatMap_def]
  exact (List.sublist_flatten_of_mem (List.mem_map_of_mem listed)).length_le

/-- Records are read back exactly if each takes at least one byte, and their count fits. -/
theorem reads_records {element : Reader α} {known : α → Prop} {write : α → Bytes}
    (reads : Reads element known write) (some : ∀ v, known v → write v ≠ []) :
    Reads (Reader.records element) (fun vs => Fits vs.length ∧ ∀ v ∈ vs, known v)
      (Envelope.records write) := by
  intro bs vs rest
  refine (counted_eq_ok fun n => do
    demand n "record list"; reserve n 1; times n element).trans ?_
  simp only [bind_eq_ok, demand_eq_ok, reserve_eq_ok, times_eq_ok reads, Nat.mul_one]
  constructor
  · rintro ⟨_, _, fits, rfl, -, _, ⟨-, rfl⟩, -, _, ⟨-, rfl⟩, rfl, all, rfl⟩
    exact ⟨⟨fits, all⟩, by rw [Envelope.records, List.append_assoc]⟩
  · rintro ⟨⟨fits, all⟩, rfl⟩
    have enough : vs.length ≤ (vs.flatMap write ++ rest).length := by
      rw [List.length_append]
      exact Nat.le_add_right_of_le (length_le_flatMap fun v listed => some v (all v listed))
    exact ⟨vs.length, vs.flatMap write ++ rest, fits,
      by rw [Envelope.records, List.append_assoc], (), _, ⟨enough, rfl⟩, (), _, ⟨enough, rfl⟩, rfl,
      all, rfl⟩

/-- What consists of one field is read as the field is. -/
theorem Reads.of_field {r : Reader α} {known : α → Prop} {write : α → Bytes}
    (reads : Reads r known write) (make : α → β) (field : β → α)
    (field_make : ∀ a, field (make a) = a) (make_field : ∀ b, make (field b) = b) :
    Reads (do return make (← r)) (fun b => known (field b)) (fun b => write (field b)) := by
  intro bs b rest
  simp only [bind_eq_ok, pure_eq_ok, reads _ _ _]
  constructor
  · rintro ⟨a, _, ⟨ok, rfl⟩, rfl, rfl⟩
    rw [field_make]
    exact ⟨ok, rfl⟩
  · rintro ⟨ok, rfl⟩
    exact ⟨field b, rest, ⟨ok, rfl⟩, make_field b, rfl⟩

/-! ## Envelopes -/

/-- An envelope is accepted if it has its header, and the header tells its length. -/
theorem unwrap_eq_ok_iff {bytes fields : Bytes} :
    unwrap bytes = .ok fields ↔
      headerSize ≤ bytes.length ∧ littleEndian (bytes.take headerSize) = bytes.length ∧
        bytes.drop headerSize = fields := by
  unfold unwrap
  dsimp only
  constructor
  · intro opened
    split at opened
    · cases opened
    · split at opened
      · cases opened
      · split at opened
        · cases opened
        · split at opened
          · cases opened
          · exact ⟨by omega, by omega, Except.ok.inj opened⟩
  · rintro ⟨long, declared, rfl⟩
    rw [if_neg (by omega), if_neg (by omega), if_neg (by omega), if_neg (by omega)]

@[simp] theorem length_wrap (fields : Bytes) :
    (wrap fields).length = headerSize + fields.length := by
  rw [wrap, List.length_append, length_count, headerSize]

/-- An envelope is opened exactly if it is wrapped around the fields. -/
theorem unwrap_eq_ok {bytes fields : Bytes} :
    unwrap bytes = .ok fields ↔ bytes = wrap fields ∧ Fits bytes.length := by
  rw [unwrap_eq_ok_iff]
  constructor
  · rintro ⟨long, declared, rfl⟩
    have four : (bytes.take headerSize).length = 4 := List.length_take_of_le long
    have size : headerSize + (bytes.drop headerSize).length = bytes.length := by
      rw [List.length_drop]
      omega
    refine ⟨?_, declared ▸ littleEndian_lt four⟩
    rw [wrap, size, count, ← declared, u32_littleEndian four, List.take_append_drop]
  · rintro ⟨rfl, fits⟩
    rw [length_wrap] at fits ⊢
    have header : (count (headerSize + fields.length)).length = headerSize := rfl
    refine ⟨Nat.le_add_right _ _, ?_, List.drop_left' header⟩
    rw [wrap, List.take_left' header, count, littleEndian_u32, toNat_of_fits fits]

/-- Bytes are read as a record exactly if they are wrapped around fields that the reader takes to
their end. -/
theorem decode_eq_ok {fields : Reader α} {bytes : Bytes} {v : α} :
    decode fields bytes = .ok v ↔
      ∃ fs, bytes = wrap fs ∧ Fits bytes.length ∧ fields fs = .ok (v, []) := by
  have opened : decode fields bytes = .ok v ↔
      ∃ fs, unwrap bytes = .ok fs ∧ fields fs = .ok (v, []) := by
    unfold decode
    cases unwrap bytes with
    | error why => simp [bind, Except.bind]
    | ok fs =>
      cases read : fields fs with
      | error why => simp [bind, Except.bind, StateT.run, read]
      | ok p =>
        obtain ⟨w, rest⟩ := p
        cases rest with
        | nil => simp [bind, Except.bind, StateT.run, read, pure, Except.pure]
        | cons b bs => simp [bind, Except.bind, StateT.run, read, throw, throwThe,
            MonadExceptOf.throw]
  simp only [opened, unwrap_eq_ok, and_assoc]

end Baseband.Envelope
