import Baseband.Envelope.Schema
import Baseband.Proofs.Record

/-!
# Accesses to the bytes of an envelope

Bytes are taken, and room is made for a list, without another look at how many there are: such an
access relies on the demand that was made before it. An access beyond the end would end the whole
reading as an overrun. No reader of a record ends so, and no reader made of a schema, whatever the
bytes are; so every access that they come to finds the bytes that it needs.

## Main statements

* `Comes.overrun`: an access without its bytes ends a reading as an overrun.
* `Field.safe`: the readers of fields demand what they take.
* `hostile_bytes_contained`: every record and every schema is read within the bytes.
-/

namespace Baseband.Envelope

open Reader

variable {α β : Type}

/-! ## Accesses -/

def Reader.Front (r : Reader α) : Prop :=
  ∀ bs v rest, r bs = .ok (v, rest) → rest <:+ bs

/-- A use of bytes that were demanded before. -/
inductive Access
  | take (n : Nat)
  /-- Room for a list, and as many rounds of the loop that fills it. -/
  | reserve (n width : Nat)

def Access.size : Access → Nat
  | .take n => n
  | .reserve n width => n * width

/-- In the course of a reading the reader comes to an access, with these bytes left. -/
inductive Comes : {α : Type} → Reader α → Bytes → Access → Bytes → Prop
  | take (n : Nat) (bs : Bytes) : Comes (Reader.take n) bs (.take n) bs
  | reserve (n width : Nat) (bs : Bytes) :
    Comes (Reader.reserve n width) bs (.reserve n width) bs
  | first {α β : Type} {r : Reader α} {next : α → Reader β} {bs left : Bytes} {a : Access} :
    Comes r bs a left → Comes (r >>= next) bs a left
  | later {α β : Type} {r : Reader α} {next : α → Reader β} {bs rest left : Bytes} {v : α}
    {a : Access} : r.Front → r bs = .ok (v, rest) → Comes (next v) rest a left →
      Comes (r >>= next) bs a left

theorem bind_of_ok {r : Reader α} {next : α → Reader β} {bs rest : Bytes} {v : α}
    (read : r bs = .ok (v, rest)) : (r >>= next) bs = next v rest := by
  change (r bs >>= fun p => next p.1 p.2) = _
  rw [read]
  rfl

/-- A reading in two parts fails where one of them does. -/
theorem bind_eq_error {r : Reader α} {next : α → Reader β} {bs : Bytes} {why : Malformed} :
    (r >>= next) bs = .error why ↔
      r bs = .error why ∨ ∃ v rest, r bs = .ok (v, rest) ∧ next v rest = .error why := by
  change (r bs >>= fun p => next p.1 p.2) = _ ↔ _
  cases read : r bs with
  | error why => simp [bind, Except.bind]
  | ok p =>
    obtain ⟨v, rest⟩ := p
    simp [bind, Except.bind]

/-- What is left at an access is the end of what there was. -/
theorem Comes.suffix {r : Reader α} {bs left : Bytes} {a : Access} (comes : Comes r bs a left) :
    left <:+ bs := by
  induction comes with
  | take | reserve => exact List.suffix_rfl
  | first _ ih => exact ih
  | later front read _ ih => exact ih.trans (front _ _ _ read)

/-- An access without the bytes that it needs ends the reading as an overrun. -/
theorem Comes.overrun {r : Reader α} {bs left : Bytes} {a : Access} (comes : Comes r bs a left)
    (short : left.length < a.size) : r bs = .error .overrun := by
  induction comes with
  | take n bs => exact if_neg fun enough => Nat.not_le_of_lt short (atLeast_iff.1 enough)
  | reserve n width bs => exact if_neg fun enough => Nat.not_le_of_lt short (atLeast_iff.1 enough)
  | first _ ih => exact bind_eq_error.2 (.inl (ih short))
  | later _ read _ ih => exact (bind_of_ok read).trans (ih short)

/-! ## Safe readers -/

structure Safe (need : Nat) (r : Reader α) : Prop where
  no_overrun : ∀ bs : Bytes, need ≤ bs.length → r bs ≠ .error .overrun
  front : r.Front

variable {need n width : Nat}

theorem safe_pure (a : α) : Safe 0 (pure a) where
  no_overrun _ _ := nofun
  front _ _ _ read := by
    obtain ⟨-, rfl⟩ := pure_eq_ok.1 read
    exact List.suffix_rfl

theorem safe_throw (why : Malformed) (other : why ≠ .overrun) : Safe 0 (throw why : Reader α) where
  no_overrun _ _ failed := other (Except.error.inj failed)
  front _ _ _ read := (throw_eq_ok.1 read).elim

theorem safe_liftM {e : Except Malformed α} (other : e ≠ .error .overrun) :
    Safe 0 (liftM e : Reader α) := by
  cases e with
  | ok a => exact safe_pure a
  | error why => exact safe_throw why fun same => other (same ▸ rfl)

theorem Safe.of_le {need' : Nat} {r : Reader α} (safe : Safe need r) (le : need ≤ need') :
    Safe need' r where
  no_overrun bs enough := safe.no_overrun bs (Nat.le_trans le enough)
  front := safe.front

/-- After a reader that leaves as many bytes as the next one needs, the next one is safe. -/
theorem Safe.bind_of_left {need' : Nat} {r : Reader α} {next : α → Reader β} (safe : Safe need r)
    (left : ∀ bs a rest, need ≤ bs.length → r bs = .ok (a, rest) → need' ≤ rest.length)
    (later : ∀ a, Safe need' (next a)) : Safe need (r >>= next) where
  no_overrun bs enough failed := by
    obtain first | ⟨a, rest, read, second⟩ := bind_eq_error.1 failed
    · exact safe.no_overrun bs enough first
    · exact (later a).no_overrun rest (left bs a rest enough read) second
  front bs v rest read := by
    obtain ⟨a, mid, first, second⟩ := bind_eq_ok.1 read
    exact ((later a).front _ _ _ second).trans (safe.front _ _ _ first)

/-- Only the first part of a reading may rely on bytes that were demanded before. -/
theorem Safe.bind {r : Reader α} {next : α → Reader β} (safe : Safe need r)
    (later : ∀ a, Safe 0 (next a)) : Safe need (r >>= next) :=
  safe.bind_of_left (fun _ _ _ _ _ => Nat.zero_le _) later

theorem Safe.ite {c : Prop} [Decidable c] {r r' : Reader α} (yes : Safe need r)
    (no : Safe need r') : Safe need (if c then r else r') := by
  split
  · exact yes
  · exact no

theorem Safe.map {r : Reader α} (safe : Safe need r) (make : α → β) : Safe need (make <$> r) :=
  safe.bind fun a => safe_pure (make a)

theorem safe_demand {field : String} : Safe 0 (Reader.demand n field) where
  no_overrun bs _ := by
    unfold Reader.demand
    split <;> nofun
  front bs _ rest read := by
    obtain ⟨-, rfl⟩ := demand_eq_ok.1 read
    exact List.suffix_rfl

/-- What is demanded is there for what follows. -/
theorem Safe.demand {field : String} {next : Unit → Reader β} (safe : ∀ u, Safe n (next u)) :
    Safe 0 (Reader.demand n field >>= next) := by
  refine safe_demand.bind_of_left (fun bs u rest _ read => ?_) safe
  obtain ⟨enough, rfl⟩ := demand_eq_ok.1 read
  exact enough

theorem safe_take : Safe n (Reader.take n) where
  no_overrun bs enough := by
    rw [Reader.take, if_pos (atLeast_iff.2 enough)]
    nofun
  front bs v rest read := by
    obtain ⟨-, rfl⟩ := take_eq_ok.1 read
    exact List.suffix_append v rest

/-- Reserving room for elements needs the bytes of all of them. -/
theorem safe_reserve : Safe (n * width) (Reader.reserve n width) where
  no_overrun bs enough := by
    rw [Reader.reserve, if_pos (atLeast_iff.2 enough)]
    nofun
  front bs _ rest read := by
    obtain ⟨-, rfl⟩ := reserve_eq_ok.1 read
    exact List.suffix_rfl

/-- Making room takes no bytes away. -/
theorem Safe.reserve {next : Unit → Reader β} (safe : ∀ u, Safe (n * width) (next u)) :
    Safe (n * width) (Reader.reserve n width >>= next) := by
  refine safe_reserve.bind_of_left (fun bs u rest _ read => ?_) safe
  obtain ⟨enough, rfl⟩ := reserve_eq_ok.1 read
  exact enough

/-- Elements may be read one after another if each demands its own bytes. -/
theorem Safe.times {element : Reader α} (safe : Safe 0 element) :
    ∀ n, Safe 0 (Reader.times n element)
  | 0 => safe_pure []
  | n + 1 => safe.bind fun v => (safe.times n).bind fun vs => safe_pure (v :: vs)

/-- Elements of one width need as many bytes as there are elements, times the width. -/
theorem Safe.times_of_width {element : Reader α} (safe : Safe width element)
    (takes : ∀ bs v rest, element bs = .ok (v, rest) → bs.length ≤ width + rest.length) :
    ∀ n, Safe (n * width) (Reader.times n element)
  | 0 => (safe_pure []).of_le (Nat.zero_le _)
  | n + 1 => by
    have first : Safe ((n + 1) * width) element :=
      safe.of_le (Nat.le_mul_of_pos_left width (Nat.succ_pos n))
    refine first.bind_of_left (fun bs v rest enough read => ?_) fun v =>
      (safe.times_of_width takes n).bind fun vs => safe_pure (v :: vs)
    have size := takes bs v rest read
    rw [Nat.succ_mul] at enough
    omega

/-! ## Fields -/

theorem safe_u8 : Safe 0 Reader.u8 :=
  .demand fun _ => safe_take.bind fun _ => safe_pure _

theorem safe_bool : Safe 0 Reader.bool :=
  safe_u8.bind fun byte => by
    split
    · exact safe_pure false
    · exact safe_pure true
    · exact safe_throw _ nofun

theorem safe_takeU32 : Safe 4 takeU32 :=
  safe_take.bind fun _ => safe_pure _

theorem safe_u32 : Safe 0 Reader.u32 :=
  .demand fun _ => safe_takeU32

theorem safe_i32 : Safe 0 Reader.i32 :=
  .demand fun _ => safe_takeU32.bind fun _ => safe_pure _

theorem safe_blob : Safe 0 Reader.blob :=
  safe_u32.bind fun _ => .demand fun _ => safe_take

theorem safe_text : Safe 0 Reader.text :=
  safe_blob.bind fun bytes => by
    split
    · exact safe_pure _
    · exact safe_throw _ nofun

theorem safe_u32s : Safe 0 Reader.u32s :=
  safe_u32.bind fun count => .demand fun _ => .reserve fun _ => by
    refine safe_takeU32.times_of_width (fun bs v rest read => ?_) count.toNat
    rw [((reads_takeU32 _ _ _).1 read).2, List.length_append, length_u32]

/-- A list of records is safe if its elements are. -/
theorem Safe.records {element : Reader α} (safe : Safe 0 element) :
    Safe 0 (Reader.records element) :=
  safe_u32.bind fun count => .demand fun _ => by
    refine Safe.of_le (.reserve fun _ => ?_) (Nat.mul_one count.toNat).le
    exact (safe.times count.toNat).of_le (Nat.zero_le _)

theorem safe_remaining : Safe 0 Reader.remaining where
  no_overrun _ _ := nofun
  front _ _ _ read := by
    obtain ⟨-, rfl⟩ := Prod.mk.inj (Except.ok.inj read)
    exact List.suffix_rfl

theorem safe_hasRemaining : Safe 0 Reader.hasRemaining where
  no_overrun _ _ := nofun
  front _ _ _ read := by
    obtain ⟨-, rfl⟩ := hasRemaining_eq_ok.1 read
    exact List.suffix_rfl

mutual

/-- The reader of a field demands what it takes, however lists and optional parts are nested. -/
theorem Field.safe : (field : Field) → Safe 0 field.read
  | .u8 => safe_u8.map _
  | .bool => safe_bool.map _
  | .u32 => safe_u32.map _
  | .i32 => safe_i32.map _
  | .blob => safe_blob.map _
  | .text => safe_text.map _
  | .u32s => safe_u32s.map _
  | .records fields => (Field.safeAll fields).records.map _
  | .remaining => safe_remaining.map _
  | .optional fields => safe_hasRemaining.bind fun _ =>
    .ite ((Field.safeAll fields).bind fun _ => safe_pure _) (safe_pure _)

/-- Every schema is read safely. -/
theorem Field.safeAll : (fields : List Field) → Safe 0 (Field.readAll fields)
  | [] => safe_pure []
  | field :: fields =>
    (Field.safe field).bind fun _ => (Field.safeAll fields).bind fun _ => safe_pure _

end

/-! ## Records -/

theorem safe_slotStatus : Safe 0 (Record.read : Reader SlotStatus) := by
  have card : Safe 0 CardState.read := safe_u8.bind fun byte => by
    split
    · exact safe_pure _
    · exact safe_throw _ nofun
  have eid : Safe 0 SlotStatus.readEid := safe_u8.bind fun bits =>
    have present := Safe.ite (safe_text.bind fun eid => safe_pure (some eid)) (safe_pure none)
    .ite ((safe_throw (.presence bits) nofun).bind fun _ => present) present
  exact card.bind fun _ => safe_bool.bind fun _ => safe_u32.bind fun _ => safe_text.bind fun _ =>
    safe_text.bind fun _ => eid.bind fun _ => safe_pure _

theorem ofCodes_ne_overrun (codes : List UInt32) :
    NrCapability.ofCodes codes ≠ .error .overrun := by
  induction codes with
  | nil => simp [NrCapability.ofCodes]
  | cons code codes ih =>
    rw [NrCapability.ofCodes]
    cases NrCapability.ofCode? code with
    | none => simp
    | some capability =>
      cases others : NrCapability.ofCodes codes with
      | ok capabilities => simp [Except.map]
      | error why =>
        rw [others] at ih
        simpa [Except.map] using ih

theorem safe_phoneCapability : Safe 0 (Record.read : Reader PhoneCapability) := by
  have nr : Safe 0 PhoneCapability.readNr := safe_hasRemaining.bind fun _ =>
    .ite (safe_u32s.bind fun codes =>
      (safe_liftM (ofCodes_ne_overrun codes)).bind fun _ => safe_pure _) (safe_pure none)
  exact safe_u8.bind fun _ => safe_u8.bind fun _ => safe_bool.bind fun _ => safe_u32s.bind fun _ =>
    nr.bind fun _ => safe_pure _

/-! ## Hostile bytes -/

/-- Reading the bytes as an envelope with these fields ends with a value or as malformed, never
uses a byte that is not there, and stays inside the envelope. -/
structure Contained (fields : Reader α) (bytes : Bytes) : Prop where
  ends : (∃ v, decode fields bytes = .ok v) ∨
    ∃ why, decode fields bytes = .error why ∧ why ≠ .overrun
  header : bytes.length < headerSize →
    decode fields bytes = .error (.truncatedHeader bytes.length)
  envelope : ∀ inside : Bytes, unwrap bytes = .ok inside →
    headerSize ≤ bytes.length ∧ littleEndian (bytes.take headerSize) = bytes.length ∧
      inside = bytes.drop headerSize
  access : ∀ (inside left : Bytes) (a : Access), unwrap bytes = .ok inside →
    Comes fields inside a left → a.size ≤ left.length ∧ left <:+ inside
  rest : ∀ (inside rest : Bytes) (v : α), unwrap bytes = .ok inside →
    fields inside = .ok (v, rest) → rest <:+ inside

/-- The header is checked before it is read. -/
theorem unwrap_ne_overrun (bytes : Bytes) : unwrap bytes ≠ .error .overrun := by
  unfold unwrap
  dsimp only
  repeat' split
  all_goals nofun

/-- A safe reading never overruns, whatever the bytes. -/
theorem decode_ne_overrun {fields : Reader α} (safe : Safe 0 fields) (bytes : Bytes) :
    decode fields bytes ≠ .error .overrun := by
  unfold decode
  cases opened : unwrap bytes with
  | error why =>
    have refused := unwrap_ne_overrun bytes
    rw [opened] at refused
    simpa [bind, Except.bind] using refused
  | ok inside =>
    have read : fields inside ≠ .error .overrun := safe.no_overrun inside (Nat.zero_le _)
    cases result : fields inside with
    | error why =>
      rw [result] at read
      simpa [bind, Except.bind, StateT.run, result] using read
    | ok p =>
      obtain ⟨v, rest⟩ := p
      cases rest with
      | nil => simp [bind, Except.bind, StateT.run, result, pure, Except.pure]
      | cons byte rest => simp [bind, Except.bind, StateT.run, result, throw, throwThe,
          MonadExceptOf.throw]

/-- What is read safely is contained in its envelope. -/
theorem Safe.contained {fields : Reader α} (safe : Safe 0 fields) (bytes : Bytes) :
    Contained fields bytes where
  ends := by
    cases result : decode fields bytes with
    | ok v => exact .inl ⟨v, rfl⟩
    | error why =>
      refine .inr ⟨why, rfl, ?_⟩
      rintro rfl
      exact decode_ne_overrun safe bytes result
  header short := by
    rw [decode, unwrap, if_pos short]
    rfl
  envelope inside opened := by
    obtain ⟨long, declared, same⟩ := unwrap_eq_ok_iff.1 opened
    exact ⟨long, declared, same.symm⟩
  access inside left a opened comes := by
    refine ⟨Nat.le_of_not_lt fun short => ?_, comes.suffix⟩
    exact safe.no_overrun inside (Nat.zero_le _) (comes.overrun short)
  rest inside rest v _ read := safe.front inside v rest read

/-- A demand for more bytes than there are is refused, with both counts. -/
theorem demand_of_short {field : String} {bs : Bytes} (short : bs.length < n) :
    Reader.demand n field bs = .error (.short field n bs.length) :=
  if_neg fun enough => Nat.not_le_of_lt short (atLeast_iff.1 enough)

/-- A list that claims more elements than there are bytes for is refused before it is begun. -/
structure CountsChecked : Prop where
  u32s : ∀ (n : Nat) (rest : Bytes), Fits n → rest.length < n * 4 →
    Reader.u32s (count n ++ rest) = .error (.short "u32 list" (n * 4) rest.length)
  records : ∀ (α : Type) (element : Reader α) (n : Nat) (rest : Bytes), Fits n →
    rest.length < n →
      Reader.records element (count n ++ rest) = .error (.short "record list" n rest.length)

/-- Lists of words and of records check their counts before they are begun. -/
theorem countsChecked : CountsChecked where
  u32s n rest fits short := by
    have claimed := (reads_u32 (count n ++ rest) (.ofNat n) rest).2 ⟨trivial, rfl⟩
    rw [Reader.u32s, bind_of_ok claimed, toNat_of_fits fits]
    exact bind_eq_error.2 (.inl (demand_of_short short))
  records α element n rest fits short := by
    have claimed := (reads_u32 (count n ++ rest) (.ofNat n) rest).2 ⟨trivial, rfl⟩
    rw [Reader.records, bind_of_ok claimed, toNat_of_fits fits]
    exact bind_eq_error.2 (.inl (demand_of_short short))

/-- Whatever the bytes are, every record and every schema is read within them: no access goes past
the end, and no list is begun that cannot be as long as it claims. -/
theorem hostile_bytes_contained :
    (∀ bytes, Contained (Record.read : Reader NoArguments) bytes) ∧
      (∀ bytes, Contained (Record.read : Reader SlotMapping) bytes) ∧
      (∀ bytes, Contained (Record.read : Reader PreferredDataModem) bytes) ∧
      (∀ bytes, Contained (Record.read : Reader LiveModems) bytes) ∧
      (∀ bytes, Contained (Record.read : Reader SlotStatus) bytes) ∧
      (∀ bytes, Contained (Record.read : Reader SlotStatusList) bytes) ∧
      (∀ bytes, Contained (Record.read : Reader PhoneCapability) bytes) ∧
      (∀ bytes, Contained (Record.read : Reader DeviceCapability) bytes) ∧
      (∀ (schema : List Field) (bytes : Bytes), Contained (Field.readAll schema) bytes) ∧
      CountsChecked :=
  ⟨(safe_pure _).contained, (safe_u32s.bind fun _ => safe_pure _).contained,
    (safe_u8.bind fun _ => safe_pure _).contained, (safe_u8.bind fun _ => safe_pure _).contained,
    safe_slotStatus.contained, (safe_slotStatus.records.bind fun _ => safe_pure _).contained,
    safe_phoneCapability.contained, (safe_bool.bind fun _ => safe_pure _).contained,
    fun schema => (Field.safeAll schema).contained, countsChecked⟩

end Baseband.Envelope
