import Baseband.Error

/-!
# Envelopes

A field is written as a list of bytes, and a record is the sequence of its fields, so that writing
one after another is appending. Integers are little-endian; text, blobs and lists start with a count
of four bytes. An envelope puts the total size, its own four bytes included, in front.
-/

namespace Baseband

abbrev Bytes := List UInt8

namespace Envelope

/-! ## Writing fields -/

def headerSize : Nat :=
  4

def u8 (v : UInt8) : Bytes :=
  [v]

def bool (v : Bool) : Bytes :=
  [if v then 1 else 0]

def u32 (v : UInt32) : Bytes :=
  [v.toUInt8, (v >>> 8).toUInt8, (v >>> 16).toUInt8, (v >>> 24).toUInt8]

def i32 (v : Int32) : Bytes :=
  u32 v.toUInt32

/-- A number of bytes or elements. -/
def count (n : Nat) : Bytes :=
  u32 (.ofNat n)

def blob (v : Bytes) : Bytes :=
  count v.length ++ v

def text (v : String) : Bytes :=
  blob (Text.Utf8.encode v.toList)

def u32s (v : List UInt32) : Bytes :=
  count v.length ++ v.flatMap u32

/-- A list of records, the fields of each in place. -/
def records {α : Type} (write : α → Bytes) (v : List α) : Bytes :=
  count v.length ++ v.flatMap write

/-- Put the total size in front of the fields. -/
def wrap (fields : Bytes) : Bytes :=
  count (headerSize + fields.length) ++ fields

/-! ## Reading fields

A reader takes bytes from the front of an envelope. Each field first demands the bytes that it
needs and then takes them: `demand` is the check that refuses, `take` and `reserve` are the accesses
that rely on it. An access that goes past the end is the cause `overrun`, which no field reader
below can produce. -/

/-- A reader of bytes from the front, that refuses or leaves the rest. -/
abbrev Reader (α : Type) := StateT Bytes (Except Malformed) α

/-- There are at least `n` bytes. -/
def atLeast : Nat → Bytes → Bool
  | 0, _ => true
  | _ + 1, [] => false
  | n + 1, _ :: bs => atLeast n bs

theorem atLeast_iff {n : Nat} {bs : Bytes} : atLeast n bs = true ↔ n ≤ bs.length := by
  fun_induction atLeast n bs <;> simp_all

namespace Reader

/-- Refuse unless `n` bytes are left for the field. -/
def demand (n : Nat) (field : String) : Reader Unit := fun rest =>
  if atLeast n rest then .ok ((), rest) else .error (.short field n rest.length)

/-- Take `n` bytes that were demanded before. -/
def take (n : Nat) : Reader Bytes := fun rest =>
  if atLeast n rest then .ok (rest.take n, rest.drop n) else .error .overrun

/-- Make room for `n` elements, each of at least `width` bytes, that were demanded before. -/
def reserve (n width : Nat) : Reader Unit := fun rest =>
  if atLeast (n * width) rest then .ok ((), rest) else .error .overrun

def remaining : Reader Nat := fun rest =>
  .ok (rest.length, rest)

def hasRemaining : Reader Bool := fun rest =>
  .ok (!rest.isEmpty, rest)

/-- The little-endian value of bytes. -/
def littleEndian : Bytes → Nat
  | [] => 0
  | b :: bs => b.toNat + 256 * littleEndian bs

theorem littleEndian_u32 (v : UInt32) : littleEndian (Envelope.u32 v) = v.toNat := by
  have h := v.toNat_lt
  simp [Envelope.u32, littleEndian, Nat.shiftRight_eq_div_pow]
  omega

/-- Take the four bytes of a word that were demanded before. -/
def takeU32 : Reader UInt32 := do
  return .ofNat (littleEndian (← take 4))

def u8 : Reader UInt8 := do
  demand 1 "u8"
  return .ofNat (littleEndian (← take 1))

def bool : Reader Bool := do
  match ← u8 with
  | 0 => return false
  | 1 => return true
  | other => throw (.invalidBool other)

def u32 : Reader UInt32 := do
  demand 4 "u32"
  takeU32

def i32 : Reader Int32 := do
  demand 4 "i32"
  return (← takeU32).toInt32

def blob : Reader Bytes := do
  let length := (← u32).toNat
  demand length "byte blob"
  take length

def text : Reader String := do
  match Text.Utf8.decode (← blob) with
  | .ok cs => return String.ofList cs
  | .error flaw => throw (.invalidText flaw)

def times {α : Type} : Nat → Reader α → Reader (List α)
  | 0, _ => return []
  | n + 1, element => do
    let first ← element
    return first :: (← times n element)

def u32s : Reader (List UInt32) := do
  let count := (← u32).toNat
  demand (count * 4) "u32 list"
  reserve count 4
  times count takeU32

/-- A list of records, each of which takes at least one byte. -/
def records {α : Type} (element : Reader α) : Reader (List α) := do
  let count := (← u32).toNat
  demand count "record list"
  reserve count 1
  times count element

end Reader

/-- The fields inside an envelope, once its header agrees with its size. -/
def unwrap (bytes : Bytes) : Except Malformed Bytes :=
  let got := bytes.length
  if got < headerSize then .error (.truncatedHeader got)
  else
    let declared := Reader.littleEndian (bytes.take headerSize)
    if declared < headerSize then .error (.undersized declared)
    else if got < declared then .error (.truncated declared got)
    else if declared < got then .error (.overlong declared got)
    else .ok (bytes.drop headerSize)

/-- Read an envelope whose fields are those of the reader, to the last byte. -/
def decode {α : Type} (fields : Reader α) (bytes : Bytes) : Except Malformed α := do
  let (value, rest) ← fields.run (← unwrap bytes)
  if rest.isEmpty then return value else throw (.unread rest.length)

end Envelope

end Baseband
