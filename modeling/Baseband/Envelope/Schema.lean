import Baseband.Envelope.Basic

/-!
# Schemas

A schema lists the fields of a record. It reads the values of these fields from an envelope, and
values are written without it. Beside the plain fields there are two that a reader of records with
optional parts needs: the number of bytes left, and a part that is read only if bytes are left.
-/

namespace Baseband.Envelope

inductive Field
  | u8
  | bool
  | u32
  | i32
  | blob
  | text
  | u32s
  | records (fields : List Field)
  | remaining
  | optional (fields : List Field)

inductive Value
  | u8 (v : UInt8)
  | bool (v : Bool)
  | u32 (v : UInt32)
  | i32 (v : Int32)
  | blob (v : Bytes)
  | text (v : String)
  | u32s (v : List UInt32)
  | records (rows : List (List Value))
  | remaining (count : Nat)
  | optional (part : Option (List Value))

mutual

def Field.read : Field → Reader Value
  | .u8 => .u8 <$> Reader.u8
  | .bool => .bool <$> Reader.bool
  | .u32 => .u32 <$> Reader.u32
  | .i32 => .i32 <$> Reader.i32
  | .blob => .blob <$> Reader.blob
  | .text => .text <$> Reader.text
  | .u32s => .u32s <$> Reader.u32s
  | .records fields => .records <$> Reader.records (Field.readAll fields)
  | .remaining => .remaining <$> Reader.remaining
  | .optional fields => do
    if ← Reader.hasRemaining then
      return .optional (some (← Field.readAll fields))
    else
      return .optional none

def Field.readAll : List Field → Reader (List Value)
  | [] => return []
  | field :: fields => do
    let value ← Field.read field
    return value :: (← Field.readAll fields)

end

mutual

/-- Write a value. What a reader only observes has no bytes of its own. -/
def Value.write : Value → Bytes
  | .u8 v => Envelope.u8 v
  | .bool v => Envelope.bool v
  | .u32 v => Envelope.u32 v
  | .i32 v => Envelope.i32 v
  | .blob v => Envelope.blob v
  | .text v => Envelope.text v
  | .u32s v => Envelope.u32s v
  | .records rows => count rows.length ++ Value.writeRows rows
  | .remaining _ => []
  | .optional none => []
  | .optional (some part) => Value.writeAll part

def Value.writeAll : List Value → Bytes
  | [] => []
  | value :: values => Value.write value ++ Value.writeAll values

def Value.writeRows : List (List Value) → Bytes
  | [] => []
  | row :: rows => Value.writeAll row ++ Value.writeRows rows

end

def encodeValues (values : List Value) : Bytes :=
  wrap (Value.writeAll values)

def decodeValues (schema : List Field) (bytes : Bytes) : Except Malformed (List Value) :=
  decode (Field.readAll schema) bytes

end Baseband.Envelope
