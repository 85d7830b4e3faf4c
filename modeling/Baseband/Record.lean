import Baseband.Envelope.Basic

/-!
# Records

The arguments and results of the operations, each with its layout in an envelope. A record with an
optional part announces it either by bits in front or by the end of the envelope.
-/

namespace Baseband

open Envelope

/-- A type with a fixed layout. -/
class Record (α : Type) where
  write : α → Bytes
  read : Reader α

namespace Record

def encode {α : Type} [Record α] (record : α) : Bytes :=
  wrap (write record)

def decode {α : Type} [Record α] (bytes : Bytes) : Except Malformed α :=
  Envelope.decode read bytes

end Record

/-- The arguments of an operation that takes none. -/
structure NoArguments where
deriving DecidableEq

instance : Record NoArguments where
  write _ := []
  read := return {}

/-- The physical slot of each logical slot, in order. -/
structure SlotMapping where
  physicalSlots : List UInt32
deriving DecidableEq

instance : Record SlotMapping where
  write r := u32s r.physicalSlots
  read := return { physicalSlots := ← Reader.u32s }

/-- The modem to use for data. -/
structure PreferredDataModem where
  modem : UInt8
deriving DecidableEq

instance : Record PreferredDataModem where
  write r := u8 r.modem
  read := return { modem := ← Reader.u8 }

/-- The number of modems to keep live; one means a single card. -/
structure LiveModems where
  count : UInt8
deriving DecidableEq

instance : Record LiveModems where
  write r := u8 r.count
  read := return { count := ← Reader.u8 }

/-- The state of the card in a slot. -/
inductive CardState
  | absent
  | present
  | error
  | restricted
deriving DecidableEq

namespace CardState

def code : CardState → UInt8
  | absent => 0
  | present => 1
  | error => 2
  | restricted => 3

def ofCode? : UInt8 → Option CardState
  | 0 => some absent
  | 1 => some present
  | 2 => some error
  | 3 => some restricted
  | _ => none

theorem ofCode?_code (state : CardState) : ofCode? state.code = some state := by
  cases state <;> rfl

def read : Reader CardState := do
  let byte ← Reader.u8
  match ofCode? byte with
  | some state => return state
  | none => throw (.cardState byte)

end CardState

structure SlotStatus where
  card : CardState
  active : Bool
  logicalSlot : UInt32
  atr : String
  iccid : String
  eid : Option String
deriving DecidableEq

namespace SlotStatus

/-- The presence bit of the last field. -/
def eidBit : UInt8 := 1

/-- A byte of presence bits, then the part that it announces. -/
def writeEid : Option String → Bytes
  | some eid => u8 eidBit ++ text eid
  | none => u8 0

def readEid : Reader (Option String) := do
  let bits ← Reader.u8
  if bits &&& ~~~eidBit ≠ 0 then throw (.presence bits)
  if bits &&& eidBit ≠ 0 then
    return some (← Reader.text)
  else
    return none

end SlotStatus

instance : Record SlotStatus where
  write r :=
    u8 r.card.code ++ bool r.active ++ u32 r.logicalSlot ++ text r.atr ++ text r.iccid ++
      SlotStatus.writeEid r.eid
  read := do
    let card ← CardState.read
    let active ← Reader.bool
    let logicalSlot ← Reader.u32
    let atr ← Reader.text
    let iccid ← Reader.text
    let eid ← SlotStatus.readEid
    return { card, active, logicalSlot, atr, iccid, eid }

structure SlotStatusList where
  slots : List SlotStatus
deriving DecidableEq

instance : Record SlotStatusList where
  write r := records Record.write r.slots
  read := return { slots := ← Reader.records Record.read }

/-- How 5G is deployed beside the older network. -/
inductive NrCapability
  | nonStandalone
  | standalone
deriving DecidableEq

namespace NrCapability

def code : NrCapability → UInt32
  | nonStandalone => 1
  | standalone => 2

def ofCode? : UInt32 → Option NrCapability
  | 1 => some nonStandalone
  | 2 => some standalone
  | _ => none

theorem ofCode?_code (capability : NrCapability) : ofCode? capability.code = some capability := by
  cases capability <;> rfl

/-- The capabilities of words; the first unknown word is refused. -/
def ofCodes : List UInt32 → Except Malformed (List NrCapability)
  | [] => .ok []
  | code :: codes =>
    match ofCode? code with
    | none => .error (.nrCapability code)
    | some capability => (ofCodes codes).map (capability :: ·)

end NrCapability

/-- What the modems can do at the same time. The last field is absent in records of older services,
which end before it. -/
structure PhoneCapability where
  maxActiveData : UInt8
  maxActiveInternetData : UInt8
  internetLinger : Bool
  logicalModems : List UInt32
  nrCapabilities : Option (List NrCapability)
deriving DecidableEq

namespace PhoneCapability

def writeNr : Option (List NrCapability) → Bytes
  | some capabilities => u32s (capabilities.map NrCapability.code)
  | none => []

def readNr : Reader (Option (List NrCapability)) := do
  if ← Reader.hasRemaining then
    let codes ← Reader.u32s
    return some (← NrCapability.ofCodes codes)
  else
    return none

end PhoneCapability

instance : Record PhoneCapability where
  write r :=
    u8 r.maxActiveData ++ u8 r.maxActiveInternetData ++ bool r.internetLinger ++
      u32s r.logicalModems ++ PhoneCapability.writeNr r.nrCapabilities
  read := do
    let maxActiveData ← Reader.u8
    let maxActiveInternetData ← Reader.u8
    let internetLinger ← Reader.bool
    let logicalModems ← Reader.u32s
    let nrCapabilities ← PhoneCapability.readNr
    return { maxActiveData, maxActiveInternetData, internetLinger, logicalModems, nrCapabilities }

/-- What the device as a whole can do. -/
structure DeviceCapability where
  reducedFeatureSet : Bool
deriving DecidableEq

instance : Record DeviceCapability where
  write r := bool r.reducedFeatureSet
  read := return { reducedFeatureSet := ← Reader.bool }

end Baseband
