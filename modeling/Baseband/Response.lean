import Baseband.Error
import Baseband.Record

/-!
# Queries and responses

What a caller can ask of a service, an operation with its arguments, what the service answers to
each operation, and how the answer is read from the payload of a response with status zero.
-/

namespace Baseband

/-! ## Queries -/

inductive Query
  | getSlotStatus
  /-- Map each logical slot, in order, to a physical slot. -/
  | setSlotMapping (physicalSlots : List UInt32)
  | setPreferredDataModem (modem : UInt8)
  /-- The limits of concurrent modem use. -/
  | getPhoneCapability
  | setLiveModems (count : UInt8)
  | getDeviceCapability
deriving DecidableEq

namespace Query

def operation : Query → Operation
  | getSlotStatus => .getSlotStatus
  | setSlotMapping _ => .setSlotMapping
  | setPreferredDataModem _ => .setPreferredDataModem
  | getPhoneCapability => .getPhoneCapability
  | setLiveModems _ => .setLiveModems
  | getDeviceCapability => .getDeviceCapability

def payload : Query → Bytes
  | setSlotMapping slots => Record.encode (⟨slots⟩ : SlotMapping)
  | setPreferredDataModem modem => Record.encode (⟨modem⟩ : PreferredDataModem)
  | setLiveModems modems => Record.encode (⟨modems⟩ : LiveModems)
  | getSlotStatus | getPhoneCapability | getDeviceCapability =>
    Record.encode ({} : NoArguments)

end Query

/-! ## Responses -/

inductive Response
  | acknowledged
  | slotStatus (slots : List SlotStatus)
  | phoneCapability (capability : PhoneCapability)
  | deviceCapability (capability : DeviceCapability)
deriving DecidableEq

namespace Response

def encode : Response → Bytes
  | acknowledged => Record.encode (α := NoArguments) {}
  | slotStatus slots => Record.encode (α := SlotStatusList) ⟨slots⟩
  | phoneCapability capability => Record.encode capability
  | deviceCapability capability => Record.encode capability

/-- The response that is the answer to an operation. -/
def answers (op : Operation) : Response → Bool
  | acknowledged =>
    op = .setSlotMapping || op = .setPreferredDataModem || op = .setLiveModems
  | slotStatus _ => op = .getSlotStatus
  | phoneCapability _ => op = .getPhoneCapability
  | deviceCapability _ => op = .getDeviceCapability

/-- Read the payload of a response to an operation. -/
def decode (op : Operation) (payload : Bytes) : Except Malformed Response :=
  match op with
  | .getSlotStatus => (Record.decode payload).map fun (r : SlotStatusList) => slotStatus r.slots
  | .getPhoneCapability => (Record.decode payload).map phoneCapability
  | .getDeviceCapability => (Record.decode payload).map deviceCapability
  | .setSlotMapping | .setPreferredDataModem | .setLiveModems =>
    (Record.decode payload).map fun (_ : NoArguments) => acknowledged

end Response

/-- How a service classifies a response. -/
inductive ResponseClass
  | solicited
  | solicitedAck
  | solicitedAckExp
deriving DecidableEq

structure ResponseHeader where
  serial : Serial
  responseClass : ResponseClass
  /-- Zero for success. -/
  status : Int32
deriving DecidableEq

/-- The header of a solicited response. -/
def ResponseHeader.solicited (serial : Serial) (status : Int32) : ResponseHeader :=
  ⟨serial, .solicited, status⟩

/-- What became of a request. -/
abbrev Outcome := Except Error Response

/-- What a response means for the request to an operation: a status other than zero is an error
whatever the payload, and the payload must be that of the operation. -/
def Response.outcome (op : Operation) (status : Int32) (payload : Bytes) : Outcome :=
  if status ≠ 0 then .error (.remote status)
  else (decode op payload).mapError .malformed

end Baseband
