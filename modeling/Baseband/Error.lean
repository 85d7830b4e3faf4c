import Baseband.Request
import Baseband.Text.Quoted
import Baseband.Text.Utf8

/-!
# Errors

What can go wrong between a caller and the service. Every error is a cause; its wording is one
function.
-/

namespace Baseband

/-! ## Malformed records

The causes for which a record is refused, with their descriptions. -/

/-- Why a sequence of bytes is not a record. -/
inductive Malformed
  /-- The bytes end inside the size header. -/
  | truncatedHeader (got : Nat)
  /-- The size header claims less than its own size. -/
  | undersized (declared : Nat)
  /-- The size header claims more than there is. -/
  | truncated (declared got : Nat)
  /-- The size header claims less than there is. -/
  | overlong (declared got : Nat)
  /-- The rest of the envelope is too short for the field. -/
  | short (field : String) (need available : Nat)
  | invalidBool (byte : UInt8)
  | invalidText (flaw : Text.Utf8.Flaw)
  | cardState (byte : UInt8)
  /-- Presence bits beside the known one are set. -/
  | presence (bits : UInt8)
  | nrCapability (code : UInt32)
  /-- Bytes are left inside the envelope after the last field. -/
  | unread (count : Nat)
  /-- A read past the end of the envelope. No record reader asks for one. -/
  | overrun
  | described (why : String)
deriving DecidableEq

namespace Malformed

/-- Two hexadecimal digits with a leading `0x`. -/
def hexByte (b : UInt8) : String :=
  let digits := Nat.toDigits 16 b.toNat
  String.ofList ('0' :: 'x' :: List.replicate (2 - digits.length) '0' ++ digits)

def text : Malformed → String
  | truncatedHeader got => s!"truncated header: {got} of 4 bytes"
  | undersized declared => s!"declared size {declared} below header size"
  | truncated declared got => s!"truncated: declared {declared} bytes, got {got}"
  | overlong declared got => s!"over-length: declared {declared} bytes, got {got}"
  | short field need available => s!"truncated {field}: need {need} bytes, have {available}"
  | invalidBool byte => s!"invalid bool {byte}"
  | invalidText flaw => s!"invalid utf-8: {flaw.text}"
  | cardState byte => s!"card state {byte}"
  | presence bits => s!"unknown slot presence bits {hexByte bits}"
  | nrCapability code => s!"nr capability {code}"
  | unread count => s!"{count} unread bytes after last field"
  | overrun => "read past the end"
  | described why => why

end Malformed

/-! ## All errors -/

/-- What befell a connection. -/
inductive Fault
  /-- A lookup of the version was cut off. -/
  | lookupInterrupted (version : Version)
  | dead (version : Version)
  /-- A death registration with the cookie exists already. -/
  | alreadyLinked (cookie : Nat) (version : Version)
  /-- The service refused to take the request. -/
  | sendFailed (serial : Serial) (version : Version)
  | described (why : String)
deriving DecidableEq

def Fault.text : Fault → String
  | .lookupInterrupted version => s!"lookup of {version.text} interrupted"
  | .dead version => s!"service {version.text} is dead"
  | .alreadyLinked cookie version =>
    s!"cookie {cookie} already linked to service {version.text}"
  | .sendFailed serial version => s!"send of {serial.text} to {version.text} failed"
  | .described why => why

inductive Misconfigured
  | badVersion (written : String)
  /-- The indication inbox has no room. -/
  | emptyInbox
  /-- The text is not JSON, or not of the expected shape. -/
  | unreadable
  | described (why : String)
deriving DecidableEq

def Misconfigured.text : Misconfigured → String
  | .badVersion written => s!"invalid service version: {Text.quoted written}"
  | .emptyInbox => "indication_buffer must be non-zero"
  | .unreadable => "unreadable text"
  | .described why => why

/-- An error of the client, the service or the settings. -/
inductive Error
  /-- No session can be established; a later attempt may succeed. -/
  | unavailable
  /-- The connected version lacks the operation. -/
  | notSupported (operation : Operation) (version : Version)
  | malformed (why : Malformed)
  /-- A response came for a serial that is not outstanding. -/
  | stale (serial : Serial)
  /-- No service of the version is registered. -/
  | notFound (version : Version)
  /-- The transport failed in a way that may pass. -/
  | interrupted (fault : Fault)
  /-- The transport failed. -/
  | transport (fault : Fault)
  /-- The service answered with a status other than zero. -/
  | remote (status : Int32)
  | missing (setting : String)
  | misconfigured (why : Misconfigured)
deriving DecidableEq

def Error.message : Error → String
  | .unavailable => "radio config service unavailable"
  | .notSupported operation version =>
    s!"{operation.label} not supported by service version {version.text}"
  | .malformed why => s!"malformed record: {why.text}"
  | .stale serial => s!"stale response for serial {serial.text}"
  | .notFound version => s!"service version {version.text} not found"
  | .interrupted fault => s!"retryable transport error: {fault.text}"
  | .transport fault => s!"transport error: {fault.text}"
  | .remote status => s!"service returned status {status}"
  | .missing setting => s!"missing configuration: {setting}"
  | .misconfigured why => s!"invalid configuration: {why.text}"

/-- Read a version, or say what was written instead. -/
def Version.parse (written : String) : Except Error Version :=
  match Version.parse? written with
  | some version => .ok version
  | none => .error (.misconfigured (.badVersion written))

end Baseband
