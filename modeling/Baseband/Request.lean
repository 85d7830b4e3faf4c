import Baseband.Version

/-!
# Requests

A request calls one of the six operations of the radio configuration service. It goes under a serial
that its response repeats, and it is charged to someone. Each carries its age, the number of requests
submitted before it, so that the order of submission can be restored however the serials have
wrapped.
-/

namespace Baseband

/-! ## Operations

The six operations of the radio configuration service, with the method number that each is sent
under and the interface version that introduced it. -/

inductive Operation
  | getSlotStatus
  | setSlotMapping
  | setPreferredDataModem
  | getPhoneCapability
  | setLiveModems
  | getDeviceCapability
deriving DecidableEq, Inhabited

namespace Operation

/-- Every operation, in the order of their method numbers. -/
def all : List Operation :=
  [.getSlotStatus, .setSlotMapping, .setPreferredDataModem, .getPhoneCapability, .setLiveModems,
    .getDeviceCapability]

/-- The name under which an operation appears in messages. -/
def label : Operation → String
  | .getSlotStatus => "GET_SLOT_STATUS"
  | .setSlotMapping => "SET_LOGICAL_TO_PHYSICAL_SLOT_MAPPING"
  | .setPreferredDataModem => "SET_PREFERRED_DATA_MODEM"
  | .getPhoneCapability => "GET_PHONE_CAPABILITY"
  | .setLiveModems => "SWITCH_DUAL_SIM_CONFIG"
  | .getDeviceCapability => "GET_HAL_DEVICE_CAPABILITIES"

/-- The name under which an operation appears in the description of a request. -/
def name : Operation → String
  | .getSlotStatus => "GetSimSlotsStatus"
  | .setSlotMapping => "SetSimSlotsMapping"
  | .setPreferredDataModem => "SetPreferredDataModem"
  | .getPhoneCapability => "GetPhoneCapability"
  | .setLiveModems => "SetModemsConfig"
  | .getDeviceCapability => "GetHalDeviceCapabilities"

def ofName? (s : String) : Option Operation :=
  all.find? fun op => op.name == s

/-- The number of the method that an operation calls. -/
def methodId : Operation → UInt8
  | .getSlotStatus => 1
  | .setSlotMapping => 2
  | .setPreferredDataModem => 3
  | .getPhoneCapability => 4
  | .setLiveModems => 5
  | .getDeviceCapability => 6

/-- The first interface version with the operation. -/
def since : Operation → Version
  | .getSlotStatus | .setSlotMapping => ⟨1, 0⟩
  | .setPreferredDataModem | .getPhoneCapability | .setLiveModems => ⟨1, 1⟩
  | .getDeviceCapability => ⟨1, 3⟩

/-- A service of version `v` implements the operation. -/
def availableIn (op : Operation) (v : Version) : Bool :=
  op.since ≤ v

end Operation

/-! ## Serial numbers

A serial ties a request to its response. Serials count up from 1 and wrap from the largest word back
to 1, so that zero is never issued. -/

/-- The number that a request carries and its response repeats. -/
structure Serial where
  value : UInt32
deriving DecidableEq, Hashable, Inhabited

namespace Serial

def first : Serial := ⟨1⟩

def next (s : Serial) : Serial :=
  if s.value = 0xffffffff then first else ⟨s.value + 1⟩

/-- The written form: at least four digits, in brackets. -/
def text (s : Serial) : String :=
  let digits := Nat.toDigits 10 s.value.toNat
  String.ofList ('[' :: List.replicate (4 - digits.length) '0' ++ digits ++ [']'])

theorem next_ne_zero (s : Serial) : s.next.value ≠ 0 := by
  unfold next
  split
  · decide
  · rename_i h
    intro hz
    have hmax : s.value.toNat ≠ 4294967295 := fun hn => h (UInt32.toNat_inj.1 hn)
    have hsum := congrArg UInt32.toNat hz
    have hlt := s.value.toNat_lt
    simp only [UInt32.toNat_add, UInt32.toNat_one, UInt32.toNat_zero] at hsum
    omega

end Serial

/-! ## Requests and whom they are charged to -/

/-- The user and the package that a request is charged to. -/
structure Attribution where
  uid : UInt32
  package : String
deriving DecidableEq

/-- The telephony service itself. -/
def Attribution.standard : Attribution :=
  ⟨1001, "com.android.phone"⟩

/-- A request that waits for its response. Its completion is of any kind. -/
structure Request (κ : Type) where
  serial : Serial
  operation : Operation
  completion : κ
  attribution : Attribution
  /-- How many requests were submitted before. -/
  age : Nat

/-- Restore the order of submission. -/
def Request.oldestFirst {κ : Type} (requests : List (Request κ)) : List (Request κ) :=
  requests.mergeSort fun r s => decide (r.age ≤ s.age)

end Baseband
