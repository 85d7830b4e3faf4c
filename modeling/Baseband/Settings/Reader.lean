import Baseband.Settings
import Baseband.Json.Number
import Baseband.Json.Value

/-!
# Reading settings

Settings are read from JSON by the names of their members. A member that is not written keeps its
standard value, one with an unknown name is passed over, and one that is written twice is an error.
A structure may also be written as the array of its members in order. The parts of settings have no
standard values, so all their members are required; a duration also refuses unknown names.
-/

namespace Baseband.Settings

open Json (NumberLiteral)

/-- Reads a value, or refuses it. -/
abbrev From (α : Type) := Json → Option α

def readBool : From Bool
  | .bool value => some value
  | _ => none

/-- A whole number up to a limit. -/
def readNatural (limit : Nat) : From Nat
  | .number literal => literal.natural? limit
  | _ => none

/-- A whole number of 64 bits. -/
def readWord : From UInt64 := fun json =>
  (readNatural (1 <<< 64 - 1) json).map .ofNat

def readSingle : From Single
  | .number literal => literal.single?
  | _ => none

def readText : From String
  | .string text => text
  | _ => none

def readList {α : Type} (element : From α) : From (List α)
  | .array elements => elements.mapM element
  | _ => none

/-- A value, or nothing where null is written. -/
def readOptional {α : Type} (value : From α) : From (Option α)
  | .null => some none
  | json => (value json).map some

/-- The members of an object under its known names, in the order of these names. A name may be
missing; a known name must not repeat, and no name may be ill-formed. With `strict` an unknown name
is refused. -/
def select? (names : List String) (strict : Bool) (members : List (Option String × Json)) :
    Option (List (Option Json)) := do
  let keys ← members.mapM (·.1)
  guard (!strict || keys.all names.contains)
  names.mapM fun name =>
    match members.filter fun (key, _) => key == some name with
    | [] => some none
    | [(_, value)] => some (some value)
    | _ => none

/-- The members of a structure in order. An array gives them from the front; with `short` it may
leave out the last ones. -/
def fields? (names : List String) (strict short : Bool) : From (List (Option Json))
  | .array elements =>
    if elements.length = names.length ∨ (short ∧ elements.length ≤ names.length) then
      some (elements.map some ++ List.replicate (names.length - elements.length) none)
    else none
  | .object members => select? names strict members
  | _ => none

/-- A member that is required. -/
def required {α : Type} (value : From α) (member : Option Json) : Option α :=
  member.bind value

/-- A member with a standard value. -/
def withDefault {α : Type} (standard : α) (value : From α) : Option Json → Option α
  | none => some standard
  | some json => value json

def versionNames : List String :=
  ["major", "minor"]

def readVersion : From Version := fun json => do
  let [major, minor] ← fields? versionNames false false json | none
  let major ← required (readNatural Version.limit) major
  let minor ← required (readNatural Version.limit) minor
  return ⟨.ofNat major, .ofNat minor⟩

def attributionNames : List String :=
  ["uid", "package"]

def readAttribution : From Attribution := fun json => do
  let [uid, package] ← fields? attributionNames false false json | none
  let uid ← required (readNatural (1 <<< 32 - 1)) uid
  let package ← required readText package
  return ⟨.ofNat uid, package⟩

def durationNames : List String :=
  ["secs", "nanos"]

/-- Seconds and nanoseconds; whole seconds among the nanoseconds are carried over. -/
def readDuration : From Duration := fun json => do
  let [seconds, nanos] ← fields? durationNames true false json | none
  let seconds ← required (readNatural (1 <<< 64 - 1)) seconds
  let nanos ← required (readNatural (1 <<< 32 - 1)) nanos
  Duration.of? seconds nanos

def retryNames : List String :=
  ["max_attempts", "multiplier", "initial_delay", "max_delay"]

def readRetry : From RetryPolicy := fun json => do
  let [maxAttempts, multiplier, initialDelay, maxDelay] ← fields? retryNames false false json | none
  let maxAttempts ← required (readNatural (1 <<< 32 - 1)) maxAttempts
  let multiplier ← required readSingle multiplier
  let initialDelay ← required readDuration initialDelay
  let maxDelay ← required readDuration maxDelay
  return { maxAttempts := .ofNat maxAttempts, multiplier, initialDelay, maxDelay }

def names : List String :=
  ["candidate_versions", "mobile_network_supported", "work_source", "five_g_standalone",
    "five_g_non_standalone", "discovery_retry", "indication_buffer"]

/-- Settings with standard values for what is not written. -/
def read : From Settings := fun json => do
  let [candidates, mobileNetwork, attribution, standalone, nonStandalone, retry, inboxCapacity] ←
    fields? names false true json | none
  let candidates ← withDefault standard.candidates (readList readVersion) candidates
  let mobileNetwork ← withDefault standard.mobileNetwork readBool mobileNetwork
  let attribution ← withDefault standard.attribution readAttribution attribution
  let standalone ← withDefault standard.standalone readBool standalone
  let nonStandalone ← withDefault standard.nonStandalone readBool nonStandalone
  let retry ← withDefault standard.retry (readOptional readRetry) retry
  let inboxCapacity ← withDefault standard.inboxCapacity readWord inboxCapacity
  return { candidates, mobileNetwork, attribution, standalone, nonStandalone, retry, inboxCapacity }

/-- Read settings from text and check them. -/
def parse (text : String) : Except Error Settings :=
  match (Json.parse? text).bind read with
  | none => .error (.misconfigured .unreadable)
  | some settings => settings.check.map fun _ => settings

end Baseband.Settings
