import Baseband.Settings.Reader
import Baseband.Json.Printer

/-!
# Writing settings

Settings are written as an object with every setting under its name, in order.
-/

namespace Baseband.Settings

/-- An object with the given names and values. -/
def objectOf (names : List String) (values : List Json) : Json :=
  .object (names.zipWith (fun name value => (some name, value)) values)

def naturalJson (n : Nat) : Json :=
  .number (.ofNat n)

/-- A binary number; one that is not finite has no written form and leaves null. -/
def singleJson (x : Single) : Json :=
  if x.isFinite then .number (.ofSingle x) else .null

def versionJson (v : Version) : Json :=
  objectOf versionNames [naturalJson v.major.toNat, naturalJson v.minor.toNat]

def attributionJson (w : Attribution) : Json :=
  objectOf attributionNames [naturalJson w.uid.toNat, .string (some w.package)]

def durationJson (d : Duration) : Json :=
  objectOf durationNames [naturalJson d.seconds, naturalJson d.subsecond]

def retryJson (r : RetryPolicy) : Json :=
  objectOf retryNames [naturalJson r.maxAttempts.toNat, singleJson r.multiplier,
    durationJson r.initialDelay, durationJson r.maxDelay]

def toJson (settings : Settings) : Json :=
  objectOf names [
    .array (settings.candidates.map versionJson),
    .bool settings.mobileNetwork,
    attributionJson settings.attribution,
    .bool settings.standalone,
    .bool settings.nonStandalone,
    (settings.retry.map retryJson).getD .null,
    naturalJson settings.inboxCapacity.toNat]

def text (settings : Settings) : String :=
  (toJson settings).text

end Baseband.Settings
