import Baseband.Request
import Baseband.Discovery
import Baseband.Record

/-!
# Settings

What a client is set up with, and which settings a client cannot work with.
-/

namespace Baseband

structure Settings where
  /-- The versions to look for, newest first whatever their order here. -/
  candidates : List Version
  /-- Without a mobile network the service is never looked for. -/
  mobileNetwork : Bool
  /-- Whom every request is charged to. -/
  attribution : Attribution
  standalone : Bool
  nonStandalone : Bool
  /-- How interrupted lookups are repeated, if they are. -/
  retry : Option RetryPolicy
  /-- How many indications an inbox holds. -/
  inboxCapacity : UInt64
deriving DecidableEq

namespace Settings

/-- What holds where nothing is set. -/
def standard : Settings where
  candidates := [⟨1, 3⟩, ⟨1, 1⟩, ⟨1, 0⟩]
  mobileNetwork := true
  attribution := .standard
  standalone := false
  nonStandalone := false
  retry := none
  inboxCapacity := 16

/-- Refuse settings that a client cannot work with. -/
def check (s : Settings) : Except Error Unit :=
  if s.candidates.isEmpty then .error (.missing "candidate_versions")
  else if s.inboxCapacity = 0 then .error (.misconfigured .emptyInbox)
  else .ok ()

/-- The 5G deployments of the device. -/
def nrCapabilities (s : Settings) : List NrCapability :=
  (if s.nonStandalone then [.nonStandalone] else []) ++ if s.standalone then [.standalone] else []

end Settings

/-! ## Drafts

A draft collects settings in any order. A whole set of settings replaces the plain settings made
before it; the retry settings are kept apart and replace those of the whole set at the end, one by
one. -/

structure Draft where
  settings : Settings
  maxAttempts : Option UInt32
  multiplier : Option Single
  initialDelay : Option Duration
  maxDelay : Option Duration

namespace Draft

def empty : Draft :=
  ⟨.standard, none, none, none, none⟩

inductive Change
  /-- A whole set of settings. -/
  | settings (settings : Settings)
  | candidates (versions : List Version)
  | mobileNetwork (supported : Bool)
  | attribution (attribution : Attribution)
  | inboxCapacity (capacity : UInt64)
  | maxAttempts (attempts : UInt32)
  | multiplier (multiplier : Single)
  | initialDelay (delay : Duration)
  | maxDelay (delay : Duration)

def change (d : Draft) : Change → Draft
  | .settings settings => { d with settings }
  | .candidates candidates => { d with settings := { d.settings with candidates } }
  | .mobileNetwork mobileNetwork => { d with settings := { d.settings with mobileNetwork } }
  | .attribution attribution => { d with settings := { d.settings with attribution } }
  | .inboxCapacity inboxCapacity => { d with settings := { d.settings with inboxCapacity } }
  | .maxAttempts attempts => { d with maxAttempts := some attempts }
  | .multiplier multiplier => { d with multiplier := some multiplier }
  | .initialDelay delay => { d with initialDelay := some delay }
  | .maxDelay delay => { d with maxDelay := some delay }

def changeAll (d : Draft) (changes : List Change) : Draft :=
  changes.foldl change d

/-- Some retry setting was made. -/
def setsRetry (d : Draft) : Bool :=
  d.maxAttempts.isSome || d.multiplier.isSome || d.initialDelay.isSome || d.maxDelay.isSome

/-- The retries of the result: those of the whole set unless a retry setting was made. -/
def retry (d : Draft) : Option RetryPolicy :=
  if d.setsRetry then
    let base := d.settings.retry.getD .standard
    some {
      maxAttempts := d.maxAttempts.getD base.maxAttempts
      multiplier := d.multiplier.getD base.multiplier
      initialDelay := d.initialDelay.getD base.initialDelay
      maxDelay := d.maxDelay.getD base.maxDelay }
  else d.settings.retry

/-- The settings of all changes, if a client can work with them. -/
def finish (d : Draft) : Except Error Settings :=
  let settings := { d.settings with retry := d.retry }
  settings.check.map fun _ => settings

end Draft

end Baseband
