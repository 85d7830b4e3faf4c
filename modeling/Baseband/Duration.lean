import Baseband.Binary

/-!
# Durations

A span of time in whole nanoseconds, shorter than `2 ^ 64` seconds, and its conversions to and from
a count of seconds with 64 bits. The count of seconds is rounded, so a span need not survive both
conversions.
-/

namespace Baseband

def nanosPerSecond : Nat :=
  1000000000

structure Duration where
  nanos : Nat
  nanos_lt : nanos < 1 <<< 64 * nanosPerSecond
deriving DecidableEq

/-- Why a count of seconds is not a duration. -/
inductive Unrepresentable
  | negative
  | tooLarge
deriving DecidableEq

/-- The description of a count of seconds that is not a duration. -/
def Unrepresentable.text : Unrepresentable → String
  | .negative => "cannot convert float seconds to Duration: value is negative"
  | .tooLarge => "cannot convert float seconds to Duration: value is either too big or NaN"

namespace Duration

def zero : Duration :=
  ⟨0, by decide⟩

def millis (n : UInt32) : Duration :=
  ⟨n.toNat * 1000000, by have := n.toNat_lt; simp only [nanosPerSecond]; omega⟩

/-- The duration of a number of nanoseconds, unless it is too long. -/
def ofNanos? (n : Nat) : Option Duration :=
  if h : n < 1 <<< 64 * nanosPerSecond then some ⟨n, h⟩ else none

/-- The duration of seconds and nanoseconds, unless it is too long. -/
def of? (seconds nanos : Nat) : Option Duration :=
  ofNanos? (seconds * nanosPerSecond + nanos)

def seconds (d : Duration) : Nat :=
  d.nanos / nanosPerSecond

/-- The nanoseconds beyond the whole seconds. -/
def subsecond (d : Duration) : Nat :=
  d.nanos % nanosPerSecond

theorem of?_seconds_subsecond (d : Duration) : of? d.seconds d.subsecond = some d := by
  have h : d.seconds * nanosPerSecond + d.subsecond = d.nanos := Nat.div_add_mod' ..
  rw [of?, h, ofNanos?, dif_pos d.nanos_lt]

instance : LE Duration := ⟨fun d e => d.nanos ≤ e.nanos⟩

instance : DecidableLE Duration := fun d e => inferInstanceAs (Decidable (d.nanos ≤ e.nanos))

instance : Min Duration := ⟨fun d e => if d ≤ e then d else e⟩

/-- The count of seconds: whole seconds and the rest are rounded apart and added. -/
def toSeconds (d : Duration) : Float :=
  (UInt64.ofNat d.seconds).toFloat +
    (UInt64.ofNat d.subsecond).toFloat / (UInt64.ofNat nanosPerSecond).toFloat

/-- The duration of a count of seconds, to the nearest nanosecond with a tie to the even one. A
negative zero counts as zero. -/
def ofSeconds (x : Float) : Except Unrepresentable Duration :=
  let magnitude := x.toBits.toNat % 1 <<< 63
  if x < 0 then .error .negative
  else if Binary.double.infinity ≤ magnitude then .error .tooLarge
  else
    let (m, e) := Binary.double.parts magnitude
    match ofNanos? (Binary.roundScaled (m * nanosPerSecond) e) with
    | some d => .ok d
    | none => .error .tooLarge

end Duration

end Baseband
