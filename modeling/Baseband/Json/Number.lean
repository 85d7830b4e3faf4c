import Baseband.Binary
import Baseband.Json.Token

/-!
# Numbers in JSON

A number without fraction and exponent that fits a word is that whole number; every other number is
a binary number of 64 bits. Its significand keeps as many digits as fit 64 bits, the digits after
them only move the exponent or are dropped, and the significand is scaled by powers of ten, so the
result is near the number written and not always the nearest.
-/

namespace Baseband.Json

/-- What the spelling of a number denotes. -/
inductive Numeric
  | whole (n : Nat)
  | negative (n : Nat)
  | float (x : Float)

namespace NumberLiteral

/-- The largest significand. -/
def wordLimit : Nat :=
  1 <<< 64 - 1

/-- The largest exponent that is read. -/
def exponentLimit : Nat :=
  1 <<< 31 - 1

/-- Read digits into a significand while it fits, and leave the digits that do not. -/
def significand (acc : Nat) : List Nat → Nat × List Nat
  | [] => (acc, [])
  | d :: ds => if wordLimit < 10 * acc + d then (acc, d :: ds) else significand (10 * acc + d) ds

/-- A power of ten up to the largest that 64 bits can hold. -/
def powerOfTen (k : Nat) : Float :=
  Float.ofBits (.ofNat (Binary.double.nearest (Nat.pow 10 k) 0))

/-- The largest scale of one step. -/
def scaleLimit : Nat :=
  308

/-- Scale down by a power of ten, in steps. -/
def scaleDown (x : Float) (k : Nat) : Float :=
  if k ≤ scaleLimit then x / powerOfTen k
  else if x == 0 then x
  else scaleDown (x / powerOfTen scaleLimit) (k - scaleLimit)
termination_by k
decreasing_by simp_all [scaleLimit]; omega

/-- A significand times a power of ten, unless it is too large. -/
def scale? (significand : Nat) (exponent : Int) : Option Float :=
  let x := (UInt64.ofNat significand).toFloat
  if exponent < 0 then some (scaleDown x (-exponent).toNat)
  else if exponent ≤ scaleLimit then
    let y := x * powerOfTen exponent.toNat
    if y.isInf then none else some y
  else if x == 0 then some x
  else none

/-- The value of digits, up to the largest exponent. -/
def exponentValue? (acc : Nat) : List Nat → Option Nat
  | [] => some acc
  | d :: ds => if exponentLimit < 10 * acc + d then none else exponentValue? (10 * acc + d) ds

/-- Bring an exponent into the range of 32 bits. -/
def clampExponent (e : Int) : Int :=
  max (-0x80000000) (min 0x7fffffff e)

/-- Apply the written exponent. One that is too large decides alone: a significand other than zero
is out of range above and vanishes below. -/
def applyExponent? (significand : Nat) (scale : Int) : Option (Bool × List Nat) → Option Float
  | none => scale? significand scale
  | some (down, digits) =>
    match exponentValue? 0 digits with
    | some e => scale? significand (clampExponent (if down then scale - e else scale + e))
    | none => if significand ≠ 0 ∧ !down then none else some 0

/-- The number without its sign as a binary number. -/
def magnitude? (l : NumberLiteral) : Option Float :=
  let (s, beyond) := significand 0 l.whole
  let (s, dropped) := significand s l.fraction
  applyExponent? s (beyond.length - (l.fraction.length - dropped.length : Nat)) l.exponent

/-- The digits are those of a whole number. -/
def isWhole (l : NumberLiteral) : Bool :=
  l.fraction.isEmpty && l.exponent.isNone

/-- What the spelling denotes, unless it is out of range. -/
def numeric? (l : NumberLiteral) : Option Numeric :=
  let (s, beyond) := significand 0 l.whole
  if l.isWhole ∧ beyond.isEmpty then
    if !l.negative then some (.whole s)
    else if 0 < s ∧ s ≤ 1 <<< 63 then some (.negative s)
    else some (.float (-(UInt64.ofNat s).toFloat))
  else l.magnitude?.map fun x => .float (if l.negative then -x else x)

/-- A whole number up to a limit. -/
def natural? (limit : Nat) (l : NumberLiteral) : Option Nat :=
  match l.numeric? with
  | some (.whole n) => if n ≤ limit then some n else none
  | _ => none

/-- The nearest binary number of 32 bits. -/
def single? (l : NumberLiteral) : Option Single :=
  l.numeric?.map fun
    | .whole n => .ofWhole false n
    | .negative n => .ofWhole true n
    | .float x => .ofFloat x

end NumberLiteral

end Baseband.Json
