/-!
# Binary numbers

A binary format holds significands of a fixed width times a power of two, down to a smallest
positive number. Numbers of 32 bits are given by their bits, with their conversions to and from 64
bits and their shortest decimals.
-/

namespace Baseband

namespace Binary

/-! ## Rounding to a format

A number `m * 2 ^ e` is rounded to the nearest number of a format, a tie to the one with the even
significand. -/

/-- The nearest whole number to a quotient, a tie to the even one. -/
def roundQuotient (num den : Nat) : Nat :=
  let q := num / den
  let r := num % den
  if den < 2 * r ∨ (2 * r = den ∧ q % 2 = 1) then q + 1 else q

/-- The nearest whole number to `m * 2 ^ e`, a tie to the even one. -/
def roundScaled (m : Nat) (e : Int) : Nat :=
  if 0 ≤ e then m <<< e.toNat else roundQuotient m (1 <<< (-e).toNat)

structure Format where
  /-- The width of a significand in bits. -/
  precision : Nat
  /-- The smallest positive number is `2 ^ (-depth)`. -/
  depth : Nat
  infinity : Nat

def single : Format := ⟨24, 149, 0x7f800000⟩

def double : Format := ⟨53, 1074, 0x7ff0000000000000⟩

/-- The bits of the number nearest to `m * 2 ^ e`. The exponent field counts how far the unit of the
significand lies above the smallest positive number, and a significand that rounds up to the next
power of two carries into it. -/
def Format.nearest (f : Format) (m : Nat) (e : Int) : Nat :=
  if m = 0 then 0
  else
    let unit : Int := max (e + Nat.log2 m + 1 - f.precision) (-f.depth)
    let bits := (unit + f.depth).toNat <<< (f.precision - 1) + roundScaled m (e - unit)
    min bits f.infinity

/-- The significand and the exponent of a finite number without its sign. -/
def Format.parts (f : Format) (bits : Nat) : Nat × Int :=
  let field := bits >>> (f.precision - 1)
  let fraction := bits % 1 <<< (f.precision - 1)
  if field = 0 then (fraction, -f.depth)
  else (fraction + 1 <<< (f.precision - 1), field - 1 - f.depth)

end Binary

/-! ## Numbers with 32 bits -/

/-- A binary floating-point number of 32 bits. -/
structure Single where
  bits : UInt32
deriving DecidableEq, Inhabited

namespace Single

open Binary

def magnitude (x : Single) : Nat :=
  x.bits.toNat % 1 <<< 31

def isNegative (x : Single) : Bool :=
  1 <<< 31 ≤ x.bits.toNat

def isFinite (x : Single) : Bool :=
  x.magnitude < single.infinity

/-- The number with the given sign and magnitude. -/
def ofMagnitude (negative : Bool) (magnitude : Nat) : Single :=
  ⟨.ofNat (if negative then 1 <<< 31 + magnitude else magnitude)⟩

/-- The nearest number to a whole number. -/
def ofWhole (negative : Bool) (n : Nat) : Single :=
  ofMagnitude negative (single.nearest n 0)

/-- The same number with 64 bits. -/
def widen (x : Single) : Float :=
  let magnitude :=
    if x.isFinite then
      let (m, e) := single.parts x.magnitude
      double.nearest m e
    else if x.magnitude = single.infinity then double.infinity
    else double.infinity + 1 <<< 51
  Float.ofBits (.ofNat (if x.isNegative then 1 <<< 63 + magnitude else magnitude))

/-- The nearest number to one of 64 bits; one that is too large becomes infinite. -/
def ofFloat (x : Float) : Single :=
  let bits := x.toBits.toNat
  let magnitude := bits % 1 <<< 63
  let rounded :=
    if magnitude < double.infinity then
      let (m, e) := double.parts magnitude
      single.nearest m e
    else if magnitude = double.infinity then single.infinity
    else single.infinity + 1 <<< 22
  ofMagnitude (1 <<< 63 ≤ bits) rounded

end Single

namespace Decimal

/-! ## The shortest decimal

The reals that round to a binary number form an interval around it, whose ends belong to it if the
significand is even. Among the decimals in the interval the one with the fewest digits is chosen, of
two the nearer one, and of two equally near ones the one whose last digit is even. -/

open Binary

structure Ratio where
  num : Nat
  den : Nat

namespace Ratio

def scaled (m b : Nat) (e : Int) : Ratio :=
  if 0 ≤ e then ⟨m * b.pow e.toNat, 1⟩ else ⟨m, b.pow (-e).toNat⟩

def lt (x y : Ratio) : Bool :=
  x.num * y.den < y.num * x.den

def le (x y : Ratio) : Bool :=
  x.num * y.den ≤ y.num * x.den

def distance (x y : Ratio) : Ratio :=
  let a := x.num * y.den
  let b := y.num * x.den
  ⟨(a - b) + (b - a), x.den * y.den⟩

end Ratio

/-- The reals that round to a number. -/
structure Interval where
  low : Ratio
  high : Ratio
  closed : Bool

def Interval.holds (i : Interval) (x : Ratio) : Bool :=
  if i.closed then i.low.le x && x.le i.high else i.low.lt x && x.lt i.high

/-- The interval of `m * 2 ^ e`. Below a power of two the neighbour is nearer, except for the
smallest numbers. -/
def interval (f : Format) (m : Nat) (e : Int) : Interval where
  low :=
    if m = 1 <<< (f.precision - 1) ∧ -f.depth < e then .scaled (4 * m - 1) 2 (e - 2)
    else .scaled (2 * m - 1) 2 (e - 1)
  high := .scaled (2 * m + 1) 2 (e - 1)
  closed := m % 2 = 0

/-- The multiple of a power of ten that is chosen: one of the two neighbours of `x`. -/
def choose? (i : Interval) (x : Ratio) (unit : Int) : Option Nat :=
  let step := Ratio.scaled 1 10 unit
  let below := x.num * step.den / (x.den * step.num)
  let value (d : Nat) : Ratio := .scaled d 10 unit
  let hitBelow := below ≠ 0 ∧ i.holds (value below)
  let hitAbove := i.holds (value (below + 1))
  if hitBelow then
    if hitAbove then
      let d := x.distance (value below)
      let u := x.distance (value (below + 1))
      if d.lt u ∨ (!u.lt d ∧ below % 2 = 0) then some below else some (below + 1)
    else some below
  else if hitAbove then some (below + 1)
  else none

/-- Try units from `unit` downwards, `tries` of them. -/
def search (i : Interval) (x : Ratio) (unit : Int) : Nat → Nat × Int
  | 0 => (0, 0)
  | tries + 1 =>
    match choose? i x unit with
    | some digits => (digits, unit)
    | none => search i x (unit - 1) tries

/-- The digits of `m * 2 ^ e`, other than zero, and the power of ten of their unit. -/
def shortest (f : Format) (m : Nat) (e : Int) : Nat × Int :=
  let top := f.precision + f.depth
  search (interval f m e) (.scaled m 2 e) top (2 * top)

end Decimal

end Baseband
