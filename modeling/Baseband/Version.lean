/-!
# Interface versions

A service speaks one version of its interface, written `major.minor`. Versions are ordered by major,
then minor number, which is the order of their rank. A written version may stand between white
space, and its numbers may have a plus sign and leading zeros.
-/

namespace Baseband

namespace Text

/-! ## White space -/

/-- The character has the Unicode property `White_Space`. -/
def isBlank (c : Char) : Bool :=
  let n := c.toNat
  (0x9 ≤ n && n ≤ 0xd) || n == 0x20 || n == 0x85 || n == 0xa0 || n == 0x1680 ||
    (0x2000 ≤ n && n ≤ 0x200a) || n == 0x2028 || n == 0x2029 || n == 0x202f || n == 0x205f ||
    n == 0x3000

def trim (s : List Char) : List Char :=
  ((s.dropWhile isBlank).reverse.dropWhile isBlank).reverse

/-! ## Unsigned decimal numerals

A numeral is an optional plus sign and one or more ASCII digits, leading zeros included. It is read
against the largest value that its place admits. -/

/-- The value of an ASCII digit. -/
def digit? (c : Char) : Option Nat :=
  if '0' ≤ c ∧ c ≤ '9' then some (c.toNat - 48) else none

/-- Read the remaining digits of a numeral whose digits so far have the value `acc`. -/
def digitsFrom? (acc : Nat) : List Char → Option Nat
  | [] => some acc
  | c :: cs => (digit? c).bind fun d => digitsFrom? (10 * acc + d) cs

/-- The value of a text that consists of one or more digits. -/
def digits? : List Char → Option Nat
  | [] => none
  | cs => digitsFrom? 0 cs

/-- Drop one plus sign at the start. -/
def dropPlus : List Char → List Char
  | '+' :: cs => cs
  | cs => cs

/-- Read a numeral whose value is at most `limit`. -/
def numeral? (limit : Nat) (s : List Char) : Option Nat :=
  (digits? (dropPlus s)).filter (· ≤ limit)

/-- The decimal digits of a number, without leading zeros. -/
def decimal (n : Nat) : List Char :=
  Nat.toDigits 10 n

end Text

/-! ## Versions -/

structure Version where
  major : UInt16
  minor : UInt16
deriving DecidableEq, Inhabited

namespace Version

/-- The place of a version among all versions. -/
def rank (v : Version) : Nat :=
  v.major.toNat * 0x10000 + v.minor.toNat

instance : LE Version := ⟨fun v w => v.rank ≤ w.rank⟩

instance : LT Version := ⟨fun v w => v.rank < w.rank⟩

instance : DecidableLE Version := fun v w => inferInstanceAs (Decidable (v.rank ≤ w.rank))

instance : DecidableLT Version := fun v w => inferInstanceAs (Decidable (v.rank < w.rank))

theorem rank_injective {v w : Version} (h : v.rank = w.rank) : v = w := by
  have hv := v.minor.toNat_lt
  have hw := w.minor.toNat_lt
  have hmajor : v.major.toNat = w.major.toNat := by simp only [rank] at h; omega
  have hminor : v.minor.toNat = w.minor.toNat := by simp only [rank] at h; omega
  cases v
  cases w
  simp_all [UInt16.toNat_inj]

def sortAscending (versions : List Version) : List Version :=
  versions.mergeSort fun v w => decide (v ≤ w)

/-- Newest first, each version once. -/
def newestFirst (versions : List Version) : List Version :=
  (versions.mergeSort fun v w => decide (w ≤ v)).eraseReps

/-- The written form, `major.minor`. -/
def text (v : Version) : String :=
  String.ofList (Text.decimal v.major.toNat ++ '.' :: Text.decimal v.minor.toNat)

/-- The largest value of either number. -/
def limit : Nat :=
  0xffff

/-- Split a text at its first dot. -/
def splitDot? : List Char → Option (List Char × List Char)
  | [] => none
  | '.' :: cs => some ([], cs)
  | c :: cs => (splitDot? cs).map fun (before, after) => (c :: before, after)

/-- Read a version: two numerals around the first dot, with white space allowed at both ends. -/
def parse? (s : String) : Option Version := do
  let (major, minor) ← splitDot? (Text.trim s.toList)
  let major ← Text.numeral? limit major
  let minor ← Text.numeral? limit minor
  return ⟨.ofNat major, .ofNat minor⟩

end Version

end Baseband
