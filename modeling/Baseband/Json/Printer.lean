import Baseband.Json.Value
import Baseband.Binary

/-!
# Writing JSON

The compact written form of a value. A binary number is written with its shortest digits and at
least one of them after the point; very large and very small ones get an exponent with its sign.
-/

namespace Baseband.Json

def digitsOf (n : Nat) : List Nat :=
  (Nat.toDigits 10 n).map fun c => c.toNat - 48

namespace NumberLiteral

/-- The spelling of a whole number. -/
def ofNat (n : Nat) : NumberLiteral :=
  ⟨false, digitsOf n, [], none⟩

/-- The spelling of digits whose last one counts `10 ^ unit`. Numbers from a millionth up to
thirteen whole digits have no exponent. -/
def ofDigits (negative : Bool) (digits : List Nat) (unit : Int) : NumberLiteral :=
  let point := digits.length + unit
  if 0 ≤ unit ∧ point ≤ 13 then
    ⟨negative, digits ++ List.replicate unit.toNat 0, [0], none⟩
  else if 0 < point ∧ point ≤ 13 then
    ⟨negative, digits.take point.toNat, digits.drop point.toNat, none⟩
  else if -6 < point ∧ point ≤ 0 then
    ⟨negative, [0], List.replicate (-point).toNat 0 ++ digits, none⟩
  else
    let exponent := point - 1
    ⟨negative, digits.take 1, digits.drop 1, some (exponent < 0, digitsOf exponent.natAbs)⟩

/-- The spelling of a finite binary number. -/
def ofSingle (x : Single) : NumberLiteral :=
  let (m, e) := Binary.single.parts x.magnitude
  if m = 0 then ⟨x.isNegative, [0], [0], none⟩
  else
    let (digits, unit) := Decimal.shortest Binary.single m e
    ofDigits x.isNegative (digitsOf digits) unit

def render (l : NumberLiteral) : List Char :=
  let sign := if l.negative then ['-'] else []
  let fraction := if l.fraction.isEmpty then [] else '.' :: l.fraction.map Nat.digitChar
  let exponent := match l.exponent with
    | none => []
    | some (down, digits) => 'e' :: (if down then '-' else '+') :: digits.map Nat.digitChar
  sign ++ l.whole.map Nat.digitChar ++ fraction ++ exponent

end NumberLiteral

/-- How a character is written inside a string. -/
def escape (c : Char) : List Char :=
  match c with
  | '"' => ['\\', '"']
  | '\\' => ['\\', '\\']
  | '\x08' => ['\\', 'b']
  | '\t' => ['\\', 't']
  | '\n' => ['\\', 'n']
  | '\x0c' => ['\\', 'f']
  | '\r' => ['\\', 'r']
  | c =>
    if c < ' ' then
      ['\\', 'u', '0', '0', Nat.digitChar (c.toNat / 16), Nat.digitChar (c.toNat % 16)]
    else [c]

/-- The characters of a string. One that denotes no text is written as half a surrogate pair. -/
def renderString : Option String → List Char
  | some s => '"' :: s.toList.flatMap escape ++ ['"']
  | none => ['"', '\\', 'u', 'd', '8', '0', '0', '"']

mutual

def render : Json → List Char
  | .null => ['n', 'u', 'l', 'l']
  | .bool true => ['t', 'r', 'u', 'e']
  | .bool false => ['f', 'a', 'l', 's', 'e']
  | .number literal => literal.render
  | .string text => renderString text
  | .array [] => ['[', ']']
  | .array (first :: rest) => '[' :: render first ++ renderElements rest
  | .object [] => ['\x7b', '\x7d']
  | .object ((key, value) :: rest) =>
    '\x7b' :: renderString key ++ ':' :: render value ++ renderMembers rest

/-- The elements after the first, and the end of the array. -/
def renderElements : List Json → List Char
  | [] => [']']
  | value :: rest => ',' :: render value ++ renderElements rest

/-- The members after the first, and the end of the object. -/
def renderMembers : List (Option String × Json) → List Char
  | [] => ['\x7d']
  | (key, value) :: rest => ',' :: renderString key ++ ':' :: render value ++ renderMembers rest

end

def text (value : Json) : String :=
  String.ofList (render value)

end Baseband.Json
