/-!
# UTF-8

Reading a sequence of bytes as text, strictly: no overlong form, no surrogate, nothing past the last
code point. A refusal tells where the well-formed part ends and how many bytes of a character were
well-formed after it.
-/

namespace Baseband.Text.Utf8

/-- Why a sequence of bytes is not UTF-8. `start` is the length of its longest well-formed part. -/
inductive Flaw
  | invalid (length start : Nat)
  | incomplete (start : Nat)
deriving DecidableEq

def Flaw.text : Flaw → String
  | .invalid length start => s!"invalid utf-8 sequence of {length} bytes from index {start}"
  | .incomplete start => s!"incomplete utf-8 byte sequence from index {start}"

/-- What the first byte of a character asks of the bytes after it: how many there are, the range
that the first of them must lie in, and the bits that the first byte contributes. -/
structure Lead where
  following : Nat
  low : UInt8
  high : UInt8
  bits : Nat

/-- The demand of a first byte, if a character can start with it. -/
def lead? (b : UInt8) : Option Lead :=
  let n := b.toNat
  if n < 0x80 then some ⟨0, 0x80, 0xbf, n⟩
  else if n < 0xc2 then none
  else if n < 0xe0 then some ⟨1, 0x80, 0xbf, n - 0xc0⟩
  else if n = 0xe0 then some ⟨2, 0xa0, 0xbf, 0⟩
  else if n = 0xed then some ⟨2, 0x80, 0x9f, 0xd⟩
  else if n < 0xf0 then some ⟨2, 0x80, 0xbf, n - 0xe0⟩
  else if n = 0xf0 then some ⟨3, 0x90, 0xbf, 0⟩
  else if n < 0xf4 then some ⟨3, 0x80, 0xbf, n - 0xf0⟩
  else if n = 0xf4 then some ⟨3, 0x80, 0x8f, 4⟩
  else none

def isContinuation (b : UInt8) : Bool :=
  0x80 ≤ b && b ≤ 0xbf

/-- A character under way: its first byte stood at `start`, `seen` of its bytes are read, `left` are
missing, and the next one must lie between `low` and `high`. -/
structure Underway where
  start : Nat
  seen : Nat
  left : Nat
  low : UInt8
  high : UInt8
  bits : Nat

/-- Read bytes as characters. `position` counts the bytes before these; `open?` is the character
under way. -/
def decodeFrom (position : Nat) : Option Underway → List UInt8 → Except Flaw (List Char)
  | none, [] => .ok []
  | some p, [] => .error (.incomplete p.start)
  | none, b :: bs =>
    match lead? b with
    | none => .error (.invalid 1 position)
    | some ⟨0, _, _, bits⟩ => do
      return Char.ofNat bits :: (← decodeFrom (position + 1) none bs)
    | some ⟨left, low, high, bits⟩ =>
      decodeFrom (position + 1) (some ⟨position, 1, left, low, high, bits⟩) bs
  | some p, b :: bs =>
    if p.low ≤ b ∧ b ≤ p.high then
      let bits := p.bits * 64 + (b.toNat - 0x80)
      if p.left ≤ 1 then do
        return Char.ofNat bits :: (← decodeFrom (position + 1) none bs)
      else
        decodeFrom (position + 1) (some ⟨p.start, p.seen + 1, p.left - 1, 0x80, 0xbf, bits⟩) bs
    else .error (.invalid p.seen p.start)

def decode (bytes : List UInt8) : Except Flaw (List Char) :=
  decodeFrom 0 none bytes

def encode (cs : List Char) : List UInt8 :=
  cs.flatMap String.utf8EncodeChar

end Baseband.Text.Utf8
