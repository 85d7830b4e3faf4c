/-!
# JSON tokens

The lexical part of strict JSON. A number keeps its digits, so that each reader can take what it
needs of them. A string that escapes half a surrogate pair alone is well-formed but denotes no text.
-/

namespace Baseband.Json

/-- The spelling of a number: sign, whole digits, digits after the point, and the exponent with its
sign. -/
structure NumberLiteral where
  negative : Bool
  whole : List Nat
  fraction : List Nat
  exponent : Option (Bool × List Nat)
deriving DecidableEq

inductive Token
  | openArray
  | closeArray
  | openObject
  | closeObject
  | comma
  | colon
  | null
  | bool (value : Bool)
  | number (literal : NumberLiteral)
  | string (text : Option String)
deriving DecidableEq

namespace Token

def isBlank (c : Char) : Bool :=
  c == ' ' || c == '\t' || c == '\n' || c == '\r'

/-- A part of a string: a character, or a sixteen-bit unit given by its number. -/
inductive Piece
  | char (c : Char)
  | unit (n : Nat)

def hexDigit? (c : Char) : Option Nat :=
  if '0' ≤ c ∧ c ≤ '9' then some (c.toNat - 48)
  else if 'a' ≤ c ∧ c ≤ 'f' then some (c.toNat - 87)
  else if 'A' ≤ c ∧ c ≤ 'F' then some (c.toNat - 55)
  else none

/-- The value of four hexadecimal digits. -/
def unit? (a b c d : Char) : Option Nat := do
  return 4096 * (← hexDigit? a) + 256 * (← hexDigit? b) + 16 * (← hexDigit? c) + (← hexDigit? d)

/-- The character that a one-letter escape stands for. -/
def unescape? : Char → Option Char
  | '"' => some '"'
  | '\\' => some '\\'
  | '/' => some '/'
  | 'b' => some '\x08'
  | 'f' => some '\x0c'
  | 'n' => some '\n'
  | 'r' => some '\r'
  | 't' => some '\t'
  | _ => none

/-- Read a string up to its closing quote. -/
def pieces? : List Char → Option (List Piece × List Char)
  | [] => none
  | '"' :: rest => some ([], rest)
  | '\\' :: 'u' :: a :: b :: c :: d :: rest => do
    let unit ← unit? a b c d
    let (pieces, rest) ← pieces? rest
    return (.unit unit :: pieces, rest)
  | '\\' :: letter :: rest => do
    let char ← unescape? letter
    let (pieces, rest) ← pieces? rest
    return (.char char :: pieces, rest)
  | c :: rest =>
    if c < ' ' ∨ c = '\\' then none
    else do
      let (pieces, rest) ← pieces? rest
      return (.char c :: pieces, rest)

/-- Join the pieces of a string, two units of a surrogate pair to one character. -/
def join? : List Piece → Option (List Char)
  | [] => some []
  | .char c :: pieces => (join? pieces).map (c :: ·)
  | .unit high :: .unit low :: pieces =>
    if 0xd800 ≤ high ∧ high < 0xdc00 then
      if 0xdc00 ≤ low ∧ low < 0xe000 then
        let code := 0x10000 + (high - 0xd800) * 0x400 + (low - 0xdc00)
        (join? pieces).map (Char.ofNat code :: ·)
      else none
    else if 0xdc00 ≤ high ∧ high < 0xe000 then none
    else (join? (.unit low :: pieces)).map (Char.ofNat high :: ·)
  | .unit n :: pieces =>
    if 0xd800 ≤ n ∧ n < 0xe000 then none
    else (join? pieces).map (Char.ofNat n :: ·)

/-- Split off the decimal digits in front. -/
def spanDigits : List Char → List Nat × List Char
  | [] => ([], [])
  | c :: cs =>
    if '0' ≤ c ∧ c ≤ '9' then
      let (digits, rest) := spanDigits cs
      ((c.toNat - 48) :: digits, rest)
    else ([], c :: cs)

/-- Read the digits before the point; a zero in front stands alone. -/
def whole? (s : List Char) : Option (List Nat × List Char) :=
  match spanDigits s with
  | ([], _) => none
  | (0 :: _ :: _, _) => none
  | found => some found

/-- Read a point and the digits after it, if there is a point. -/
def fraction? : List Char → Option (List Nat × List Char)
  | '.' :: cs =>
    match spanDigits cs with
    | ([], _) => none
    | found => some found
  | cs => some ([], cs)

/-- Read the digits of an exponent. -/
def exponentDigits? (negative : Bool) (s : List Char) :
    Option (Option (Bool × List Nat) × List Char) :=
  match spanDigits s with
  | ([], _) => none
  | (digits, rest) => some (some (negative, digits), rest)

/-- Read an exponent after its letter. -/
def exponentSigned? : List Char → Option (Option (Bool × List Nat) × List Char)
  | '+' :: cs => exponentDigits? false cs
  | '-' :: cs => exponentDigits? true cs
  | cs => exponentDigits? false cs

/-- Read an exponent, if there is one. -/
def exponent? : List Char → Option (Option (Bool × List Nat) × List Char)
  | 'e' :: cs => exponentSigned? cs
  | 'E' :: cs => exponentSigned? cs
  | cs => some (none, cs)

/-- Read a number after its sign. -/
def number? (negative : Bool) (s : List Char) : Option (NumberLiteral × List Char) := do
  let (whole, rest) ← whole? s
  let (fraction, rest) ← fraction? rest
  let (exponent, rest) ← exponent? rest
  return (⟨negative, whole, fraction, exponent⟩, rest)

/-- Read the first token of a text that does not start with white space. -/
def first? : List Char → Option (Token × List Char)
  | '[' :: cs => some (openArray, cs)
  | ']' :: cs => some (closeArray, cs)
  | '\x7b' :: cs => some (openObject, cs)
  | '\x7d' :: cs => some (closeObject, cs)
  | ',' :: cs => some (comma, cs)
  | ':' :: cs => some (colon, cs)
  | 'n' :: 'u' :: 'l' :: 'l' :: cs => some (null, cs)
  | 't' :: 'r' :: 'u' :: 'e' :: cs => some (bool true, cs)
  | 'f' :: 'a' :: 'l' :: 's' :: 'e' :: cs => some (bool false, cs)
  | '"' :: cs => (pieces? cs).map fun (pieces, rest) =>
    (string ((join? pieces).map String.ofList), rest)
  | '-' :: cs => (number? true cs).map fun (literal, rest) => (number literal, rest)
  | cs => (number? false cs).map fun (literal, rest) => (number literal, rest)

theorem pieces?_length {s rest : List Char} {pieces : List Piece}
    (h : pieces? s = some (pieces, rest)) : rest.length < s.length := by
  fun_induction pieces? s generalizing pieces rest with
  | case1 => simp at h
  | case2 => simp_all
  | case3 a b c d tail ih =>
    simp only [Option.bind_eq_bind, Option.bind_eq_some_iff, Option.pure_def] at h
    obtain ⟨unit, -, ⟨found, left⟩, hfound, h⟩ := h
    have := ih hfound
    obtain ⟨-, rfl⟩ := Prod.mk.inj (Option.some.inj h)
    simp only [List.length_cons]
    omega
  | case4 letter tail _ ih =>
    simp only [Option.bind_eq_bind, Option.bind_eq_some_iff, Option.pure_def] at h
    obtain ⟨char, -, ⟨found, left⟩, hfound, h⟩ := h
    have := ih hfound
    obtain ⟨-, rfl⟩ := Prod.mk.inj (Option.some.inj h)
    simp only [List.length_cons]
    omega
  | case5 => simp at h
  | case6 c tail _ _ _ _ ih =>
    simp only [Option.bind_eq_bind, Option.bind_eq_some_iff, Option.pure_def] at h
    obtain ⟨⟨found, left⟩, hfound, h⟩ := h
    have := ih hfound
    obtain ⟨-, rfl⟩ := Prod.mk.inj (Option.some.inj h)
    simp only [List.length_cons]
    omega

theorem spanDigits_length (s : List Char) :
    (spanDigits s).1.length + (spanDigits s).2.length = s.length := by
  induction s with
  | nil => rfl
  | cons c cs ih =>
    unfold spanDigits
    split
    · simp only [List.length_cons]
      omega
    · simp

theorem whole?_length {s rest : List Char} {digits : List Nat}
    (h : whole? s = some (digits, rest)) : rest.length < s.length := by
  have hlen := spanDigits_length s
  unfold whole? at h
  split at h
  · simp at h
  · simp at h
  · rename_i hne _
    simp only [Option.some.injEq] at h
    rw [h] at hlen
    cases digits with
    | nil => exact absurd h (hne rest)
    | cons d ds =>
      simp only [List.length_cons] at hlen
      omega

theorem fraction?_length {s rest : List Char} {digits : List Nat}
    (h : fraction? s = some (digits, rest)) : rest.length ≤ s.length := by
  unfold fraction? at h
  split at h
  · rename_i cs
    have hlen := spanDigits_length cs
    split at h
    · simp at h
    · rw [Option.some.inj h] at hlen
      simp only [List.length_cons] at hlen ⊢
      omega
  · simp_all

theorem exponentDigits?_length {negative : Bool} {s rest : List Char}
    {exponent : Option (Bool × List Nat)}
    (h : exponentDigits? negative s = some (exponent, rest)) : rest.length ≤ s.length := by
  have hlen := spanDigits_length s
  unfold exponentDigits? at h
  split at h
  · simp at h
  · rename_i heq
    simp only [Option.some.injEq, Prod.mk.injEq] at h
    rw [heq] at hlen
    obtain ⟨-, rfl⟩ := h
    simp only at hlen
    omega

theorem exponent?_length {s rest : List Char} {exponent : Option (Bool × List Nat)}
    (h : exponent? s = some (exponent, rest)) : rest.length ≤ s.length := by
  have signed : ∀ cs : List Char, exponentSigned? cs = some (exponent, rest) →
      rest.length ≤ cs.length := by
    intro cs hs
    unfold exponentSigned? at hs
    split at hs
    · exact Nat.le_succ_of_le (exponentDigits?_length hs)
    · exact Nat.le_succ_of_le (exponentDigits?_length hs)
    · exact exponentDigits?_length hs
  unfold exponent? at h
  split at h
  · exact Nat.le_succ_of_le (signed _ h)
  · exact Nat.le_succ_of_le (signed _ h)
  · simp_all

theorem number?_length {negative : Bool} {s rest : List Char} {literal : NumberLiteral}
    (h : number? negative s = some (literal, rest)) : rest.length < s.length := by
  simp only [number?, Option.bind_eq_bind, Option.bind_eq_some_iff, Option.pure_def] at h
  obtain ⟨⟨whole, r₁⟩, hwhole, ⟨fraction, r₂⟩, hfraction, ⟨exponent, r₃⟩, hexponent, h⟩ := h
  obtain ⟨-, rfl⟩ := Prod.mk.inj (Option.some.inj h)
  have h₁ := whole?_length hwhole
  have h₂ := fraction?_length hfraction
  have h₃ := exponent?_length hexponent
  simp only at h₁ h₂ h₃ ⊢
  omega

theorem first?_length {s rest : List Char} {token : Token} (h : first? s = some (token, rest)) :
    rest.length < s.length := by
  unfold first? at h
  split at h
  case h_10 cs =>
    simp only [Option.map_eq_some_iff, Prod.exists] at h
    obtain ⟨pieces, left, hpieces, h⟩ := h
    have := pieces?_length hpieces
    obtain ⟨-, rfl⟩ := Prod.mk.inj h
    simp only [List.length_cons]
    omega
  case h_11 cs =>
    simp only [Option.map_eq_some_iff, Prod.exists] at h
    obtain ⟨literal, left, hnumber, h⟩ := h
    have := number?_length hnumber
    obtain ⟨-, rfl⟩ := Prod.mk.inj h
    simp only [List.length_cons]
    omega
  case h_12 cs _ _ _ _ _ _ _ _ _ _ _ =>
    simp only [Option.map_eq_some_iff, Prod.exists] at h
    obtain ⟨literal, left, hnumber, h⟩ := h
    have := number?_length hnumber
    obtain ⟨-, rfl⟩ := Prod.mk.inj h
    omega
  all_goals
    obtain ⟨-, rfl⟩ := Prod.mk.inj (Option.some.inj h)
    simp only [List.length_cons]
    omega

/-- Split a text into tokens. -/
def split? (s : List Char) : Option (List Token) :=
  match _hs : s.dropWhile isBlank with
  | [] => some []
  | c :: cs =>
    match _hfirst : first? (c :: cs) with
    | none => none
    | some (token, rest) => (split? rest).map (token :: ·)
termination_by s.length
decreasing_by
  have hrest := first?_length _hfirst
  have hdrop := (List.dropWhile_sublist (p := isBlank) (l := s)).length_le
  rw [_hs] at hdrop
  omega

end Token

end Baseband.Json
