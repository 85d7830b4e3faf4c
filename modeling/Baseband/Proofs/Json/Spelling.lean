import Mathlib.Data.List.Chain
import Mathlib.Tactic.IntervalCases
import Baseband.Json.Token

/-!
# The spelling of tokens

Which texts spell a list of tokens, stated without a reader. A token may be spelled in many ways:
white space before it, the letter and the sign of an exponent, and the escapes of a string are free.
A text that can be split spells the tokens it is split into, and every text that spells tokens is
split into them if their numbers are followed by something that ends a value.

## Main definitions

* `Token.Spelled`: the characters of one token.
* `Spelling`: the characters of a list of tokens with white space around them.

## Main statements

* `split?_spelling`: what is read from a text is spelled by it.
* `Spelling.split?_eq`: what a text spells is read from it.
-/

namespace Baseband.Json

open Token (isBlank spanDigits)

variable {s word rest : List Char} {digits : List Nat}

/-! ## Digits -/

def IsDigit (c : Char) : Prop :=
  '0' ≤ c ∧ c ≤ '9'

instance (c : Char) : Decidable (IsDigit c) :=
  inferInstanceAs (Decidable (_ ∧ _))

structure Digits (digits : List Nat) (word : List Char) : Prop where
  ne_nil : digits ≠ []
  small : ∀ d ∈ digits, d < 10
  word_eq : word = digits.map Nat.digitChar

theorem isDigit_digitChar {d : Nat} (small : d < 10) : IsDigit d.digitChar := by
  interval_cases d <;> decide

theorem digitChar_sub {d : Nat} (small : d < 10) : d.digitChar.toNat - 48 = d := by
  interval_cases d <;> rfl

/-- A digit is the character of a number below ten. -/
theorem IsDigit.exists_digitChar {c : Char} (digit : IsDigit c) : ∃ d < 10, c = d.digitChar := by
  have low : 48 ≤ c.toNat := digit.1
  have high : c.toNat ≤ 57 := digit.2
  obtain ⟨d, hd⟩ := Nat.exists_eq_add_of_le low
  refine ⟨d, by omega, ?_⟩
  have small : d < 10 := by omega
  rw [← Char.ofNat_toNat c, hd]
  interval_cases d <;> rfl

theorem Digits.exists_cons (written : Digits digits word) :
    ∃ d < 10, ∃ cs, word = d.digitChar :: cs := by
  obtain ⟨ne, small, rfl⟩ := written
  obtain ⟨d, ds, rfl⟩ := List.exists_cons_of_ne_nil ne
  exact ⟨d, small d List.mem_cons_self, _, rfl⟩

/-- The digits in front are read up to the first character that is none. -/
theorem spanDigits_append (small : ∀ d ∈ digits, d < 10) (ends : ∀ c ∈ rest.head?, ¬ IsDigit c) :
    spanDigits (digits.map Nat.digitChar ++ rest) = (digits, rest) := by
  induction digits with
  | nil =>
    cases rest with
    | nil => rfl
    | cons c cs => exact if_neg (ends c rfl)
  | cons d ds ih =>
    rw [List.forall_mem_cons] at small
    have digit : '0' ≤ d.digitChar ∧ d.digitChar ≤ '9' := isDigit_digitChar small.1
    rw [List.map_cons, List.cons_append, spanDigits, if_pos digit, ih small.2,
      digitChar_sub small.1]

/-- The digits in front of a text are taken off it exactly. -/
theorem spanDigits_spelled (s : List Char) :
    (∀ d ∈ (spanDigits s).1, d < 10) ∧
      s = (spanDigits s).1.map Nat.digitChar ++ (spanDigits s).2 := by
  induction s with
  | nil => simp [spanDigits]
  | cons c cs ih =>
    unfold spanDigits
    split
    case isTrue digit =>
      obtain ⟨d, small, rfl⟩ := IsDigit.exists_digitChar digit
      simp only [digitChar_sub small, List.forall_mem_cons, List.map_cons, List.cons_append]
      exact ⟨⟨small, ih.1⟩, congrArg _ ih.2⟩
    case isFalse => simp

/-- Digits in front, unless there are none. -/
theorem spanDigits_digits (h : spanDigits s = (digits, rest)) (ne : digits ≠ []) :
    ∃ word, Digits digits word ∧ s = word ++ rest := by
  obtain ⟨small, hs⟩ := spanDigits_spelled s
  rw [h] at small hs
  exact ⟨_, ⟨ne, small, rfl⟩, hs⟩

/-! ## Numbers -/

namespace NumberLiteral

inductive Fraction : List Nat → List Char → Prop
  | absent : Fraction [] []
  | present {digits : List Nat} {word : List Char} (written : Digits digits word) :
      Fraction digits ('.' :: word)

inductive ExponentSign : Bool → List Char → Prop
  | absent : ExponentSign false []
  | plus : ExponentSign false ['+']
  | minus : ExponentSign true ['-']

inductive Exponent : Option (Bool × List Nat) → List Char → Prop
  | absent : Exponent none []
  | present {letter : Char} {down : Bool} {digits : List Nat} {sign word : List Char}
      (capital : letter = 'e' ∨ letter = 'E') (signed : ExponentSign down sign)
      (written : Digits digits word) :
      Exponent (some (down, digits)) (letter :: sign ++ word)

/-- The characters of a number. A zero in front of its whole digits stands alone. -/
inductive Spelled : NumberLiteral → List Char → Prop
  | intro {negative : Bool} {whole fraction : List Nat} {exponent : Option (Bool × List Nat)}
      {front after back : List Char}
      (written : Digits whole front) (leading : ∀ d ds, whole ≠ 0 :: d :: ds)
      (fractional : Fraction fraction after) (scaled : Exponent exponent back) :
      Spelled ⟨negative, whole, fraction, exponent⟩
        ((if negative then ['-'] else []) ++ (front ++ (after ++ back)))

end NumberLiteral

open NumberLiteral (Fraction Exponent ExponentSign)

/-- No number that ends here could go on. -/
def Bounded (s : List Char) : Prop :=
  ∀ c ∈ s.head?, ¬ IsDigit c ∧ c ≠ '.' ∧ c ≠ 'e' ∧ c ≠ 'E'

variable {whole fraction : List Nat} {exponent : Option (Bool × List Nat)}
  {literal : NumberLiteral} {negative : Bool}

theorem NumberLiteral.Fraction.head {c : Char} (fractional : Fraction fraction word)
    (h : c ∈ word.head?) : c = '.' := by
  cases fractional <;> simp_all [eq_comm]

theorem NumberLiteral.Exponent.head {c : Char} (scaled : Exponent exponent word)
    (h : c ∈ word.head?) : c = 'e' ∨ c = 'E' := by
  cases scaled <;> simp_all [eq_comm]

theorem head_append {c : Char} (h : c ∈ (word ++ rest).head?) :
    c ∈ word.head? ∨ c ∈ rest.head? := by
  cases word with
  | nil => exact .inr h
  | cons => exact .inl h

/-- The whole digits of a number are read where no digit follows. -/
theorem whole?_append (written : Digits whole word) (leading : ∀ d ds, whole ≠ 0 :: d :: ds)
    (ends : ∀ c ∈ rest.head?, ¬ IsDigit c) : Token.whole? (word ++ rest) = some (whole, rest) := by
  obtain ⟨ne, small, rfl⟩ := written
  rw [Token.whole?, spanDigits_append small ends]
  split
  · simp_all
  · simp_all
  · rfl

/-- Only whole digits without a leading zero are read as such. -/
theorem whole?_spelled (h : Token.whole? s = some (whole, rest)) :
    (∃ word, Digits whole word ∧ s = word ++ rest) ∧ ∀ d ds, whole ≠ 0 :: d :: ds := by
  unfold Token.whole? at h
  split at h
  case h_1 => simp at h
  case h_2 => simp at h
  case h_3 none leading =>
    have h := Option.some.inj h
    refine ⟨spanDigits_digits h ?_, ?_⟩
    · rintro rfl
      exact none _ h
    · rintro d ds rfl
      exact leading _ _ _ h

/-- A fraction is read where neither a digit nor a point follows. -/
theorem fraction?_append (fractional : Fraction fraction word)
    (ends : ∀ c ∈ rest.head?, ¬ IsDigit c ∧ c ≠ '.') :
    Token.fraction? (word ++ rest) = some (fraction, rest) := by
  cases fractional with
  | absent =>
    cases rest with
    | nil => rfl
    | cons c cs =>
      unfold Token.fraction?
      split
      · simp_all
      · rfl
  | present written =>
    obtain ⟨ne, small, rfl⟩ := written
    rw [List.cons_append, Token.fraction?, spanDigits_append small fun c hc => (ends c hc).1]
    split
    · simp_all
    · rfl

theorem fraction?_spelled (h : Token.fraction? s = some (fraction, rest)) :
    ∃ word, Fraction fraction word ∧ s = word ++ rest := by
  unfold Token.fraction? at h
  split at h
  case h_1 cs =>
    split at h
    · simp at h
    · rename_i none
      have h := Option.some.inj h
      obtain ⟨word, written, rfl⟩ := spanDigits_digits h (by rintro rfl; exact none _ h)
      exact ⟨_, .present written, rfl⟩
  case h_2 =>
    obtain ⟨rfl, rfl⟩ := Prod.mk.inj (Option.some.inj h)
    exact ⟨_, .absent, rfl⟩

theorem exponentDigits?_append (written : Digits digits word)
    (ends : ∀ c ∈ rest.head?, ¬ IsDigit c) :
    Token.exponentDigits? negative (word ++ rest) = some (some (negative, digits), rest) := by
  obtain ⟨ne, small, rfl⟩ := written
  rw [Token.exponentDigits?, spanDigits_append small ends]
  split
  · simp_all
  · simp_all

theorem exponentDigits?_spelled (h : Token.exponentDigits? negative s = some (exponent, rest)) :
    ∃ digits word, exponent = some (negative, digits) ∧ Digits digits word ∧ s = word ++ rest := by
  unfold Token.exponentDigits? at h
  split at h
  case h_1 => simp at h
  case h_2 digits left none found =>
    obtain ⟨rfl, rfl⟩ := Prod.mk.inj (Option.some.inj h)
    obtain ⟨word, written, rfl⟩ := spanDigits_digits found none
    exact ⟨digits, word, rfl, written, rfl⟩

theorem exponentSigned?_append {down : Bool} {sign : List Char} (signed : ExponentSign down sign)
    (written : Digits digits word) (ends : ∀ c ∈ rest.head?, ¬ IsDigit c) :
    Token.exponentSigned? (sign ++ word ++ rest) = some (some (down, digits), rest) := by
  cases signed with
  | plus => exact exponentDigits?_append written ends
  | minus => exact exponentDigits?_append written ends
  | absent =>
    have read : Token.exponentDigits? false (word ++ rest) = some (some (false, digits), rest) :=
      exponentDigits?_append written ends
    obtain ⟨d, small, cs, rfl⟩ := written.exists_cons
    -- A digit is no sign.
    interval_cases d <;> exact read

theorem exponentSigned?_spelled (h : Token.exponentSigned? s = some (exponent, rest)) :
    ∃ down sign digits word, exponent = some (down, digits) ∧ ExponentSign down sign ∧
      Digits digits word ∧ s = sign ++ word ++ rest := by
  unfold Token.exponentSigned? at h
  split at h <;> obtain ⟨digits, word, rfl, written, rfl⟩ := exponentDigits?_spelled h
  · exact ⟨_, _, _, _, rfl, .plus, written, rfl⟩
  · exact ⟨_, _, _, _, rfl, .minus, written, rfl⟩
  · exact ⟨_, _, _, _, rfl, .absent, written, rfl⟩

/-- An exponent is read where nothing follows that could belong to it. -/
theorem exponent?_append (scaled : Exponent exponent word)
    (ends : ∀ c ∈ rest.head?, ¬ IsDigit c ∧ c ≠ 'e' ∧ c ≠ 'E') :
    Token.exponent? (word ++ rest) = some (exponent, rest) := by
  cases scaled with
  | absent =>
    cases rest with
    | nil => rfl
    | cons c cs =>
      unfold Token.exponent?
      split <;> simp_all
  | present capital signed written =>
    have read := exponentSigned?_append signed written fun c hc => (ends c hc).1
    obtain rfl | rfl := capital <;> exact read

theorem exponent?_spelled (h : Token.exponent? s = some (exponent, rest)) :
    ∃ word, Exponent exponent word ∧ s = word ++ rest := by
  unfold Token.exponent? at h
  split at h
  case h_1 =>
    obtain ⟨down, sign, digits, word, rfl, signed, written, rfl⟩ := exponentSigned?_spelled h
    exact ⟨_, .present (.inl rfl) signed written, rfl⟩
  case h_2 =>
    obtain ⟨down, sign, digits, word, rfl, signed, written, rfl⟩ := exponentSigned?_spelled h
    exact ⟨_, .present (.inr rfl) signed written, rfl⟩
  case h_3 =>
    obtain ⟨rfl, rfl⟩ := Prod.mk.inj (Option.some.inj h)
    exact ⟨_, .absent, rfl⟩

/-- The characters of a number after its sign are read in full. -/
theorem number?_append {after back : List Char} (written : Digits whole word)
    (leading : ∀ d ds, whole ≠ 0 :: d :: ds) (fractional : Fraction fraction after)
    (scaled : Exponent exponent back) (bounded : Bounded rest) :
    Token.number? negative (word ++ (after ++ back) ++ rest) =
      some (⟨negative, whole, fraction, exponent⟩, rest) := by
  have scale : ∀ c ∈ (back ++ rest).head?, ¬ IsDigit c ∧ c ≠ '.' := by
    intro c hc
    obtain hc | hc := head_append hc
    · obtain rfl | rfl := scaled.head hc <;> decide
    · exact ⟨(bounded c hc).1, (bounded c hc).2.1⟩
  have point : ∀ c ∈ (after ++ (back ++ rest)).head?, ¬ IsDigit c := by
    intro c hc
    obtain hc | hc := head_append hc
    · rw [fractional.head hc]
      decide
    · exact (scale c hc).1
  simp only [Token.number?, List.append_assoc, whole?_append written leading point,
    fraction?_append fractional scale, Option.bind_eq_bind, Option.bind_some, Option.pure_def,
    exponent?_append scaled fun c hc => ⟨(bounded c hc).1, (bounded c hc).2.2⟩]

/-- Only spellings of numbers are read as numbers. -/
theorem number?_spelled (h : Token.number? negative s = some (literal, rest)) :
    literal.negative = negative ∧
      ∃ word, literal.Spelled ((if negative then ['-'] else []) ++ word) ∧ s = word ++ rest := by
  simp only [Token.number?, Option.bind_eq_bind, Option.bind_eq_some_iff, Option.pure_def] at h
  obtain ⟨⟨whole, r₁⟩, hwhole, ⟨fraction, r₂⟩, hfraction, ⟨exponent, r₃⟩, hexponent, h⟩ := h
  obtain ⟨rfl, rfl⟩ := Prod.mk.inj (Option.some.inj h)
  obtain ⟨⟨front, written, rfl⟩, leading⟩ := whole?_spelled hwhole
  obtain ⟨after, fractional, rfl⟩ := fraction?_spelled hfraction
  obtain ⟨back, scaled, rfl⟩ := exponent?_spelled hexponent
  exact ⟨rfl, _, .intro written leading fractional scaled, by simp only [List.append_assoc]⟩

/-! ## Strings -/

namespace Token

inductive Piece.Spelled : Piece → List Char → Prop
  | plain {c : Char} (printable : ' ' ≤ c) (quote : c ≠ '"') (backslash : c ≠ '\\') :
      Spelled (.char c) [c]
  | letter {c letter : Char} (stands : unescape? letter = some c) :
      Spelled (.char c) ['\\', letter]
  | unit {a b c d : Char} {n : Nat} (value : unit? a b c d = some n) :
      Spelled (.unit n) ['\\', 'u', a, b, c, d]

inductive Pieces : List Piece → List Char → Prop
  | nil : Pieces [] []
  | cons {piece : Piece} {pieces : List Piece} {word rest : List Char}
      (spelled : piece.Spelled word) (others : Pieces pieces rest) :
      Pieces (piece :: pieces) (word ++ rest)

variable {piece : Piece} {pieces : List Piece}

theorem pieces?_piece (spelled : piece.Spelled word) (s : List Char) :
    pieces? (word ++ s) = (pieces? s).map fun (pieces, rest) => (piece :: pieces, rest) := by
  cases spelled with
  | plain printable quote backslash =>
    rw [List.singleton_append, pieces?.eq_5 _ _ (by simpa using quote) (by simp_all) (by simp_all),
      if_neg (by simp_all)]
    cases pieces? s <;> rfl
  | letter stands =>
    rename_i letter
    have other : letter ≠ 'u' := by
      rintro rfl
      simp [unescape?] at stands
    rw [List.cons_append, List.singleton_append, pieces?.eq_4 _ _ (by simp_all), stands]
    cases pieces? s <;> rfl
  | unit value =>
    simp only [List.cons_append, List.nil_append, pieces?, value]
    cases pieces? s <;> rfl

/-- The pieces of a string are read up to its closing quote. -/
theorem pieces?_append (spelled : Pieces pieces word) :
    pieces? (word ++ '"' :: rest) = some (pieces, rest) := by
  induction spelled with
  | nil => rfl
  | cons spelled others ih => rw [List.append_assoc, pieces?_piece spelled, ih]; rfl

/-- Only pieces of a string are read as such. -/
theorem pieces?_spelled (h : pieces? s = some (pieces, rest)) :
    ∃ word, Pieces pieces word ∧ s = word ++ '"' :: rest := by
  fun_induction pieces? s generalizing pieces rest with
  | case1 => simp at h
  | case2 =>
    obtain ⟨rfl, rfl⟩ := Prod.mk.inj (Option.some.inj h)
    exact ⟨[], .nil, rfl⟩
  | case3 a b c d tail ih =>
    simp only [Option.bind_eq_bind, Option.bind_eq_some_iff, Option.pure_def] at h
    obtain ⟨unit, value, ⟨found, left⟩, hfound, h⟩ := h
    obtain ⟨rfl, rfl⟩ := Prod.mk.inj (Option.some.inj h)
    obtain ⟨word, others, rfl⟩ := ih hfound
    exact ⟨_, .cons (.unit value) others, rfl⟩
  | case4 letter tail _ ih =>
    simp only [Option.bind_eq_bind, Option.bind_eq_some_iff, Option.pure_def] at h
    obtain ⟨char, stands, ⟨found, left⟩, hfound, h⟩ := h
    obtain ⟨rfl, rfl⟩ := Prod.mk.inj (Option.some.inj h)
    obtain ⟨word, others, rfl⟩ := ih hfound
    exact ⟨_, .cons (.letter stands) others, rfl⟩
  | case5 => simp at h
  | case6 c tail quote _ _ plain ih =>
    simp only [Option.bind_eq_bind, Option.bind_eq_some_iff, Option.pure_def] at h
    obtain ⟨⟨found, left⟩, hfound, h⟩ := h
    obtain ⟨rfl, rfl⟩ := Prod.mk.inj (Option.some.inj h)
    obtain ⟨word, others, rfl⟩ := ih hfound
    rw [not_or, Char.not_lt] at plain
    exact ⟨_, .cons (.plain plain.1 (by simpa using quote) plain.2) others, rfl⟩

/-! ## Tokens -/

inductive Spelled : Token → List Char → Prop
  | openArray : Spelled .openArray ['[']
  | closeArray : Spelled .closeArray [']']
  | openObject : Spelled .openObject ['\x7b']
  | closeObject : Spelled .closeObject ['\x7d']
  | comma : Spelled .comma [',']
  | colon : Spelled .colon [':']
  | null : Spelled .null ['n', 'u', 'l', 'l']
  | isTrue : Spelled (.bool true) ['t', 'r', 'u', 'e']
  | isFalse : Spelled (.bool false) ['f', 'a', 'l', 's', 'e']
  | number {literal : NumberLiteral} {word : List Char} (spelled : literal.Spelled word) :
      Spelled (.number literal) word
  | string {pieces : List Piece} {word : List Char} (spelled : Pieces pieces word) :
      Spelled (.string ((join? pieces).map String.ofList)) ('"' :: word ++ ['"'])

/-- A number must end before what follows. -/
def BoundedBefore (rest : List Char) : Token → Prop
  | .number _ => Bounded rest
  | _ => True

variable {token : Token}

theorem first?_number (spelled : literal.Spelled word) (bounded : Bounded rest) :
    first? (word ++ rest) = some (.number literal, rest) := by
  obtain ⟨written, leading, fractional, scaled⟩ := spelled
  rename_i negative whole fraction exponent front after back
  have read : number? negative (front ++ (after ++ back) ++ rest) = _ :=
    number?_append written leading fractional scaled bounded
  cases negative with
  | true => exact congrArg (Option.map _) read
  | false =>
    obtain ⟨d, small, cs, rfl⟩ := written.exists_cons
    -- A digit begins no other token.
    interval_cases d <;> exact congrArg (Option.map _) read

/-- A token is read off a text that begins with a spelling of it and ends it. -/
theorem first?_append (spelled : token.Spelled word) (bounded : token.BoundedBefore rest) :
    first? (word ++ rest) = some (token, rest) := by
  cases spelled with
  | number spelled => exact first?_number spelled bounded
  | string spelled =>
    rw [List.append_assoc, List.singleton_append, List.cons_append, first?, pieces?_append spelled]
    rfl
  | _ => rfl

/-- Only spellings of tokens are read as tokens. -/
theorem first?_spelled (h : first? s = some (token, rest)) :
    ∃ word, token.Spelled word ∧ s = word ++ rest := by
  unfold first? at h
  split at h
  case h_10 =>
    simp only [Option.map_eq_some_iff, Prod.exists] at h
    obtain ⟨pieces, left, found, h⟩ := h
    obtain ⟨rfl, rfl⟩ := Prod.mk.inj h
    obtain ⟨word, spelled, rfl⟩ := pieces?_spelled found
    exact ⟨_, .string spelled, by simp⟩
  case h_11 =>
    simp only [Option.map_eq_some_iff, Prod.exists] at h
    obtain ⟨literal, left, found, h⟩ := h
    obtain ⟨rfl, rfl⟩ := Prod.mk.inj h
    obtain ⟨-, word, spelled, rfl⟩ := number?_spelled found
    exact ⟨_, .number spelled, rfl⟩
  case h_12 =>
    simp only [Option.map_eq_some_iff, Prod.exists] at h
    obtain ⟨literal, left, found, h⟩ := h
    obtain ⟨rfl, rfl⟩ := Prod.mk.inj h
    obtain ⟨-, word, spelled, rfl⟩ := number?_spelled found
    exact ⟨_, .number spelled, rfl⟩
  all_goals
    obtain ⟨rfl, rfl⟩ := Prod.mk.inj (Option.some.inj h)
    exact ⟨_, by constructor, rfl⟩

theorem Spelled.exists_cons (spelled : token.Spelled word) :
    ∃ c cs, word = c :: cs ∧ isBlank c = false := by
  cases spelled with
  | number spelled =>
    obtain ⟨written, leading, fractional, scaled⟩ := spelled
    rename_i negative whole fraction exponent front after back
    cases negative with
    | true => exact ⟨_, _, rfl, rfl⟩
    | false =>
      obtain ⟨d, small, cs, rfl⟩ := written.exists_cons
      exact ⟨_, _, rfl, by interval_cases d <;> rfl⟩
  | _ => exact ⟨_, _, rfl, rfl⟩

/-! ## Lists of tokens -/

/-- The characters of a list of tokens, with white space before each and at the end. -/
inductive Spelling : List Token → List Char → Prop
  | nil {blanks : List Char} (blank : blanks.all isBlank) : Spelling [] blanks
  | cons {token : Token} {tokens : List Token} {blanks word rest : List Char}
      (blank : blanks.all isBlank) (spelled : token.Spelled word) (others : Spelling tokens rest) :
      Spelling (token :: tokens) (blanks ++ (word ++ rest))

def endsValue : Token → Bool
  | .closeArray | .closeObject | .comma => true
  | _ => false

/-- A token that may stand right after another. Only a number needs something that ends it. -/
def Separates : Token → Token → Prop
  | .number _, next => next.endsValue
  | _, _ => True

variable {tokens : List Token} {blanks : List Char}

/-- White space in front of a text does not count. -/
theorem split?_blanks (blank : blanks.all isBlank) (s : List Char) :
    split? (blanks ++ s) = split? s := by
  rw [split?, split?, List.dropWhile_append_of_pos (List.all_eq_true.mp blank)]

theorem split?_token {c : Char} {cs : List Char} (visible : isBlank c = false)
    (found : first? (c :: cs) = some (token, rest)) :
    split? (c :: cs) = (split? rest).map (token :: ·) := by
  have dropped : (c :: cs).dropWhile isBlank = c :: cs :=
    List.dropWhile_cons_of_neg (by rw [visible]; exact Bool.false_ne_true)
  rw [split?]
  split
  case h_1 none => simp [dropped] at none
  case h_2 some =>
    obtain ⟨rfl, rfl⟩ := List.cons.inj (some.symm.trans dropped)
    split
    case h_1 none => simp [found] at none
    case h_2 some =>
      obtain ⟨rfl, rfl⟩ := Prod.mk.inj (Option.some.inj (some.symm.trans found))
      rfl

theorem bounded_of_isBlank {c : Char} (blank : isBlank c) (cs : List Char) : Bounded (c :: cs) := by
  have cases : ((c = ' ' ∨ c = '\t') ∨ c = '\n') ∨ c = '\r' := by simpa [isBlank] using blank
  intro c' hc
  obtain rfl : c = c' := Option.some.inj hc
  obtain ((rfl | rfl) | rfl) | rfl := cases <;> decide

theorem Spelling.bounded (spelling : Spelling tokens rest)
    (separated : ∀ next ∈ tokens.head?, next.endsValue) : Bounded rest := by
  cases spelling with
  | nil blank =>
    cases rest with
    | nil => simp [Bounded]
    | cons c cs => exact bounded_of_isBlank (List.all_eq_true.mp blank c List.mem_cons_self) cs
  | @cons token _ blanks _ _ blank spelled others =>
    cases blanks with
    | cons c cs => exact bounded_of_isBlank (List.all_eq_true.mp blank c List.mem_cons_self) _
    | nil =>
      have ends := separated token rfl
      cases spelled with
      | closeArray | closeObject | comma =>
        intro c hc
        obtain rfl := Option.some.inj hc
        decide
      | _ => exact absurd ends Bool.false_ne_true

/-- A text that spells tokens which may stand side by side is split into them. -/
theorem Spelling.split?_eq (spelling : Spelling tokens s) (separated : tokens.IsChain Separates) :
    split? s = some tokens := by
  induction spelling with
  | @nil blanks blank =>
    rw [← List.append_nil blanks, split?_blanks blank]
    simp [split?]
  | @cons token tokens blanks word rest blank spelled others ih =>
    have bounded : token.BoundedBefore rest := by
      cases token with
      | number literal => exact others.bounded (List.isChain_cons.mp separated).1
      | _ => trivial
    obtain ⟨c, cs, rfl, visible⟩ := spelled.exists_cons
    have found := first?_append spelled bounded
    rw [List.cons_append] at found
    rw [split?_blanks blank, List.cons_append, split?_token visible found, ih separated.tail]
    rfl

/-- A text is split only into tokens that it spells. -/
theorem split?_spelling (h : split? s = some tokens) : Spelling tokens s := by
  have blank := List.all_takeWhile (p := isBlank) (l := s)
  have whole := List.takeWhile_append_dropWhile (p := isBlank) (l := s)
  fun_induction split? s generalizing tokens with
  | case1 s none =>
    obtain rfl := Option.some.inj h
    rw [none, List.append_nil] at whole
    exact .nil (whole ▸ blank)
  | case2 => simp at h
  | case3 s c cs some token rest found ih =>
    obtain ⟨tokens, read, rfl⟩ := Option.map_eq_some_iff.mp h
    obtain ⟨word, spelled, split⟩ := first?_spelled found
    rw [some, split] at whole
    rw [← whole]
    exact .cons blank spelled (ih read List.all_takeWhile List.takeWhile_append_dropWhile)

end Token

end Baseband.Json
