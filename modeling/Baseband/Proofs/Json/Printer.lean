import Baseband.Json.Number
import Baseband.Json.Printer
import Baseband.Proofs.Json.Value

/-!
# Written values

What is written for a value spells it, if its numbers can be spelled at all. The numbers that are
made from whole numbers and from binary numbers can, and a whole number is read back from its
digits.

## Main statements

* `parse?_text`: a written value is read back.
* `NumberLiteral.natural?_ofNat`: a whole number is read back.
* `NumberLiteral.wellFormed_ofSingle`: the digits of a binary number can be spelled.
-/

namespace Baseband.Json

open Token (Piece Pieces Spelling join? unit?)

/-! ## Digits of whole numbers -/

variable {n : Nat}

theorem digitsOf_of_lt (small : n < 10) : digitsOf n = [n] := by
  rw [digitsOf, Nat.toDigits_of_lt_base small, List.map_singleton, digitChar_sub small]

/-- The last digit of a number stands behind those of its tenth. -/
theorem digitsOf_of_le (large : 10 ≤ n) : digitsOf n = digitsOf (n / 10) ++ [n % 10] := by
  rw [digitsOf, Nat.toDigits_of_base_le (by decide) large, List.map_append, List.map_singleton,
    digitChar_sub (Nat.mod_lt _ (by decide))]
  rfl

theorem digitsOf_ne_nil (n : Nat) : digitsOf n ≠ [] :=
  List.map_eq_nil_iff.not.mpr Nat.toDigits_ne_nil

theorem digitsOf_small (n : Nat) : ∀ d ∈ digitsOf n, d < 10 := by
  induction n using Nat.strongRecOn with
  | ind n ih =>
    intro d hd
    by_cases small : n < 10
    · rw [digitsOf_of_lt small, List.mem_singleton] at hd
      omega
    · rw [digitsOf_of_le (by omega), List.mem_append, List.mem_singleton] at hd
      obtain hd | rfl := hd
      · exact ih (n / 10) (by omega) d hd
      · exact Nat.mod_lt _ (by decide)

/-- The first digit of a number is zero for zero only. -/
theorem exists_cons_digitsOf (pos : 0 < n) : ∃ d ds, digitsOf n = d :: ds ∧ d ≠ 0 := by
  induction n using Nat.strongRecOn with
  | ind n ih =>
    by_cases small : n < 10
    · exact ⟨n, [], digitsOf_of_lt small, by omega⟩
    · obtain ⟨d, ds, h, ne⟩ := ih (n / 10) (by omega) (by omega)
      exact ⟨d, ds ++ [n % 10], by rw [digitsOf_of_le (by omega), h, List.cons_append], ne⟩

namespace NumberLiteral

/-! ## Literals that can be spelled -/

/-- Decimal digits where there must be some, and no zero in front of the whole ones. -/
structure WellFormed (l : NumberLiteral) : Prop where
  whole_ne_nil : l.whole ≠ []
  leading : ∀ d ds, l.whole ≠ 0 :: d :: ds
  whole_small : ∀ d ∈ l.whole, d < 10
  fraction_small : ∀ d ∈ l.fraction, d < 10
  exponent : ∀ down digits, l.exponent = some (down, digits) →
    digits ≠ [] ∧ ∀ d ∈ digits, d < 10

variable {l : NumberLiteral}

theorem WellFormed.spelled (h : l.WellFormed) : l.Spelled l.render := by
  obtain ⟨negative, whole, fraction, exponent⟩ := l
  have written : Digits whole (whole.map Nat.digitChar) := ⟨h.whole_ne_nil, h.whole_small, rfl⟩
  have fractional : Fraction fraction
      (if fraction.isEmpty then [] else '.' :: fraction.map Nat.digitChar) := by
    cases fraction with
    | nil => exact .absent
    | cons d ds => exact .present ⟨List.cons_ne_nil d ds, h.fraction_small, rfl⟩
  simp only [render, List.append_assoc]
  refine .intro written h.leading fractional ?_
  match exponent with
  | none => exact .absent
  | some (down, digits) =>
    obtain ⟨ne, small⟩ := h.exponent down digits rfl
    cases down with
    | true => exact .present (.inl rfl) .minus ⟨ne, small, rfl⟩
    | false => exact .present (.inl rfl) .plus ⟨ne, small, rfl⟩

theorem wellFormed_ofNat (n : Nat) : (ofNat n).WellFormed where
  whole_ne_nil := digitsOf_ne_nil n
  leading := by
    intro d ds h
    obtain rfl | pos := Nat.eq_zero_or_pos n
    · exact absurd (congrArg List.length h) (by simp [ofNat, digitsOf_of_lt])
    · obtain ⟨d', ds', h', ne⟩ := exists_cons_digitsOf pos
      exact ne (List.cons.inj (h'.symm.trans h)).1
  whole_small := digitsOf_small n
  fraction_small := by simp [ofNat]
  exponent := by simp [ofNat]

/-- The digits of a positive number are written without a leading zero, wherever the point stands.
-/
theorem wellFormed_ofDigits {negative : Bool} {digits : Nat} (pos : 0 < digits) (unit : Int) :
    (ofDigits negative (digitsOf digits) unit).WellFormed := by
  obtain ⟨d, ds, h, ne⟩ := exists_cons_digitsOf pos
  have small := digitsOf_small digits
  rw [h] at small ⊢
  have first (others : List Nat) : ∀ d' ds', d :: others ≠ 0 :: d' :: ds' := by
    intro d' ds' h
    exact ne (List.cons.inj h).1
  dsimp only [ofDigits]
  split
  case isTrue =>
    refine ⟨List.cons_ne_nil _ _, first _, ?_, by simp, by simp⟩
    simp_all [or_imp, forall_and]
  split
  case isTrue between =>
    obtain ⟨k, hk⟩ := Int.eq_succ_of_zero_lt between.1
    rw [hk, ← Int.natCast_succ, Int.toNat_natCast, List.take_succ_cons, List.drop_succ_cons]
    refine ⟨List.cons_ne_nil _ _, first _, ?_, ?_, by simp⟩
    · intro d' h
      exact small d' (List.take_subset (k + 1) (d :: ds) h)
    · intro d' h
      exact small d' (List.mem_cons_of_mem d (List.drop_subset k ds h))
  split
  case isTrue =>
    refine ⟨by simp, by simp, by simp, ?_, by simp⟩
    simp_all [or_imp, forall_and]
  case isFalse =>
    refine ⟨by simp, first _, ?_, ?_, ?_⟩
    · simpa using small d List.mem_cons_self
    · exact fun d' h => small d' (List.mem_cons_of_mem d h)
    · rintro down digits h
      obtain ⟨-, rfl⟩ := Prod.mk.inj (Option.some.inj h)
      exact ⟨digitsOf_ne_nil _, digitsOf_small _⟩

theorem choose?_pos {i : Decimal.Interval} {x : Decimal.Ratio} {unit : Int} {digits : Nat}
    (h : Decimal.choose? i x unit = some digits) : 0 < digits := by
  dsimp only [Decimal.choose?] at h
  split at h
  case isTrue below =>
    have pos := Nat.pos_of_ne_zero below.1
    split at h
    · split at h <;> cases h
      · exact pos
      · exact Nat.succ_pos _
    · cases h
      exact pos
  case isFalse =>
    split at h <;> cases h
    exact Nat.succ_pos _

theorem search_pos (i : Decimal.Interval) (x : Decimal.Ratio) (unit : Int) (tries : Nat) :
    0 < (Decimal.search i x unit tries).1 ∨ Decimal.search i x unit tries = (0, 0) := by
  induction tries generalizing unit with
  | zero => exact .inr rfl
  | succ tries ih =>
    unfold Decimal.search
    split
    case h_1 chosen => exact .inl (choose?_pos chosen)
    case h_2 => exact ih (unit - 1)

theorem shortest_pos (f : Binary.Format) (m : Nat) (e : Int) :
    0 < (Decimal.shortest f m e).1 ∨ Decimal.shortest f m e = (0, 0) :=
  search_pos ..

/-- The shortest digits of a binary number make a number of JSON. -/
theorem wellFormed_ofSingle (x : Single) : (ofSingle x).WellFormed := by
  have zero : (⟨x.isNegative, [0], [0], none⟩ : NumberLiteral).WellFormed := by
    constructor <;> simp
  unfold ofSingle
  split
  split
  case isTrue => exact zero
  case isFalse =>
    split
    rename_i m e _ _ _ digits unit found
    obtain pos | none := shortest_pos Binary.single m e
    · rw [found] at pos
      exact wellFormed_ofDigits pos unit
    · obtain ⟨rfl, rfl⟩ := Prod.mk.inj (found.symm.trans none)
      exact zero

/-! ## Reading a whole number back -/

theorem significand_append {acc m : Nat} {ds : List Nat} (h : significand acc ds = (m, []))
    (es : List Nat) : significand acc (ds ++ es) = significand m es := by
  induction ds generalizing acc with
  | nil =>
    obtain ⟨rfl, -⟩ := Prod.mk.inj h
    rfl
  | cons d ds ih =>
    rw [significand] at h
    split at h
    case isTrue => cases h
    case isFalse fits =>
      rw [List.cons_append, significand, if_neg fits]
      exact ih h

theorem significand_singleton {acc d : Nat} (fits : 10 * acc + d ≤ wordLimit) :
    significand acc [d] = (10 * acc + d, []) :=
  if_neg (Nat.not_lt.mpr fits)

/-- The digits of a number that fits a word are read back in full. -/
theorem significand_digitsOf (fits : n ≤ wordLimit) : significand 0 (digitsOf n) = (n, []) := by
  induction n using Nat.strongRecOn with
  | ind n ih =>
    by_cases small : n < 10
    · rw [digitsOf_of_lt small, significand_singleton (by omega), Nat.mul_zero, Nat.zero_add]
    · have split : 10 * (n / 10) + n % 10 = n := Nat.div_add_mod n 10
      rw [digitsOf_of_le (by omega), significand_append (ih (n / 10) (by omega) (by omega)),
        significand_singleton (split.trans_le fits), split]

/-- A natural number within the limit is read back. -/
theorem natural?_ofNat {limit : Nat} (le : n ≤ limit) (fits : limit ≤ wordLimit) :
    (ofNat n).natural? limit = some n := by
  have read : (ofNat n).numeric? = some (.whole n) := by
    simp [numeric?, ofNat, isWhole, significand_digitsOf (le.trans fits)]
  rw [natural?, read]
  exact if_pos le

end NumberLiteral

/-! ## Strings -/

theorem join?_unit {n : Nat} (low : n < 0xd800) (pieces : List Piece) :
    join? (.unit n :: pieces) = (join? pieces).map (Char.ofNat n :: ·) := by
  have plain : ¬ (0xd800 ≤ n ∧ n < 0xdc00) ∧ ¬ (0xdc00 ≤ n ∧ n < 0xe000) ∧
      ¬ (0xd800 ≤ n ∧ n < 0xe000) := by omega
  match pieces with
  | [] | .char _ :: _ => exact if_neg plain.2.2
  | .unit _ :: _ => rw [join?, if_neg plain.1, if_neg plain.2.1]

/-- Two hexadecimal digits name their code unit. -/
theorem unit?_digitChar {n : Nat} (small : n < 32) :
    unit? '0' '0' (n / 16).digitChar (n % 16).digitChar = some n := by
  interval_cases n <;> rfl

/-- A character is written as one part of a string, which stands for it. -/
theorem exists_piece_escape (c : Char) : ∃ piece : Piece, piece.Spelled (escape c) ∧
    ∀ pieces, join? (piece :: pieces) = (join? pieces).map (c :: ·) := by
  unfold escape
  split
  case h_8 quote backslash _ _ _ _ _ =>
    split
    case isTrue control =>
      have small : c.toNat < 32 := control
      refine ⟨.unit c.toNat, .unit (unit?_digitChar small), fun pieces => ?_⟩
      rw [join?_unit (by omega), Char.ofNat_toNat]
    case isFalse printable =>
      exact ⟨.char c, .plain (Char.not_lt.mp printable) quote backslash, fun _ => rfl⟩
  all_goals exact ⟨.char _, .letter rfl, fun _ => rfl⟩

/-- Escaped characters are the pieces of a string, and join to the characters again. -/
theorem exists_pieces_escape (cs : List Char) :
    ∃ pieces, Pieces pieces (cs.flatMap escape) ∧ join? pieces = some cs := by
  induction cs with
  | nil => exact ⟨[], .nil, rfl⟩
  | cons c cs ih =>
    obtain ⟨pieces, spelled, joined⟩ := ih
    obtain ⟨piece, first, join⟩ := exists_piece_escape c
    exact ⟨piece :: pieces, .cons first spelled, by rw [join, joined]; rfl⟩

/-- A text is written as a string that spells it. -/
theorem spelled_renderString (text : Option String) :
    (Token.string text).Spelled (renderString text) := by
  cases text with
  | none => exact .string (.cons (.unit (n := 0xd800) rfl) .nil)
  | some s =>
    obtain ⟨pieces, spelled, joined⟩ := exists_pieces_escape s.toList
    have written := Token.Spelled.string spelled
    rw [joined, Option.map_some, String.ofList_toList] at written
    exact written

/-! ## Values -/

def Token.render : Token → List Char
  | .openArray => ['[']
  | .closeArray => [']']
  | .openObject => ['\x7b']
  | .closeObject => ['\x7d']
  | .comma => [',']
  | .colon => [':']
  | .null => ['n', 'u', 'l', 'l']
  | .bool true => ['t', 'r', 'u', 'e']
  | .bool false => ['f', 'a', 'l', 's', 'e']
  | .number literal => literal.render
  | .string text => renderString text

def WellFormed (value : Json) : Prop :=
  ∀ literal, .number literal ∈ value.tokens → literal.WellFormed

theorem wellFormed_null : WellFormed .null := by
  simp [WellFormed, tokens]

theorem wellFormed_bool (value : Bool) : WellFormed (.bool value) := by
  simp [WellFormed, tokens]

theorem wellFormed_string (text : Option String) : WellFormed (.string text) := by
  simp [WellFormed, tokens]

theorem wellFormed_number {literal : NumberLiteral} (h : literal.WellFormed) :
    WellFormed (.number literal) := by
  simpa [WellFormed, tokens] using h

theorem mem_elementTokens {values : List Json} {literal : NumberLiteral}
    (h : .number literal ∈ elementTokens values) :
    ∃ value ∈ values, .number literal ∈ value.tokens := by
  induction values with
  | nil => simp [elementTokens] at h
  | cons first rest ih =>
    simp only [elementTokens, List.mem_cons, reduceCtorEq, List.mem_append, false_or] at h
    obtain h | h := h
    · exact ⟨first, List.mem_cons_self, h⟩
    · obtain ⟨value, mem, h⟩ := ih h
      exact ⟨value, List.mem_cons_of_mem first mem, h⟩

theorem mem_memberTokens {members : List (Option String × Json)} {literal : NumberLiteral}
    (h : .number literal ∈ memberTokens members) :
    ∃ member ∈ members, .number literal ∈ member.2.tokens := by
  induction members with
  | nil => simp [memberTokens] at h
  | cons first rest ih =>
    simp only [memberTokens, List.mem_cons, reduceCtorEq, List.mem_append, false_or] at h
    obtain h | h := h
    · exact ⟨first, List.mem_cons_self, h⟩
    · obtain ⟨member, mem, h⟩ := ih h
      exact ⟨member, List.mem_cons_of_mem first mem, h⟩

theorem wellFormed_array {values : List Json} (h : ∀ value ∈ values, value.WellFormed) :
    WellFormed (.array values) := by
  intro literal mem
  obtain ⟨value, among, mem⟩ : ∃ value ∈ values, .number literal ∈ value.tokens := by
    cases values with
    | nil => simp [tokens] at mem
    | cons first rest => exact mem_elementTokens (by simpa [tokens, elementTokens] using mem)
  exact h value among literal mem

theorem wellFormed_object {members : List (Option String × Json)}
    (h : ∀ member ∈ members, member.2.WellFormed) : WellFormed (.object members) := by
  intro literal mem
  obtain ⟨member, among, mem⟩ : ∃ member ∈ members, .number literal ∈ member.2.tokens := by
    cases members with
    | nil => simp [tokens] at mem
    | cons first rest => exact mem_memberTokens (by simpa [tokens, memberTokens] using mem)
  exact h member among literal mem

/-- Every token is written as one of its spellings. -/
theorem spelled_render {token : Token}
    (wellFormed : ∀ literal, .number literal = token → literal.WellFormed) :
    token.Spelled token.render := by
  match token with
  | .openArray | .closeArray | .openObject | .closeObject | .comma | .colon | .null | .bool true
  | .bool false => constructor
  | .number literal => exact .number (wellFormed literal rfl).spelled
  | .string text => exact spelled_renderString text

mutual

/-- A value is written token by token. -/
theorem render_eq (value : Json) : render value = value.tokens.flatMap Token.render := by
  match value with
  | .null | .bool true | .bool false | .array [] | .object [] => rfl
  | .number _ | .string _ => simp [render, tokens, Token.render]
  | .array (first :: rest) =>
    simp [render, tokens, Token.render, render_eq first, renderElements_eq rest]
  | .object ((key, first) :: rest) =>
    simp [render, tokens, Token.render, render_eq first, renderMembers_eq rest]

theorem renderElements_eq (values : List Json) :
    renderElements values = (elementTokens values).flatMap Token.render := by
  match values with
  | [] => rfl
  | first :: rest =>
    simp [renderElements, elementTokens, Token.render, render_eq first, renderElements_eq rest]

theorem renderMembers_eq (members : List (Option String × Json)) :
    renderMembers members = (memberTokens members).flatMap Token.render := by
  match members with
  | [] => rfl
  | (key, first) :: rest =>
    simp [renderMembers, memberTokens, Token.render, render_eq first, renderMembers_eq rest]

end

/-- Tokens written one after another spell their list. -/
theorem spelling_flatMap_render {tokens : List Token}
    (wellFormed : ∀ literal, .number literal ∈ tokens → literal.WellFormed) :
    Spelling tokens (tokens.flatMap Token.render) := by
  induction tokens with
  | nil => exact .nil rfl
  | cons token tokens ih =>
    have first : token.Spelled token.render :=
      spelled_render fun literal h => wellFormed literal (h ▸ List.mem_cons_self)
    have others := ih fun literal h => wellFormed literal (List.mem_cons_of_mem token h)
    exact @Spelling.cons _ _ [] _ _ rfl first others

/-- What is written for a value spells it. -/
theorem spells_text {value : Json} (wellFormed : value.WellFormed) : value.Spells value.text := by
  rw [Spells, text, String.toList_ofList, render_eq]
  exact spelling_flatMap_render wellFormed

/-- A written value is read back. -/
theorem parse?_text {value : Json} (wellFormed : value.WellFormed) :
    parse? value.text = some value :=
  parse?_eq_some.mpr (spells_text wellFormed)

end Baseband.Json
