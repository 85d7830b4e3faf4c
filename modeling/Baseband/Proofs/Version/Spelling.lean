import Mathlib.Data.List.DropRight
import Baseband.Error

/-!
# The spelling of versions

Which texts are versions, stated without a reader: two numerals with a dot between them and white
space around them. A numeral is spelled by the digits of its number, zeros in front included, with
or without one plus sign. Every text that spells a version is read as that version, and every other
text is refused. What is written for a version is one of its spellings.

## Main definitions

* `Text.Digits`, `Text.Numeral`: the spellings of a number.
* `Version.Spelled`: the spellings of a version.

## Main statements

* `Text.numeral?_eq_some`, `Text.trim_append`, `Version.splitDot?_eq_some`: what each reader finds.
* `Version.texts_of_versions`: what is read as a version, and that what is written is read back.
-/

namespace Baseband

namespace Text

variable {c : Char} {s before after : List Char} {n limit : Nat}

/-! ## Numerals -/

structure Digits (n : Nat) (s : List Char) : Prop where
  ne_nil : s ≠ []
  decimal : ∀ c ∈ s, c.isDigit = true
  value : Nat.ofDigitChars 10 s 0 = n

inductive Numeral (n : Nat) : List Char → Prop
  | bare {s : List Char} (digits : Digits n s) : Numeral n s
  | plus {s : List Char} (digits : Digits n s) : Numeral n ('+' :: s)

theorem digit?_eq (c : Char) : digit? c = if c.isDigit then some (c.toNat - 48) else none := by
  have same : c.isDigit = true ↔ '0' ≤ c ∧ c ≤ '9' := by
    simp only [Char.isDigit, Bool.and_eq_true, decide_eq_true_eq]
    rfl
  simp only [digit?, same]

theorem digitsFrom?_eq_some {acc : Nat} :
    digitsFrom? acc s = some n ↔
      (∀ c ∈ s, c.isDigit = true) ∧ Nat.ofDigitChars 10 s acc = n := by
  induction s generalizing acc with
  | nil => simp [digitsFrom?]
  | cons c s ih =>
    rw [digitsFrom?, digit?_eq, List.forall_mem_cons, Nat.ofDigitChars_cons]
    by_cases digit : c.isDigit = true
    · rw [if_pos digit, Option.bind_some, ih]
      simp [digit]
    · simp [digit]

/-- Digits are read as the number they denote. -/
theorem digits?_eq_some : digits? s = some n ↔ Digits n s := by
  cases s with
  | nil =>
    constructor
    · rintro ⟨⟩
    · intro digits
      exact absurd rfl digits.ne_nil
  | cons c s =>
    rw [digits?, digitsFrom?_eq_some]
    · constructor
      · rintro ⟨decimal, value⟩
        exact ⟨List.cons_ne_nil c s, decimal, value⟩
      · intro digits
        exact ⟨digits.decimal, digits.value⟩
    · rintro ⟨⟩

/-- A plus sign is no digit, so what is left behind one starts with no other. -/
theorem numeral?_eq_some : numeral? limit s = some n ↔ Numeral n s ∧ n ≤ limit := by
  rw [numeral?, Option.filter_eq_some_iff, digits?_eq_some, decide_eq_true_eq]
  apply and_congr_left
  intro _
  unfold dropPlus
  split
  case h_1 s =>
    refine ⟨.plus, fun numeral => ?_⟩
    cases numeral with
    | bare digits => exact absurd (digits.decimal '+' List.mem_cons_self) (by decide)
    | plus digits => exact digits
  case h_2 unsigned =>
    refine ⟨.bare, fun numeral => ?_⟩
    cases numeral with
    | bare digits => exact digits
    | plus digits => exact absurd rfl (unsigned _)

theorem numeral_decimal (n : Nat) : Numeral n (decimal n) := by
  refine .bare ⟨Nat.toDigits_ne_nil, ?_, Nat.ofDigitChars_toDigits (by decide) (by decide)⟩
  intro c written
  exact Nat.isDigit_of_mem_toDigits (by decide) (by decide) written

theorem Numeral.char (numeral : Numeral n s) (written : c ∈ s) : c = '+' ∨ c.isDigit = true := by
  cases numeral with
  | bare digits => exact .inr (digits.decimal c written)
  | plus digits => exact (List.mem_cons.1 written).imp id (digits.decimal c)

theorem Numeral.not_isBlank (numeral : Numeral n s) (written : c ∈ s) : isBlank c = false := by
  obtain rfl | digit := numeral.char written
  · decide
  · have bounds : 48 ≤ c.toNat ∧ c.toNat ≤ 57 := by
      simpa [Char.isDigit, UInt32.le_iff_toNat_le] using digit
    grind [isBlank]

theorem Numeral.no_dot (numeral : Numeral n s) : '.' ∉ s := by
  intro written
  obtain ⟨⟨⟩⟩ | ⟨⟨⟩⟩ := numeral.char written

/-! ## White space -/

def Blank (s : List Char) : Prop :=
  ∀ c ∈ s, isBlank c = true

theorem dropWhile_blank (blank : Blank before) (ends : ∀ c ∈ s.head?, isBlank c = false) :
    (before ++ s).dropWhile isBlank = s := by
  induction before with
  | nil =>
    cases s with
    | nil => rfl
    | cons c s => exact List.dropWhile_cons_of_neg (by simpa using ends c rfl)
  | cons c before ih =>
    rw [Blank, List.forall_mem_cons] at blank
    rw [List.cons_append, List.dropWhile_cons_of_pos blank.1]
    exact ih blank.2

/-- White space is removed from around a text that has none at its ends. -/
theorem trim_append (ne : s ≠ []) (starts : ∀ c ∈ s.head?, isBlank c = false)
    (ends : ∀ c ∈ s.getLast?, isBlank c = false) (blank : Blank before) (blank' : Blank after) :
    trim (before ++ s ++ after) = s := by
  have head : (s ++ after).head? = s.head? := by
    cases s with
    | nil => exact absurd rfl ne
    | cons c s => rfl
  have reversed : Blank after.reverse := by
    intro c mem
    exact blank' c (List.mem_reverse.1 mem)
  rw [trim, List.append_assoc, dropWhile_blank blank (by rwa [head]), List.reverse_append,
    dropWhile_blank reversed (by rwa [List.head?_reverse]), List.reverse_reverse]

/-- Nothing but white space is removed. -/
theorem exists_trim (s : List Char) :
    ∃ before after, Blank before ∧ Blank after ∧ s = before ++ trim s ++ after := by
  refine ⟨s.takeWhile isBlank, (s.dropWhile isBlank).rtakeWhile isBlank, ?_, ?_, ?_⟩
  · intro c mem
    exact List.mem_takeWhile_imp mem
  · intro c mem
    exact List.mem_rtakeWhile_imp mem
  · have back : trim s ++ (s.dropWhile isBlank).rtakeWhile isBlank = s.dropWhile isBlank :=
      List.rdropWhile_append_rtakeWhile
    rw [List.append_assoc, back, List.takeWhile_append_dropWhile]

end Text

namespace Version

open Text

/-! ## Versions -/

/-- White space, the numeral of the major number, a dot, the numeral of the minor number, and white
space. -/
inductive Spelled (v : Version) : List Char → Prop
  | intro {before major minor after : List Char} (blank : Blank before)
      (numeral : Numeral v.major.toNat major) (numeral' : Numeral v.minor.toNat minor)
      (blank' : Blank after) : Spelled v (before ++ (major ++ '.' :: minor) ++ after)

/-- The text is split at its first dot. -/
theorem splitDot?_eq_some {s before after : List Char} :
    splitDot? s = some (before, after) ↔ s = before ++ '.' :: after ∧ '.' ∉ before := by
  induction s generalizing before with
  | nil => simp [splitDot?]
  | cons c s ih =>
    by_cases dot : c = '.'
    · subst dot
      cases before with
      | nil => simp [splitDot?]
      | cons => grind [splitDot?]
    · rw [splitDot?, Option.map_eq_some_iff]
      · constructor
        · rintro ⟨⟨b, a⟩, split, ⟨⟩⟩
          obtain ⟨rfl, first⟩ := ih.1 split
          grind
        · rintro ⟨eq, first⟩
          cases before with
          | nil => exact absurd (List.cons.inj eq).1 dot
          | cons b before =>
            obtain ⟨rfl, rfl⟩ := List.cons.inj eq
            refine ⟨(before, after), ih.2 ⟨rfl, ?_⟩, rfl⟩
            exact fun later => first (List.mem_cons_of_mem c later)
      · exact dot

theorem toNat_ofNat_of_le {n : Nat} (small : n ≤ limit) : (UInt16.ofNat n).toNat = n :=
  UInt16.toNat_ofNat_of_lt' (Nat.lt_succ_of_le small)

theorem le_limit (n : UInt16) : n.toNat ≤ limit :=
  Nat.le_of_lt_succ n.toNat_lt

theorem parse?_eq_some {written : String} {v : Version} :
    parse? written = some v ↔ Spelled v written.toList := by
  simp only [parse?, Option.bind_eq_bind, Option.bind_eq_some_iff, Option.pure_def,
    Option.some.injEq, Prod.exists]
  generalize written.toList = s
  constructor
  · rintro ⟨front, back, split, major, read, minor, read', rfl⟩
    obtain ⟨core, -⟩ := splitDot?_eq_some.1 split
    obtain ⟨numeral, small⟩ := numeral?_eq_some.1 read
    obtain ⟨numeral', small'⟩ := numeral?_eq_some.1 read'
    obtain ⟨before, after, blank, blank', whole⟩ := exists_trim s
    rw [whole, core]
    refine .intro blank ?_ ?_ blank'
    · rwa [toNat_ofNat_of_le small]
    · rwa [toNat_ofNat_of_le small']
  · rintro (@⟨before, major, minor, after, blank, numeral, numeral', blank'⟩)
    have solid : ∀ c ∈ major ++ '.' :: minor, isBlank c = false := by
      intro c written
      rw [List.mem_append, List.mem_cons] at written
      obtain inMajor | rfl | inMinor := written
      · exact numeral.not_isBlank inMajor
      · decide
      · exact numeral'.not_isBlank inMinor
    have core : trim (before ++ (major ++ '.' :: minor) ++ after) = major ++ '.' :: minor := by
      apply trim_append (by simp) _ _ blank blank'
      · intro c first
        exact solid c (List.mem_of_mem_head? first)
      · intro c last
        exact solid c (List.mem_of_getLast? last)
    refine ⟨major, minor, splitDot?_eq_some.2 ⟨core, numeral.no_dot⟩, v.major.toNat,
      numeral?_eq_some.2 ⟨numeral, le_limit _⟩, v.minor.toNat,
      numeral?_eq_some.2 ⟨numeral', le_limit _⟩, ?_⟩
    simp

theorem spelled_text (v : Version) : Spelled v v.text.toList := by
  have nothing : Blank [] := by simp [Blank]
  have written : Spelled v ([] ++ _ ++ []) :=
    .intro nothing (numeral_decimal v.major.toNat) (numeral_decimal v.minor.toNat) nothing
  rw [List.nil_append, List.append_nil] at written
  rwa [text, String.toList_ofList]

/-! ## Reading and writing -/

theorem parse_eq_ok {written : String} {v : Version} :
    parse written = .ok v ↔ Spelled v written.toList := by
  rw [← parse?_eq_some, parse]
  cases parse? written <;> simp

/-- A text that spells no version is refused as misconfigured, and cited. -/
theorem parse_eq_error {written : String} {e : Error} :
    parse written = .error e ↔
      e = .misconfigured (.badVersion written) ∧ ∀ v, ¬ Spelled v written.toList := by
  simp only [← parse?_eq_some, parse]
  cases parse? written <;> simp [eq_comm]

theorem parse_written (v : Version) : parse v.text = .ok v :=
  parse_eq_ok.2 (spelled_text v)

/-- A text is read as the version that it spells. A text that spells none is refused, and the
refusal tells it. What is written for a version is read as this version, so no two versions are
written alike. -/
theorem texts_of_versions :
    (∀ written v, parse written = .ok v ↔ Spelled v written.toList) ∧
    (∀ written, parse written = .error (.misconfigured (.badVersion written)) ↔
      ∀ v, ¬ Spelled v written.toList) ∧
    (∀ v, parse v.text = .ok v) ∧
    Function.Injective text := by
  refine ⟨fun written v => parse_eq_ok, fun written => ?_, parse_written, fun v w same => ?_⟩
  · rw [parse_eq_error]
    simp
  · have read := parse_written v
    rw [same, parse_written w] at read
    exact (Except.ok.inj read).symm

/-- A plus sign, zeros in front and any white space around are read over, a second dot is not. -/
example : parse? "\u3000+01.0003\n" = some ⟨1, 3⟩ ∧ parse? "1.3.0" = none := by decide

end Version

end Baseband
