import Baseband.Json.Value
import Baseband.Proofs.Json.Spelling

/-!
# The spelling of values

Which texts spell a JSON value, stated by its tokens in order and without a reader. Reading a text
gives a value exactly if the text spells it. The order of members, repeated names and the digits of
numbers are all part of a value, so a text spells one value only.

## Main definitions

* `tokens`: the tokens of a value.
* `Spells`: the texts of a value.
* `Progress.spent`: the tokens that have led to a state of the reader.

## Main statements

* `parse?_eq_some`: what is read from a text is what it spells.
-/

namespace Baseband.Json

open Token (split? Spelling Separates endsValue)

mutual

def tokens : Json → List Token
  | .null => [.null]
  | .bool value => [.bool value]
  | .number literal => [.number literal]
  | .string text => [.string text]
  | .array [] => [.openArray, .closeArray]
  | .array (first :: rest) => .openArray :: (tokens first ++ elementTokens rest)
  | .object [] => [.openObject, .closeObject]
  | .object ((key, value) :: rest) =>
    .openObject :: .string key :: .colon :: (tokens value ++ memberTokens rest)

def elementTokens : List Json → List Token
  | [] => [.closeArray]
  | value :: rest => .comma :: (tokens value ++ elementTokens rest)

def memberTokens : List (Option String × Json) → List Token
  | [] => [.closeObject]
  | (key, value) :: rest =>
    .comma :: .string key :: .colon :: (tokens value ++ memberTokens rest)

end

/-- The text consists of the tokens of the value, spelled one after another. -/
def Spells (value : Json) (text : String) : Prop :=
  Spelling value.tokens text.toList

variable {value : Json} {ts rest : List Token} {frames : List Frame}

theorem exists_cons_tokens (value : Json) :
    ∃ t ts, value.tokens = t :: ts ∧ t ≠ .closeArray := by
  match value with
  | .null | .bool _ | .number _ | .string _ | .array [] | .array (_ :: _) | .object []
  | .object ((_, _) :: _) => exact ⟨_, _, by rw [tokens], by simp⟩

/-! ## Tokens that are told apart -/

theorem endsValue_elementTokens (values : List Json) (rest : List Token) :
    ∀ next ∈ (elementTokens values ++ rest).head?, next.endsValue := by
  intro next h
  cases values <;> obtain rfl := Option.some.inj h <;> rfl

theorem endsValue_memberTokens (members : List (Option String × Json)) (rest : List Token) :
    ∀ next ∈ (memberTokens members ++ rest).head?, next.endsValue := by
  intro next h
  match members with
  | [] => obtain rfl := Option.some.inj h; rfl
  | (_, _) :: _ => obtain rfl := Option.some.inj h; rfl

/-- Only a number must be followed by what ends it. -/
theorem isChain_cons_of_punctuation {t : Token} (free : ∀ next, Separates t next)
    (chain : rest.IsChain Separates) : (t :: rest).IsChain Separates :=
  List.isChain_cons.mpr ⟨fun next _ => free next, chain⟩

mutual

/-- The tokens of a value may stand side by side. -/
theorem isChain_tokens (value : Json) {rest : List Token} (chain : rest.IsChain Separates)
    (ends : ∀ next ∈ rest.head?, next.endsValue) : (value.tokens ++ rest).IsChain Separates := by
  match value with
  | .null | .bool _ | .string _ => exact isChain_cons_of_punctuation (fun _ => trivial) chain
  | .number _ => exact List.isChain_cons.mpr ⟨ends, chain⟩
  | .array [] | .object [] =>
    refine isChain_cons_of_punctuation (fun _ => trivial) ?_
    exact isChain_cons_of_punctuation (fun _ => trivial) chain
  | .array (first :: others) =>
    rw [tokens, List.cons_append, List.append_assoc]
    refine isChain_cons_of_punctuation (fun _ => trivial) ?_
    exact isChain_tokens first (isChain_elementTokens others chain) (endsValue_elementTokens _ _)
  | .object ((key, first) :: others) =>
    simp only [tokens, List.cons_append, List.append_assoc]
    iterate 3 refine isChain_cons_of_punctuation (fun _ => trivial) ?_
    exact isChain_tokens first (isChain_memberTokens others chain) (endsValue_memberTokens _ _)

theorem isChain_elementTokens (values : List Json) {rest : List Token}
    (chain : rest.IsChain Separates) : (elementTokens values ++ rest).IsChain Separates := by
  match values with
  | [] => exact isChain_cons_of_punctuation (fun _ => trivial) chain
  | first :: others =>
    rw [elementTokens, List.cons_append, List.append_assoc]
    refine isChain_cons_of_punctuation (fun _ => trivial) ?_
    exact isChain_tokens first (isChain_elementTokens others chain) (endsValue_elementTokens _ _)

theorem isChain_memberTokens (members : List (Option String × Json)) {rest : List Token}
    (chain : rest.IsChain Separates) : (memberTokens members ++ rest).IsChain Separates := by
  match members with
  | [] => exact isChain_cons_of_punctuation (fun _ => trivial) chain
  | (key, first) :: others =>
    simp only [memberTokens, List.cons_append, List.append_assoc]
    iterate 3 refine isChain_cons_of_punctuation (fun _ => trivial) ?_
    exact isChain_tokens first (isChain_memberTokens others chain) (endsValue_memberTokens _ _)

end

/-! ## Reading the tokens of a value -/

namespace Progress

theorem run_cons {p : Progress} {t : Token} :
    p.run (t :: ts) = (p.step t).bind fun next => next.run ts :=
  rfl

/-- An opened array reads its first element like any value. -/
theorem run_element (value : Json) (frames : List Frame) (rest : List Token) :
    run ⟨.element, .array [] :: frames⟩ (value.tokens ++ rest) =
      run ⟨.value, .array [] :: frames⟩ (value.tokens ++ rest) := by
  obtain ⟨t, ts, h, ne⟩ := exists_cons_tokens value
  rw [h, List.cons_append, run_cons, run_cons]
  cases t <;> first | rfl | exact absurd rfl ne

mutual

/-- The reader comes from the tokens of a value to the value, whatever is around it. -/
theorem run_tokens (value : Json) (frames : List Frame) (rest : List Token) :
    run ⟨.value, frames⟩ (value.tokens ++ rest) = run ⟨.following value, frames⟩ rest := by
  match value with
  | .null | .bool _ | .number _ | .string _ | .array [] | .object [] => rfl
  | .array (first :: others) =>
    calc run ⟨.value, frames⟩ (tokens (.array (first :: others)) ++ rest)
      _ = run ⟨.element, .array [] :: frames⟩ (first.tokens ++ (elementTokens others ++ rest)) := by
        rw [tokens, List.cons_append, List.append_assoc]; rfl
      _ = run ⟨.following first, .array [] :: frames⟩ (elementTokens others ++ rest) := by
        rw [run_element, run_tokens first]
      _ = run ⟨.following (.array (first :: others)), frames⟩ rest :=
        run_elementTokens others [] first frames rest
  | .object ((key, first) :: others) =>
    calc run ⟨.value, frames⟩ (tokens (.object ((key, first) :: others)) ++ rest)
      _ = run ⟨.value, .object [] key :: frames⟩
            (first.tokens ++ (memberTokens others ++ rest)) := by
        simp only [tokens, List.cons_append, List.append_assoc]; rfl
      _ = run ⟨.following first, .object [] key :: frames⟩ (memberTokens others ++ rest) :=
        run_tokens first _ _
      _ = run ⟨.following (.object ((key, first) :: others)), frames⟩ rest :=
        run_memberTokens others [] key first frames rest

/-- The reader comes through the other elements of an array to its end. -/
theorem run_elementTokens (values before : List Json) (value : Json) (frames : List Frame)
    (rest : List Token) :
    run ⟨.following value, .array before :: frames⟩ (elementTokens values ++ rest) =
      run ⟨.following (.array (before.reverse ++ value :: values)), frames⟩ rest := by
  match values with
  | [] => rw [← List.reverse_cons]; rfl
  | next :: others =>
    calc run ⟨.following value, .array before :: frames⟩ (elementTokens (next :: others) ++ rest)
      _ = run ⟨.value, .array (value :: before) :: frames⟩
            (next.tokens ++ (elementTokens others ++ rest)) := by
        rw [elementTokens, List.cons_append, List.append_assoc]; rfl
      _ = run ⟨.following next, .array (value :: before) :: frames⟩
            (elementTokens others ++ rest) := run_tokens next _ _
      _ = run ⟨.following (.array (before.reverse ++ value :: next :: others)), frames⟩ rest := by
        rw [run_elementTokens others, List.reverse_cons, List.append_assoc, List.singleton_append]

/-- The reader comes through the other members of an object to its end. -/
theorem run_memberTokens (members before : List (Option String × Json)) (key : Option String)
    (value : Json) (frames : List Frame) (rest : List Token) :
    run ⟨.following value, .object before key :: frames⟩ (memberTokens members ++ rest) =
      run ⟨.following (.object (before.reverse ++ (key, value) :: members)), frames⟩ rest := by
  match members with
  | [] => rw [← List.reverse_cons]; rfl
  | (name, next) :: others =>
    calc run ⟨.following value, .object before key :: frames⟩
          (memberTokens ((name, next) :: others) ++ rest)
      _ = run ⟨.value, .object ((key, value) :: before) name :: frames⟩
            (next.tokens ++ (memberTokens others ++ rest)) := by
        simp only [memberTokens, List.cons_append, List.append_assoc]; rfl
      _ = run ⟨.following next, .object ((key, value) :: before) name :: frames⟩
            (memberTokens others ++ rest) := run_tokens next _ _
      _ = run ⟨.following (.object (before.reverse ++ (key, value) :: (name, next) :: others)),
            frames⟩ rest := by
        rw [run_memberTokens others, List.reverse_cons, List.append_assoc, List.singleton_append]

end

/-! ## The tokens that have been read -/

/-- The tokens of an opened array, each element with the comma after it. -/
def openedArray (values : List Json) : List Token :=
  .openArray :: values.flatMap fun value => value.tokens ++ [.comma]

def openedObject (members : List (Option String × Json)) : List Token :=
  .openObject :: members.flatMap fun (key, value) =>
    .string key :: .colon :: (value.tokens ++ [.comma])

def spentOn : Frame → List Token
  | .array before => openedArray before.reverse
  | .object before key => openedObject before.reverse ++ [.string key, .colon]

def spentSince : Expected → List Token
  | .value | .element => []
  | .member => [.openObject]
  | .key before => openedObject before.reverse
  | .colon before key => openedObject before.reverse ++ [.string key]
  | .following value => value.tokens

/-- The tokens that have led to a state of the reader. -/
def spent (p : Progress) : List Token :=
  p.frames.reverse.flatMap spentOn ++ spentSince p.expected

theorem openedArray_append_value (values : List Json) (value : Json) :
    openedArray (values ++ [value]) = openedArray values ++ value.tokens ++ [.comma] := by
  simp [openedArray]

theorem openedObject_append_member (members : List (Option String × Json)) (key : Option String)
    (value : Json) : openedObject (members ++ [(key, value)]) =
      openedObject members ++ [.string key, .colon] ++ value.tokens ++ [.comma] := by
  simp [openedObject]

theorem tokens_array_append (values : List Json) (value : Json) :
    tokens (.array (values ++ [value])) = openedArray values ++ value.tokens ++ [.closeArray] := by
  have go (first : Json) (rest : List Json) :
      first.tokens ++ elementTokens (rest ++ [value]) =
        ((first :: rest).flatMap fun value => value.tokens ++ [.comma]) ++ value.tokens ++
          [.closeArray] := by
    induction rest generalizing first with
    | nil => simp [elementTokens]
    | cons second rest ih =>
      rw [List.cons_append, elementTokens, ih, List.flatMap_cons]
      simp
  cases values with
  | nil => simp [openedArray, tokens, elementTokens]
  | cons first rest => rw [List.cons_append, tokens, go]; rfl

theorem tokens_object_append (members : List (Option String × Json)) (key : Option String)
    (value : Json) : tokens (.object (members ++ [(key, value)])) =
      openedObject members ++ [.string key, .colon] ++ value.tokens ++ [.closeObject] := by
  have go (first : Json) (rest : List (Option String × Json)) :
      first.tokens ++ memberTokens (rest ++ [(key, value)]) =
        first.tokens ++ [.comma] ++ (rest.flatMap fun (key, value) =>
          .string key :: .colon :: (value.tokens ++ [.comma])) ++
            [.string key, .colon] ++ value.tokens ++ [.closeObject] := by
    induction rest generalizing first with
    | nil => simp [memberTokens]
    | cons member rest ih =>
      rw [List.cons_append, memberTokens, ih]
      simp
  match members with
  | [] => simp [openedObject, tokens, memberTokens]
  | (name, first) :: rest => simp [tokens, go, openedObject]

variable {p q : Progress} {t : Token}

theorem spent_openValue (h : openValue frames t = some q) :
    q.spent = frames.reverse.flatMap spentOn ++ [t] := by
  cases t <;> cases h <;>
    simp [spent, spentOn, spentSince, tokens, openedArray]

theorem spent_closeValue (h : closeValue value frames t = some q) :
    q.spent = frames.reverse.flatMap spentOn ++ value.tokens ++ [t] := by
  unfold closeValue at h
  split at h <;> cases h <;>
    simp [spent, spentOn, spentSince, openedArray_append_value, openedObject_append_member,
      tokens_array_append, tokens_object_append]

theorem spent_step (h : p.step t = some q) : q.spent = p.spent ++ [t] := by
  unfold step at h
  split at h
  case h_1 => simpa [spent, spentSince] using spent_openValue h
  case h_3 => simpa [spent, spentSince] using spent_openValue h
  case h_8 => simpa [spent, spentSince] using spent_closeValue h
  all_goals
    cases h <;> simp [spent, spentOn, spentSince, tokens, openedArray, openedObject]

/-- The reader accounts for every token it has taken. -/
theorem spent_run (h : p.run ts = some q) : q.spent = p.spent ++ ts := by
  induction ts generalizing p with
  | nil =>
    obtain rfl := Option.some.inj h
    exact (List.append_nil _).symm
  | cons t ts ih =>
    obtain ⟨next, stepped, h⟩ := Option.bind_eq_some_iff.mp h
    rw [ih h, spent_step stepped, List.append_assoc, List.singleton_append]

theorem eq_of_result? (h : p.result? = some value) : p = ⟨.following value, []⟩ := by
  unfold result? at h
  split at h <;> cases h
  rfl

end Progress

/-! ## Reading a text -/

/-- Tokens are read as a value exactly if they are its tokens. -/
theorem ofTokens?_eq_some : ofTokens? ts = some value ↔ ts = value.tokens := by
  constructor
  · intro h
    obtain ⟨q, ran, h⟩ := Option.bind_eq_some_iff.mp h
    obtain rfl := Progress.eq_of_result? h
    exact (Progress.spent_run ran).symm
  · rintro rfl
    have ran := Progress.run_tokens value [] []
    rw [List.append_nil] at ran
    exact (congrArg (Option.bind · Progress.result?) ran).trans rfl

/-- Reading a text gives the value it spells, and nothing if it spells none. -/
theorem parse?_eq_some {text : String} : parse? text = some value ↔ value.Spells text := by
  constructor
  · intro h
    obtain ⟨ts, split, h⟩ := Option.bind_eq_some_iff.mp h
    rw [ofTokens?_eq_some.mp h] at split
    exact Token.split?_spelling split
  · intro spells
    have chain := isChain_tokens value List.isChain_nil (by simp)
    rw [List.append_nil] at chain
    exact Option.bind_eq_some_iff.mpr ⟨_, spells.split?_eq chain, ofTokens?_eq_some.mpr rfl⟩

theorem Spells.unique {value' : Json} {text : String} (spells : value.Spells text)
    (spells' : value'.Spells text) : value = value' :=
  Option.some.inj ((parse?_eq_some.mpr spells).symm.trans (parse?_eq_some.mpr spells'))

end Baseband.Json
