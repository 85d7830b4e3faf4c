import Baseband.Json.Token

/-!
# JSON values

A value is read from its tokens one at a time. What is still open is kept as a list of frames, the
innermost first, so that nesting is not bounded and reading ends with the last token.
-/

namespace Baseband

/-- A JSON value. Members keep their order and may repeat. -/
inductive Json
  | null
  | bool (value : Bool)
  | number (literal : Json.NumberLiteral)
  | string (text : Option String)
  | array (elements : List Json)
  | object (members : List (Option String × Json))
deriving Inhabited

namespace Json

/-- An array or object whose end is still to come. Its finished parts are kept last first. -/
inductive Frame
  | array (before : List Json)
  | object (before : List (Option String × Json)) (key : Option String)

/-- What the next token must be. -/
inductive Expected
  | value
  /-- An element or the end of an array that has just been opened. -/
  | element
  /-- A key or the end of an object that has just been opened. -/
  | member
  /-- A key, after the members so far. -/
  | key (before : List (Option String × Json))
  /-- The colon after a key. -/
  | colon (before : List (Option String × Json)) (key : Option String)
  /-- What follows a complete value. -/
  | following (value : Json)

structure Progress where
  expected : Expected
  frames : List Frame

namespace Progress

def start : Progress :=
  ⟨.value, []⟩

/-- The first token of a value. -/
def openValue (frames : List Frame) : Token → Option Progress
  | .null => some ⟨.following .null, frames⟩
  | .bool value => some ⟨.following (.bool value), frames⟩
  | .number literal => some ⟨.following (.number literal), frames⟩
  | .string text => some ⟨.following (.string text), frames⟩
  | .openArray => some ⟨.element, .array [] :: frames⟩
  | .openObject => some ⟨.member, frames⟩
  | _ => none

/-- The token after a complete value. -/
def closeValue (value : Json) : List Frame → Token → Option Progress
  | .array before :: frames, .comma => some ⟨.value, .array (value :: before) :: frames⟩
  | .array before :: frames, .closeArray =>
    some ⟨.following (.array (value :: before).reverse), frames⟩
  | .object before key :: frames, .comma => some ⟨.key ((key, value) :: before), frames⟩
  | .object before key :: frames, .closeObject =>
    some ⟨.following (.object ((key, value) :: before).reverse), frames⟩
  | _, _ => none

def step : Progress → Token → Option Progress
  | ⟨.value, frames⟩, token => openValue frames token
  | ⟨.element, .array [] :: frames⟩, .closeArray => some ⟨.following (.array []), frames⟩
  | ⟨.element, frames⟩, token => openValue frames token
  | ⟨.member, frames⟩, .closeObject => some ⟨.following (.object []), frames⟩
  | ⟨.member, frames⟩, .string key => some ⟨.colon [] key, frames⟩
  | ⟨.key before, frames⟩, .string key => some ⟨.colon before key, frames⟩
  | ⟨.colon before key, frames⟩, .colon => some ⟨.value, .object before key :: frames⟩
  | ⟨.following value, frames⟩, token => closeValue value frames token
  | _, _ => none

def run : Progress → List Token → Option Progress
  | p, [] => some p
  | p, token :: tokens => (p.step token).bind fun next => next.run tokens

/-- The value, if it is complete and nothing is open. -/
def result? : Progress → Option Json
  | ⟨.following value, []⟩ => some value
  | _ => none

end Progress

def ofTokens? (tokens : List Token) : Option Json :=
  (Progress.start.run tokens).bind Progress.result?

def parse? (s : String) : Option Json :=
  (Token.split? s.toList).bind ofTokens?

end Json

end Baseband
