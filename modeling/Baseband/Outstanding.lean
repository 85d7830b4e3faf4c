import Std.Data.HashMap
import Baseband.Request

/-!
# Outstanding requests

Requests that wait for their response, in a hash table under their serials. They come out of it in
the order of their submission, however the table is laid out.
-/

namespace Baseband

structure Outstanding (κ : Type) where
  table : Std.HashMap Serial (Request κ)
  /-- Where the search for a free serial starts. -/
  nextSerial : Serial
  nextAge : Nat

namespace Outstanding

variable {κ : Type}

def empty : Outstanding κ :=
  ⟨∅, .first, 0⟩

def size (o : Outstanding κ) : Nat :=
  o.table.size

def contains (o : Outstanding κ) (serial : Serial) : Bool :=
  o.table.contains serial

def find? (o : Outstanding κ) (serial : Serial) : Option (Request κ) :=
  o.table[serial]?

/-- The first serial from `s` on that is not taken, passing over at most the given number. -/
def firstFree (taken : Serial → Bool) : Nat → Serial → Serial
  | 0, s => s
  | skips + 1, s => if taken s then firstFree taken skips s.next else s

/-- The serial of the next request. No more serials can be taken than there are requests. -/
def freeSerial (o : Outstanding κ) : Serial :=
  firstFree o.contains o.size o.nextSerial

/-- Enter a request under a serial that is not outstanding. -/
def submit (o : Outstanding κ) (operation : Operation) (completion : κ)
    (attribution : Attribution) : Serial × Outstanding κ :=
  let serial := o.freeSerial
  let request := { serial, operation, completion, attribution, age := o.nextAge }
  (serial, {
    table := o.table.insert serial request
    nextSerial := serial.next
    nextAge := o.nextAge + 1 })

def erase (o : Outstanding κ) (serial : Serial) : Outstanding κ :=
  { o with table := o.table.erase serial }

/-- The outstanding requests, oldest first. -/
def toList (o : Outstanding κ) : List (Request κ) :=
  Request.oldestFirst (o.table.toList.map (·.2))

def clear (o : Outstanding κ) : Outstanding κ :=
  { o with table := ∅ }

/-- Start the search for the next serial at the given one. -/
def startAt (o : Outstanding κ) (serial : Serial) : Outstanding κ :=
  { o with nextSerial := serial }

/-! ## What is found afterwards -/

@[simp] theorem find?_empty (serial : Serial) : (empty : Outstanding κ).find? serial = none := by
  simp [find?, empty]

theorem find?_submit (o : Outstanding κ) (operation : Operation) (completion : κ)
    (attribution : Attribution) (serial : Serial) :
    (o.submit operation completion attribution).2.find? serial =
      if o.freeSerial = serial then
        some ⟨o.freeSerial, operation, completion, attribution, o.nextAge⟩
      else o.find? serial := by
  simp [find?, submit, Std.HashMap.getElem?_insert]

theorem find?_erase (o : Outstanding κ) (erased serial : Serial) :
    (o.erase erased).find? serial = if erased = serial then none else o.find? serial := by
  simp [find?, erase, Std.HashMap.getElem?_erase]

@[simp] theorem find?_clear (o : Outstanding κ) (serial : Serial) :
    o.clear.find? serial = none := by
  simp [find?, clear]

@[simp] theorem find?_startAt (o : Outstanding κ) (start serial : Serial) :
    (o.startAt start).find? serial = o.find? serial :=
  rfl

end Outstanding

end Baseband
