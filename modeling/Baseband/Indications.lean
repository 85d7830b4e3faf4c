import Baseband.Record

/-!
# Slot status indications

Whoever registers for indications gets an inbox of bounded size; an oversized one is refused, and
the registration before it stays. Only the latest registration receives; an indication that finds no
registration or no room is lost. An inbox whose registration has ended still yields what it holds.
-/

namespace Baseband

/-- No inbox has more room than this. -/
def Inbox.maxCapacity : Nat :=
  1 <<< 61 - 1

/-- An inbox was to have more room than there can be. -/
structure Oversized where
  capacity : Nat
deriving DecidableEq

/-- The description of an oversized inbox names the limit. -/
def Oversized.text (_ : Oversized) : String :=
  "a semaphore may not have more than MAX_PERMITS permits (" ++ toString Inbox.maxCapacity ++ ")"

/-- What is kept for one registration. -/
structure Inbox where
  capacity : Nat
  /-- What is not yet read, oldest first. -/
  unread : List (List SlotStatus)
  /-- Nobody reads the inbox any more. -/
  abandoned : Bool

/-- What a look into an inbox finds. -/
inductive Reading
  | slots (slots : List SlotStatus)
  | empty
  | closed
deriving DecidableEq

/-- The inbox takes an indication unless it is full or abandoned. -/
def Inbox.push (inbox : Inbox) (slots : List SlotStatus) : Inbox :=
  if inbox.abandoned ∨ inbox.capacity ≤ inbox.unread.length then inbox
  else { inbox with unread := inbox.unread ++ [slots] }

/-- All inboxes in the order of their registration, and the one that receives. -/
structure Indications where
  inboxes : List Inbox
  registered : Option Nat

namespace Indications

def empty : Indications :=
  ⟨[], none⟩

/-- Register a new inbox in place of the one before, unless it is oversized. Its number is the
number of inboxes before. -/
def register (i : Indications) (capacity : Nat) : Except Oversized Indications :=
  if capacity ≤ Inbox.maxCapacity then
    .ok ⟨i.inboxes ++ [⟨capacity, [], false⟩], some i.inboxes.length⟩
  else .error ⟨capacity⟩

def unregister (i : Indications) : Indications :=
  { i with registered := none }

def deliver (i : Indications) (slots : List SlotStatus) : Indications :=
  match i.registered with
  | none => i
  | some inbox => { i with inboxes := i.inboxes.modify inbox fun box => box.push slots }

/-- What a look into an inbox would find. -/
def peek (i : Indications) (inbox : Nat) : Reading :=
  match i.inboxes[inbox]? with
  | none => .closed
  | some box =>
    match box.unread with
    | slots :: _ => .slots slots
    | [] => if i.registered = some inbox then .empty else .closed

/-- Take the oldest unread item of an inbox away. -/
def advance (i : Indications) (inbox : Nat) : Indications :=
  { i with inboxes := i.inboxes.modify inbox fun box => { box with unread := box.unread.tail } }

def abandon (i : Indications) (inbox : Nat) : Indications :=
  { i with inboxes := i.inboxes.modify inbox fun box => { box with abandoned := true } }

end Indications

end Baseband
