import Baseband.Settings
import Baseband.Indications
import Baseband.Outstanding
import Baseband.Discovery
import Baseband.Response

/-!
# The state of a client

A client holds at most one session, a table of outstanding requests, and the calls that have not yet
returned. A call either still connects, on behalf of a goal, or waits for its request to be sent.
Connections and completions are of any kind: a client only hands them on.
-/

namespace Baseband

/-! ## The gate to discovery

At most one call looks for the service at a time. The others wait in line, and whoever leaves hands
the place to the first of them. -/

abbrev CallId := Nat

/-- Who looks for the service, and who waits to. -/
structure Gate where
  holder : Option CallId
  waiting : List CallId
deriving DecidableEq

namespace Gate

def empty : Gate :=
  ⟨none, []⟩

/-- Step inside, or get in line. -/
def enter (g : Gate) (id : CallId) : Gate :=
  if g.holder.isNone then { g with holder := some id } else { g with waiting := g.waiting ++ [id] }

/-- Leave, and let the first in line in. -/
def leave (g : Gate) : Gate :=
  ⟨g.waiting.head?, g.waiting.tail⟩

/-- Get out of the line. -/
def withdraw (g : Gate) (id : CallId) : Gate :=
  { g with waiting := g.waiting.filter fun other => other != id }

end Gate

/-! ## Sessions and calls -/

/-- An established connection to one version of the service. -/
structure Session (α : Type) where
  version : Version
  connection : α
  /-- The number of the session, counted from one. -/
  generation : Nat
deriving DecidableEq

/-- The session's version implements the operation. -/
def Session.supports {α : Type} (session : Session α) (op : Operation) : Bool :=
  op.availableIn session.version

/-- What a call connects for. -/
inductive Goal (κ : Type)
  | acquire
  /-- Whether the session implements an operation. -/
  | supports (op : Operation)
  /-- A request, whose outcome goes to the completion. -/
  | request (query : Query) (completion : κ)

/-- How far a call has come with connecting. -/
inductive Stage (α : Type)
  | queued
  /-- It has looked a version up and has the rest of the pass before it. -/
  | probing (version : Version) (rest : List Version) (backoff : Option Backoff)
  | resting (backoff : Option Backoff)
  /-- It registers for the death of the connection. -/
  | linking (session : Session α)
  /-- It directs responses to the client. -/
  | routing (session : Session α)
  /-- It has given up the connection and lets the completions of lost requests run. -/
  | abandoning

/-- A call that has not yet returned. -/
inductive Call (κ α : Type)
  | connecting (goal : Goal κ) (stage : Stage α)
  /-- Its request is registered and being sent. -/
  | sending (serial : Serial) (generation : Nat)

inductive Answer (α : Type)
  | session (found : Except Error (Session α))
  | supports (answer : Bool)
  | request (accepted : Except Error Serial)

structure Client (κ α : Type) where
  /-- The versions to look for, newest first. -/
  candidates : List Version
  /-- Whether the service exists on this deployment. -/
  supported : Bool
  retry : Option RetryPolicy
  attribution : Attribution
  nrCapabilities : List NrCapability
  inboxCapacity : Nat
  outstanding : Outstanding κ
  session : Option (Session α)
  /-- The number of sessions so far. -/
  generation : Nat
  gate : Gate
  /-- The calls that have not yet returned. -/
  calls : List (CallId × Call κ α)
  indications : Indications

/-! ## Commands and events -/

/-- What a client wants done, in order. The parties that do it may call the client back before the
next command. -/
inductive Command (κ α : Type)
  /-- Run a completion with its outcome. -/
  | complete (completion : κ) (outcome : Outcome)
  /-- Drop a completion that will never run. -/
  | discard (completion : κ)
  | discover (id : CallId) (version : Version)
  /-- Rest for about this long. How far the rest is off is up to chance. -/
  | rest (id : CallId) (delay : Duration)
  /-- Register for the death of a connection, under a cookie. -/
  | link (id : CallId) (connection : α) (cookie : Nat)
  /-- Direct responses and indications of a connection to the client. -/
  | route (id : CallId) (connection : α)
  | send (id : CallId) (connection : α) (serial : Serial) (op : Operation) (payload : Bytes)
  /-- The gate has let the call in; go on with it when its turn comes. -/
  | letIn (id : CallId)
  /-- Go on with the call at once. -/
  | proceed (id : CallId)
  | finish (id : CallId) (answer : Answer α)
  | breakOff (id : CallId) (why : Unrepresentable)

/-- What happens to a client. -/
inductive Event (κ α : Type)
  | call (id : CallId) (goal : Goal κ)
  /-- A call goes on that the gate has let in. -/
  | admitted (id : CallId)
  | found (id : CallId) (answer : Lookup α)
  | rested (id : CallId)
  | linked (id : CallId) (answer : Except Error Unit)
  | routed (id : CallId) (answer : Except Error Unit)
  /-- A call goes on after the commands before it. -/
  | proceeded (id : CallId)
  | sent (id : CallId) (answer : Except Error Unit)
  /-- Whoever began a call that waits drops it. -/
  | cancel (id : CallId)
  /-- A death is reported under a cookie. -/
  | died (cookie : Nat)
  /-- A session is given up by its number. -/
  | invalidate (generation : Nat)
  | respond (header : ResponseHeader) (payload : Bytes)
  | indicate (slots : List SlotStatus)
  | register
  | unregister
  | read (inbox : Nat)
  | abandon (inbox : Nat)
  | submit (op : Operation) (completion : κ) (attribution : Attribution)
  | take (serial : Serial)
  | flush (why : Error)
  | setNextSerial (serial : Serial)

end Baseband
