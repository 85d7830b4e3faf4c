import Baseband.Loopback
import Baseband.Bench.Step
import Baseband.Client.Handle

/-!
# The state of a bench

Beside the client and the parties around it, a bench holds what is still to be done: the agenda of
what is being done, jobs that are ready to run in the order in which they became ready, and calls
that rest. What is seen is kept as entries of a log, and what steps return as values.
-/

namespace Baseband.Bench

/-! ## Scripted providers and connections

A script is a list of outcomes that are used up one by one; the last one repeats. A scripted
provider answers lookups from a script for each version, and a scripted connection acts on each call
from a script for that kind of call. -/

/-- The outcome that is next, and the script after it. -/
def nextOutcome {β : Type} : List β → Option β × List β
  | [] => (none, [])
  | [last] => (some last, [last])
  | outcome :: rest => (some outcome, rest)

inductive LookupOutcome
  | notFound
  | interrupted
  | transport
  | unavailable
  | scripted (number : Nat)
  | service (number : Nat)

/-- What a scripted connection does in a call: first its death or its reply, then its return. -/
structure Act where
  /-- All recipients are removed and told. -/
  dies : Bool
  /-- The sink gets an empty response of success. -/
  replies : Bool
  fails : Bool

def Act.ok : Act :=
  ⟨false, false, false⟩

/-- A scripted connection. Recipients and the sink are kept whatever the outcome. -/
structure Scripted (ω σ : Type) where
  version : Version
  links : List Act
  routes : List Act
  sends : List Act
  recipients : List (Loopback.Recipient ω)
  sink : Option σ

def scriptedFault : Fault :=
  .described "scripted"

def Act.answer (act : Act) : Except Error Unit :=
  if act.fails then .error (.transport scriptedFault) else .ok ()

/-- The recipients that are told in a call, and the connection after it. -/
def Scripted.fall {ω σ : Type} (s : Scripted ω σ) (act : Act) :
    Scripted ω σ × List (Loopback.Recipient ω) :=
  if act.dies then ({ s with recipients := [] }, s.recipients) else (s, [])

/-! ## The bench -/

/-- A connection on a bench. -/
inductive Line
  | service (number : Nat)
  | scripted (number : Nat)
deriving DecidableEq

/-- Someone who hears of deaths, responses and indications: the client, or a recorder. -/
inductive Party
  | client
  | recorder (number : Nat)
deriving DecidableEq

/-- A completion once it is made. -/
inductive Reaction
  | record (tag : String) (reactions : List Step)
  | ignore
  | channel (number : Nat)

/-- The outcome of a request on its way to whoever asks for it. -/
inductive Channel
  | open
  | filled (outcome : Outcome)
  | closed

/-- Why a step is broken off. -/
inductive Breakdown
  /-- The next delay of a discovery cannot be computed. -/
  | delay (why : Unrepresentable)
  /-- There is no inbox as large as the settings ask for. -/
  | inbox (why : Oversized)
deriving DecidableEq

def Breakdown.text : Breakdown → String
  | .delay why => why.text
  | .inbox why => why.text

inductive Value
  | nothing
  | flag (b : Bool)
  | number (n : Nat)
  | text (s : String)
  | version (v : Version)
  | found (v : Version)
  | versions (vs : List Version)
  | error (e : Error)
  | broken (why : Breakdown)
  | session (session : Session Line) (speaks : Version)
  | accepted (serial : Serial)
  | received (requests : List Loopback.Received)
  | slots (slots : List SlotStatus)
  | outcome (outcome : Outcome)
  | request (serial : Serial) (op : Operation) (attribution : Attribution)
  | recipient (cookie : Nat) (description : String)
  | nrCapabilities (capabilities : List NrCapability)
  | all (values : List Value)

/-- What is seen on a bench. -/
inductive Entry
  | complete (tag : String) (outcome : Outcome)
  | reacted (tag : String) (value : Value)
  | response (sink : String) (header : ResponseHeader) (payload : Bytes)
  | indication (sink : String) (slots : List SlotStatus)
  | died (observer : String) (cookie : Nat)
  | discover (version : Version)
  | link (scripted : Nat) (cookie : Nat)
  | route (scripted : Nat)
  | send (scripted : Nat) (serial : Serial) (op : Operation) (payload : Bytes)

/-- One thing to be done now. -/
inductive Item
  | command (command : Command Reaction Line)
  | event (event : Event Reaction Line)
  | notify (recipient : Loopback.Recipient Party)
  | deliver (sink : Party) (header : ResponseHeader) (payload : Bytes)
  | reply (reply : Loopback.Reply Party)
  | indicate (sink : Party) (slots : List SlotStatus)
  /-- Do a step inside a completion. -/
  | react (tag : String) (step : Step)
  | note (entry : Entry)
  | start (fiber : Nat) (step : Step)
  | call (fiber : Nat) (goal : Goal Reaction)
  /-- The wait of a call is over, and an event follows. -/
  | waited (event : Event Reaction Line)
  /-- Return what another fiber returns. -/
  | join (fiber other : Nat)
  /-- Return the values that are there and then those of other fibers. -/
  | gather (fiber : Nat) (values : List Value) (others : List Nat)
  | settle (fiber : Nat) (value : Value)

/-- What is to be done in a turn of its own, by a fiber or on its own account. -/
structure Job where
  fiber : Option Nat
  item : Item

/-- Where a step has come. Steps that wait for others refer to them by number. -/
inductive Fiber
  | running
  /-- It waits for another and then goes on with an item. -/
  | waiting (other : Nat) (next : Item)
  | returned (value : Value)

structure State where
  client : Client Reaction Line
  /-- Where the connections of the client direct their responses. -/
  sink : Party
  directory : Loopback.Directory Party Party
  /-- Who answers lookups in place of the directory. -/
  provider : Option (List (Version × List LookupOutcome))
  scripted : List (Scripted Party Party)
  recorders : Nat
  /-- The observers that are not dropped, by name. -/
  observers : List (String × Nat)
  sinks : List (String × Nat)
  recipients : List (String × Loopback.Recipient Party)
  held : List (String × Request Reaction)
  channels : List Channel
  /-- The channels that can be asked, by tag. -/
  tags : List (String × Nat)
  inboxes : List (String × Nat)
  tasks : List (String × Nat)
  fibers : List Fiber
  /-- What is left of what is being done. -/
  agenda : List Item
  /-- Jobs that can run as soon as the current step waits or ends, in order. -/
  ready : List Job
  /-- The fiber of the current step. -/
  foreground : Option Nat
  /-- How the current step goes on when its turn comes. -/
  woken : Option Item
  /-- The fiber that has its turn, if it is that of a fiber. -/
  acting : Option Nat
  /-- How many more waits may end in this turn. -/
  allowance : Nat
  /-- Fibers that let others run, each with how it goes on, latest first. -/
  deferred : List (Nat × Item)
  resting : List Nat
  /-- What was seen, latest first. -/
  log : List Entry

/-- The state after something, and what follows at once. -/
abbrev Effect := State × List Item

namespace State

/-- Enter a value under a name in place of the one before. -/
def enter {β : Type} (entries : List (String × β)) (name : String) (value : β) :
    List (String × β) :=
  (name, value) :: entries.filter fun entry => entry.1 != name

def forget {β : Type} (entries : List (String × β)) (name : String) : List (String × β) :=
  entries.filter fun entry => entry.1 != name

def note (b : State) (entry : Entry) : State :=
  { b with log := entry :: b.log }

/-- The name of a recorder in a table of those that are not dropped. -/
def nameOf? (entries : List (String × Nat)) (number : Nat) : Option String :=
  (entries.find? fun entry => entry.2 == number).map (·.1)

def handle (b : State) (event : Event Reaction Line) : Effect :=
  let (client, commands) := b.client.handle event
  ({ b with client }, commands.map .command)

def speaks (b : State) : Line → Version
  | .service number => ((b.directory.services[number]?).map (·.version)).getD default
  | .scripted number => ((b.scripted[number]?).map (·.version)).getD default

/-- The observer of a name, made on first use. -/
def observer (b : State) (name : String) : State × Party :=
  match b.observers.lookup name with
  | some number => (b, .recorder number)
  | none =>
    ({ b with recorders := b.recorders + 1, observers := enter b.observers name b.recorders },
      .recorder b.recorders)

/-- The sink of a name, made on first use. -/
def sinkNamed (b : State) (name : String) : State × Party :=
  match b.sinks.lookup name with
  | some number => (b, .recorder number)
  | none =>
    ({ b with recorders := b.recorders + 1, sinks := enter b.sinks name b.recorders },
      .recorder b.recorders)

/-- The party can still be reached as a sink. -/
def reaches (b : State) : Party → Bool
  | .client => true
  | .recorder number => (nameOf? b.sinks number).isSome

/-- A sink that can still be reached. -/
def reachable? (b : State) (sink : Option Party) : Option Party :=
  sink.filter b.reaches

def newChannel (b : State) : State × Nat :=
  ({ b with channels := b.channels ++ [.open] }, b.channels.length)

def reactionOf (b : State) : Completion → State × Reaction
  | .record tag reactions => (b, .record tag reactions)
  | .ignore => (b, .ignore)
  | .channel tag =>
    let (b, number) := b.newChannel
    ({ b with tags := enter b.tags tag number }, .channel number)
  | .dropped =>
    let (b, number) := b.newChannel
    (b, .channel number)

/-- Change a channel that is still open. -/
def closeChannel (b : State) (number : Nat) (channel : Channel) : State :=
  { b with channels := b.channels.modify number fun
      | .open => channel
      | other => other }

def discard (b : State) : Reaction → State
  | .channel number => b.closeChannel number .closed
  | _ => b

def complete (b : State) (outcome : Outcome) : Reaction → Effect
  | .record tag reactions =>
    (b.note (.complete tag outcome), reactions.map fun step => .react tag step)
  | .ignore => (b, [])
  | .channel number => (b.closeChannel number (.filled outcome), [])

end State

end Baseband.Bench
