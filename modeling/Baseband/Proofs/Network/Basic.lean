import Mathlib.Logic.Relation
import Baseband.Bench.Basic
import Baseband.Proofs.Client.Setup
import Baseband.Proofs.Run.Basic

/-!
# A client among services

The client and the services that it finds are put together. A service does at once what the client
asks of it, and answers; whoever is told of a death is told in turn. What is still to be done stands
on an agenda, and what something leads to is done before the rest.

Between any two things on the agenda an act can come from outside: a call begins or goes on, a
service dies or starts to fail, somebody reports a death that has not happened. Which acts a run
allows is a parameter, so that each result says what it needs.
-/

namespace Baseband.Network

open Bench (Party)
open Loopback (Directory Received Recipient Reply Service)

variable {κ : Type}

inductive Item (κ : Type)
  | command (command : Command κ Nat)
  | linked (id : CallId) (answer : Except Error Unit)
  | routed (id : CallId) (answer : Except Error Unit)
  | sent (id : CallId) (answer : Except Error Unit)
  | proceeded (id : CallId)
  /-- Tell a recipient of a death. -/
  | notify (recipient : Recipient Party)
  /-- A completion runs, and then returns. -/
  | running

/-- What can come from outside. -/
inductive Act (κ : Type)
  | event (event : Event κ Nat)
  /-- The directory answers the lookup of a call. -/
  | lookUp (id : CallId) (version : Version)
  | register (version : Version)
  | unregister (version : Version)
  | failDiscovery (version : Version) (times : Nat)
  | kill (number : Nat)
  | failSends (number : Nat) (fail : Bool)
  | setHandler (number : Nat) (handler : Received → Option (Int32 × Response))
  /-- Someone else registers for a death. -/
  | link (number : Nat) (recipient : Recipient Party)
  /-- One of the replies under way arrives. -/
  | deliver (index : Nat)

/-- No call goes on by the act, so that a completion can do it as well. -/
def Act.isSynchronous : Act κ → Bool
  | .event raised => raised.isSynchronous
  | .lookUp .. | .deliver _ => false
  | _ => true

/-- The client, the services, and what lies between them. A connection is the number of a
service. -/
structure State (κ : Type) where
  client : Client κ Nat
  directory : Directory Party Party
  /-- The answers to requests that are under way. -/
  replies : List (Reply Party)
  /-- What is still to be done, the next first. -/
  agenda : List (Item κ)
  /-- What has happened to the client, the latest first. -/
  history : List (Happening κ Nat)

namespace State

def initial (settings : Settings) : State κ :=
  ⟨.ofSettings settings, .empty, [], [], []⟩

def pop (s : State κ) (rest : List (Item κ)) : State κ :=
  { s with agenda := rest }

def note (s : State κ) (happening : Happening κ Nat) : State κ :=
  { s with history := happening :: s.history }

def push (s : State κ) (items : List (Item κ)) : State κ :=
  { s with agenda := items ++ s.agenda }

def raise (s : State κ) (event : Event κ Nat) : State κ where
  client := (s.client.handle event).1
  directory := s.directory
  replies := s.replies
  agenda := (s.client.handle event).2.map .command ++ s.agenda
  history := .event event :: s.history

def modify (s : State κ) (number : Nat) (f : Service Party Party → Service Party Party) :
    State κ :=
  { s with directory := s.directory.modify number f }

/-- Ask something of a service, and have the answer taken back. -/
def ask (s : State κ) (number : Nat) (answer : Except Error Unit → Item κ)
    (f : Service Party Party → Except Error (Service Party Party × Option (Reply Party))) :
    State κ :=
  match s.directory.services[number]? with
  | none => s.push [answer (.ok ())]
  | some service =>
    match f service with
    | .ok (after, reply) =>
      { s.modify number fun _ => after with replies := s.replies ++ reply.toList }.push
        [answer (.ok ())]
    | .error why => s.push [answer (.error why)]

/-- What the parties around the client do at its command. -/
def perform (s : State κ) : Command κ Nat → State κ
  | .complete .. => s.push [.running]
  | .link id connection cookie =>
    s.ask connection (.linked id) fun service =>
      (service.link ⟨cookie, .client⟩).map fun after => (after, none)
  | .route id connection =>
    s.ask connection (.routed id) fun service => .ok (service.route .client, none)
  | .send id connection serial op payload =>
    s.ask connection (.sent id) fun service => service.send serial op payload
  | .proceed id => s.push [.proceeded id]
  | .discard _ | .discover .. | .rest .. | .letIn _ | .finish .. | .breakOff .. => s

def tell (s : State κ) (recipient : Recipient Party) : State κ :=
  match recipient.observer with
  | .client => s.raise (.died recipient.cookie)
  | .recorder _ => s

def carryOut (s : State κ) : Item κ → State κ
  | .command wanted => (s.note (.command wanted)).perform wanted
  | .linked id answer => s.raise (.linked id answer)
  | .routed id answer => s.raise (.routed id answer)
  | .sent id answer => s.raise (.sent id answer)
  | .proceeded id => s.raise (.proceeded id)
  | .notify recipient => s.tell recipient
  | .running => s

/-- A service dies, and all that it knows of are told in turn. -/
def kill (s : State κ) (number : Nat) : State κ :=
  match s.directory.services[number]? with
  | none => s
  | some service =>
    (s.modify number fun _ => service.kill.1).push (service.kill.2.map .notify)

def deliver (s : State κ) (index : Nat) : State κ :=
  match s.replies[index]? with
  | none => s
  | some reply =>
    let s := { s with replies := s.replies.eraseIdx index }
    if reply.sink = some .client then s.raise (.respond reply.header reply.payload) else s

def speaks (s : State κ) (number : Nat) : Version :=
  ((s.directory.services[number]?).map (·.version)).getD default

def lookUp (s : State κ) (id : CallId) (version : Version) : State κ :=
  let (directory, answer) := s.directory.discover version
  let s := { s with directory }
  s.raise (.found id (answer.map fun number => (number, s.speaks number)))

def act (s : State κ) : Act κ → State κ
  | .event event => s.raise event
  | .lookUp id version => s.lookUp id version
  | .register version => { s with directory := s.directory.register version }
  | .unregister version => { s with directory := s.directory.unregister version }
  | .failDiscovery version times =>
    { s with directory := s.directory.failDiscovery version times }
  | .kill number => s.kill number
  | .failSends number fail => s.modify number fun service => { service with failSends := fail }
  | .setHandler number handler => s.modify number fun service => { service with handler }
  | .link number recipient =>
    s.modify number fun service =>
      match service.link recipient with
      | .ok after => after
      | .error _ => service
  | .deliver index => s.deliver index

/-- Whoever answers lookups names services with their versions, services answer for themselves, and
nobody registers in the name of the client. -/
def Possible (s : State κ) : Act κ → Prop
  | .event (.found _ (.ok (number, speaks))) =>
    ∃ service, s.directory.services[number]? = some service ∧ service.version = speaks
  | .event (.linked ..) | .event (.routed ..) | .event (.sent ..) | .event (.proceeded _) => False
  | .link _ recipient => recipient.observer ≠ .client
  | _ => True

def done (s : State κ) : List (Command κ Nat) :=
  Happening.done s.history

def events (s : State κ) : List (Event κ Nat) :=
  Happening.events s.history

def InCompletion (s : State κ) : Prop :=
  ∃ rest, s.agenda = .running :: rest

end State

/-- One step, where these acts are allowed. -/
inductive Step (allowed : State κ → Act κ → Prop) : State κ → State κ → Prop
  | act {s : State κ} (act : Act κ) (possible : s.Possible act) (admitted : allowed s act) :
      Step allowed s (s.act act)
  | carryOut {s : State κ} {item : Item κ} {rest : List (Item κ)} (next : s.agenda = item :: rest) :
      Step allowed s ((s.pop rest).carryOut item)

abbrev Leads (allowed : State κ → Act κ → Prop) : State κ → State κ → Prop :=
  Relation.ReflTransGen (Step allowed)

/-- A run starts with the candidates in order. -/
theorem initial_of_candidates {settings : Settings} (versions : List Version)
    (order : Version.newestFirst settings.candidates = versions) :
    (.initial settings : State κ) =
      ⟨{ Client.ofSettings settings with candidates := versions }, .empty, [], [], []⟩ := by
  subst order
  rfl

def ByCompletions (s : State κ) (act : Act κ) : Prop :=
  s.InCompletion ∧ act.isSynchronous = true

/-- Nothing comes while something is still to be done, except from a completion that runs. -/
def InTurn (s : State κ) (act : Act κ) : Prop :=
  s.agenda = [] ∨ ByCompletions s act

end Baseband.Network
