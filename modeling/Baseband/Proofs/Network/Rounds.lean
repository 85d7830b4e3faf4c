import Baseband.Proofs.Outstanding.Ledger
import Baseband.Proofs.Client.Sending
import Baseband.Proofs.Network.Steps

/-!
# A request and its answer

A call that makes a request over a cached session returns at once: the request is refused, or it is
with the service and the answer is under way. When the answer arrives, the completion runs at once.
So each leads to one state, which is written out here.
-/

namespace Baseband

open Bench (Party)
open Loopback (Received Reply Service)

variable {κ : Type}

namespace Network

variable {s t u v : State κ} {item : Item κ} {rest : List (Item κ)}

/-! ## Exchanges -/

/-- A call that makes a request, and what it returns. -/
structure Exchange (κ : Type) where
  id : CallId
  query : Query
  completion : κ
  returned : Except Error Serial

namespace Exchange

variable (x : Exchange κ) (handler : Received → Option (Int32 × Response))

def call : Event κ Nat :=
  .call x.id (.request x.query x.completion)

def answer : CallId × Answer Nat :=
  (x.id, .request x.returned)

/-- The request as the service receives it, unless it has been refused. -/
def request? : Option Received :=
  match x.returned with
  | .ok serial => some (.of serial x.query.operation x.query.payload)
  | .error _ => none

def answered? : Option (κ × Outcome) :=
  x.request?.bind fun request => (handler request).map fun (status, response) =>
    (x.completion, Response.outcome x.query.operation status response.encode)

def outcome? : Option (κ × Outcome) :=
  match x.returned with
  | .ok _ => x.answered? handler
  | .error why => some (x.completion, .error why)

def reply? (sink : Option Party) : Option (Reply Party) :=
  x.request?.bind fun request => (handler request).map fun (status, response) =>
    ⟨sink, .solicited request.serial status, response.encode⟩

def outstanding? (attribution : Attribution) : Option (Entry κ) :=
  x.request?.map fun request => ⟨request.serial, request.operation, x.completion, attribution⟩

/-- The request as it stays outstanding because the service does not answer it. -/
def unanswered? (attribution : Attribution) : Option (Entry κ) :=
  if (x.answered? handler).isNone then x.outstanding? attribution else none

section Returned

variable (id : CallId) (query : Query) (completion : κ) (why : Error)

@[simp] theorem request?_of_error :
    (⟨id, query, completion, .error why⟩ : Exchange κ).request? = none :=
  rfl

@[simp] theorem outcome?_of_error :
    (⟨id, query, completion, .error why⟩ : Exchange κ).outcome? handler =
      some (completion, .error why) :=
  rfl

@[simp] theorem unanswered?_of_error (attribution : Attribution) :
    (⟨id, query, completion, .error why⟩ : Exchange κ).unanswered? handler attribution = none :=
  rfl

@[simp] theorem request?_of_ok (serial : Serial) :
    (⟨id, query, completion, .ok serial⟩ : Exchange κ).request? =
      some (.of serial query.operation query.payload) :=
  rfl

end Returned

/-- What the reply under way says. -/
theorem of_reply {x : Exchange κ} {handler : Received → Option (Int32 × Response)}
    {sink : Option Party} {reply : Reply Party} (answered : x.reply? handler sink = some reply) :
    reply.sink = sink ∧
      x.answered? handler = some (x.completion,
        Response.outcome x.query.operation reply.header.status reply.payload) ∧
      ∀ attribution, x.unanswered? handler attribution = none ∧
        x.outstanding? attribution =
          some ⟨reply.header.serial, x.query.operation, x.completion, attribution⟩ := by
  obtain ⟨id, query, completion, returned⟩ := x
  cases returned with
  | error why => cases answered
  | ok serial =>
    obtain ⟨⟨status, response⟩, handled, rfl⟩ := Option.map_eq_some_iff.1 answered
    have told : (⟨id, query, completion, .ok serial⟩ : Exchange κ).answered? handler =
        some (completion, Response.outcome query.operation status response.encode) := by
      simp [answered?, handled]
    exact ⟨rfl, told, fun attribution => ⟨by simp [unanswered?, told], rfl⟩⟩

end Exchange

/-! ## Nothing comes in between -/

/-- What is on the agenda is worked off, and nothing else happens. -/
abbrev Settles : State κ → State κ → Prop :=
  Leads fun _ _ => False

theorem Settles.next (settles : Settles s t) (idle : t.agenda = [])
    (next : s.agenda = item :: rest) (carried : (s.pop rest).carryOut item = u) : Settles u t :=
  carried ▸ settles.of_barred idle next fun _ => id

theorem Settles.eq_of_idle (settles : Settles s t) (idle : s.agenda = []) : t = s := by
  rcases settles.cases_head with same | ⟨_, step, -⟩
  · exact same.symm
  · cases step with
    | act _ _ admitted => exact admitted.elim
    | carryOut next => exact nomatch idle.symm.trans next

theorem State.raise_eq {event : Event κ Nat} {client : Client κ Nat}
    {commands : List (Command κ Nat)} (handled : s.client.handle event = (client, commands)) :
    s.raise event = ⟨client, s.directory, s.replies, commands.map .command ++ s.agenda,
      .event event :: s.history⟩ := by
  rw [raise, handled]

theorem State.ask_eq {number : Nat} {answer : Except Error Unit → Item κ}
    {f : Service Party Party → Except Error (Service Party Party × Option (Reply Party))}
    {service after : Service Party Party} {reply : Option (Reply Party)}
    (found : s.directory.services[number]? = some service)
    (accepted : f service = .ok (after, reply)) :
    s.ask number answer f =
      ⟨s.client, s.directory.modify number fun _ => after, s.replies ++ reply.toList,
        answer (.ok ()) :: s.agenda, s.history⟩ := by
  simp only [ask, found, accepted]
  rfl

/-! ## Rounds -/

section Rounds

variable {id : CallId} {query : Query} {completion : κ} {session : Session Nat}
  {service : Service Party Party} (idle : u.agenda = []) (unused : u.client.call? id = none)
  (supported : u.client.supported = true) (cached : u.client.session = some session)
  (done : v.agenda = [])
include idle unused supported cached done

/-- A request that the session does not support is refused, and that is all. -/
theorem State.eq_of_refused (lacks : session.supports query.operation = false)
    (settles : Settles (u.raise (.call id (.request query completion))) v) :
    let why : Error := .notSupported query.operation session.version
    v = { u with
      history := .command (.finish id (.request (.error why))) ::
        .command (.complete completion (.error why)) ::
        .event (.call id (.request query completion)) :: u.history } := by
  intro why
  rw [raise_eq (Client.handle_of_lacking unused supported cached lacks), idle] at settles
  have running :
      Settles ⟨_, _, _, [.running, .command (.finish id (.request (.error why)))], _⟩ v :=
    settles.next done rfl rfl
  have returning : Settles ⟨_, _, _, [.command (.finish id (.request (.error why)))], _⟩ v :=
    running.next done rfl rfl
  have returned : Settles ⟨_, _, _, [], _⟩ v := returning.next done rfl rfl
  rw [returned.eq_of_idle rfl, ← idle]
  rfl

/-- Any other request reaches the service, whose answer is then under way. -/
theorem State.eq_of_accepted (supports : session.supports query.operation = true)
    (found : u.directory.services[session.connection]? = some service)
    (alive : service.alive = true) (sends : service.failSends = false)
    (settles : Settles (u.raise (.call id (.request query completion))) v) :
    let serial := u.client.outstanding.freeSerial
    let x : Exchange κ := ⟨id, query, completion, .ok serial⟩
    v = { u with
      client := u.client.enter query.operation completion
      directory := u.directory.modify session.connection fun _ =>
        service.receive [.of serial query.operation query.payload]
      replies := u.replies ++ (x.reply? service.handler service.sink).toList
      history := .command (.finish id (.request (.ok serial))) :: .event (.sent id (.ok ())) ::
        .command (.send id session.connection serial query.operation query.payload) ::
        .event x.call :: u.history } := by
  intro serial x
  rw [raise_eq (Client.handle_of_supporting unused supported cached supports), idle] at settles
  let client := u.client.enter query.operation completion
  let directory := u.directory.modify session.connection fun _ =>
    service.receive [.of serial query.operation query.payload]
  let replies := u.replies ++ (x.reply? service.handler service.sink).toList
  let history : List (Happening κ Nat) :=
    .command (.send id session.connection serial query.operation query.payload) ::
      .event x.call :: u.history
  let waiting : State κ :=
    ⟨client.putCall id (.sending serial session.generation), directory, replies, [], history⟩
  have sent : Settles (waiting.push [.sent id (.ok ())]) v :=
    settles.next done rfl (ask_eq found (Service.send_of_alive alive sends _ _ _))
  have unused : client.call? id = none := unused
  have returning : Settles ⟨client, directory, replies,
      [.command (.finish id (.request (.ok serial)))], _⟩ v :=
    sent.next done rfl (raise_eq (s := waiting) (Client.handle_sent unused _ _))
  have returned : Settles ⟨client, directory, replies, [], _⟩ v := returning.next done rfl rfl
  rw [returned.eq_of_idle rfl, idle]
  rfl

end Rounds

section Delivery

variable {index : Nat} {reply : Reply Party} {request : Request κ}
  (listed : u.replies[index]? = some reply) (sink : reply.sink = some .client)
  (found : u.client.outstanding.find? reply.header.serial = some request)
include listed sink found

/-- An answer that arrives completes the request that is outstanding under its serial. -/
theorem State.deliver_eq :
    let outcome := Response.outcome request.operation reply.header.status reply.payload
    u.deliver index =
      ⟨{ u.client with outstanding := u.client.outstanding.erase reply.header.serial }, u.directory,
        u.replies.eraseIdx index, .command (.complete request.completion outcome) :: u.agenda,
        .event (.respond reply.header reply.payload) :: u.history⟩ := by
  intro outcome
  have handled : u.client.handle (.respond reply.header reply.payload) =
      ({ u.client with outstanding := u.client.outstanding.erase reply.header.serial },
        [.complete request.completion outcome]) := by
    simp only [Client.handle, Client.respond, found, outcome]
  simp only [deliver, listed, sink, if_true]
  exact raise_eq (s := { u with replies := u.replies.eraseIdx index }) handled

/-- An answer that is delivered completes its request, if it is outstanding, and nothing else
changes. -/
theorem State.eq_of_delivered (idle : u.agenda = []) (done : v.agenda = [])
    (settles : Settles (u.deliver index) v) :
    let outcome := Response.outcome request.operation reply.header.status reply.payload
    v = { u with
      client := { u.client with outstanding := u.client.outstanding.erase reply.header.serial }
      replies := u.replies.eraseIdx index
      history := .command (.complete request.completion outcome) ::
        .event (.respond reply.header reply.payload) :: u.history } := by
  intro outcome
  rw [deliver_eq listed sink found, idle] at settles
  have running : Settles ⟨_, _, _, [.running], _⟩ v := settles.next done rfl rfl
  have returned : Settles ⟨_, _, _, [], _⟩ v := running.next done rfl rfl
  rw [returned.eq_of_idle rfl, ← idle]
  rfl

end Delivery

end Network

end Baseband
