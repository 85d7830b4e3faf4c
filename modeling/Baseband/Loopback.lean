import Baseband.Response

/-!
# Services and directories in memory

A service records every request that it receives and answers some of them. It keeps a list of those
who want to hear of its death, each under a cookie of its own, and tells them once. What observers
and sinks are is left open.
-/

namespace Baseband.Loopback

/-! ## Services -/

/-- Someone who wants to hear of a death, and the cookie to report it under. -/
structure Recipient (ω : Type) where
  cookie : Nat
  observer : ω
deriving DecidableEq

/-- A request as a service receives it. -/
structure Received where
  serial : Serial
  operation : Operation
  /-- The number of the method that was called. -/
  methodId : UInt8
  payload : Bytes
deriving DecidableEq

/-- The request that a client sends. -/
def Received.of (serial : Serial) (operation : Operation) (payload : Bytes) : Received :=
  ⟨serial, operation, operation.methodId, payload⟩

/-- An answer under way to the sink that was set when the request came. -/
structure Reply (σ : Type) where
  sink : Option σ
  header : ResponseHeader
  payload : Bytes

structure Service (ω σ : Type) where
  version : Version
  alive : Bool
  failSends : Bool
  /-- Oldest registration first. -/
  recipients : List (Recipient ω)
  sink : Option σ
  /-- Oldest request first. -/
  received : List Received
  /-- The status and response for a request, or nothing if it stays unanswered. -/
  handler : Received → Option (Int32 × Response)

namespace Service

variable {ω σ : Type}

/-- A fresh service, that answers nothing. -/
def new (version : Version) : Service ω σ :=
  ⟨version, true, false, [], none, [], fun _ => none⟩

def link (s : Service ω σ) (recipient : Recipient ω) : Except Error (Service ω σ) :=
  if !s.alive then .error (.transport (.dead s.version))
  else if s.recipients.any fun r => r.cookie = recipient.cookie then
    .error (.transport (.alreadyLinked recipient.cookie s.version))
  else .ok { s with recipients := s.recipients ++ [recipient] }

def route (s : Service ω σ) (sink : σ) : Service ω σ :=
  { s with sink := some sink }

/-- Die, and name those who must be told. A dead service has nobody left to tell. -/
def kill (s : Service ω σ) : Service ω σ × List (Recipient ω) :=
  if s.alive then ({ s with alive := false, recipients := [] }, s.recipients) else (s, [])

/-- Receive a request, and answer it if the handler does. -/
def send (s : Service ω σ) (serial : Serial) (operation : Operation) (payload : Bytes) :
    Except Error (Service ω σ × Option (Reply σ)) :=
  if !s.alive then .error (.transport (.dead s.version))
  else if s.failSends then .error (.transport (.sendFailed serial s.version))
  else
    let request := Received.of serial operation payload
    let reply := (s.handler request).map fun (status, response) =>
      ⟨s.sink, .solicited serial status, response.encode⟩
    .ok ({ s with received := s.received ++ [request] }, reply)

end Service

/-! ## Directories

A directory knows which service is registered for each version and answers lookups. Lookups of a
version can be made to fail a number of times. Services are numbered in the order of their
registration and keep their number after another one has taken their place. -/

structure Directory (ω σ : Type) where
  /-- Every service that was ever registered. -/
  services : List (Service ω σ)
  /-- The number of the service that is registered for a version. -/
  registered : List (Version × Nat)
  /-- How many lookups of a version will still fail. -/
  failures : List (Version × Nat)
  /-- Every lookup, latest first. -/
  probed : List Version

namespace Directory

variable {ω σ : Type}

def empty : Directory ω σ :=
  ⟨[], [], [], []⟩

def enter {β : Type} (entries : List (Version × β)) (version : Version) (value : β) :
    List (Version × β) :=
  (version, value) :: entries.filter fun entry => entry.1 != version

/-- Register a fresh service. Its number is the number of services before. -/
def register (d : Directory ω σ) (version : Version) : Directory ω σ :=
  { d with
    services := d.services ++ [.new version]
    registered := enter d.registered version d.services.length }

/-- Remove the registration of a version. The service lives on. -/
def unregister (d : Directory ω σ) (version : Version) : Directory ω σ :=
  { d with registered := d.registered.filter fun entry => entry.1 != version }

def probes (d : Directory ω σ) : List Version :=
  d.probed.reverse

/-- Some service is registered for the version. -/
def isRegistered (d : Directory ω σ) (version : Version) : Bool :=
  (d.registered.lookup version).isSome

/-- Let the next lookups of a version fail. -/
def failDiscovery (d : Directory ω σ) (version : Version) (times : Nat) : Directory ω σ :=
  { d with failures := enter d.failures version times }

/-- How many lookups of the version will still fail. -/
def failuresLeft (d : Directory ω σ) (version : Version) : Nat :=
  (d.failures.lookup version).getD 0

/-- The number of the live service that is registered for a version. -/
def live? (d : Directory ω σ) (version : Version) : Option Nat :=
  (d.registered.lookup version).filter fun number =>
    match d.services[number]? with
    | some service => service.alive
    | none => false

def discover (d : Directory ω σ) (version : Version) : Directory ω σ × Except Error Nat :=
  let d := { d with probed := version :: d.probed }
  match d.failuresLeft version with
  | left + 1 =>
    (d.failDiscovery version left, .error (.interrupted (.lookupInterrupted version)))
  | 0 =>
    match d.live? version with
    | some number => (d, .ok number)
    | none => (d, .error (.notFound version))

/-- Change the service of a number. -/
def modify (d : Directory ω σ) (number : Nat) (f : Service ω σ → Service ω σ) : Directory ω σ :=
  { d with services := d.services.modify number f }

end Directory

end Baseband.Loopback
