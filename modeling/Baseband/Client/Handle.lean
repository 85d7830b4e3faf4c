import Baseband.Client.Basic

/-!
# The behaviour of a client

Each event changes the state and leaves commands. Connecting goes through the gate, looks the
candidates up, installs what it finds as the new session, and only then registers for its death and
directs its responses; so a death that comes while linking finds the session current. A session ends
together with all its requests.
-/

namespace Baseband.Client

variable {κ α : Type}

/-- What an event leads to. -/
abbrev Effect (κ α : Type) := Client κ α × List (Command κ α)

/-- A client that has done nothing yet. -/
def ofSettings (settings : Settings) : Client κ α where
  candidates := Version.newestFirst settings.candidates
  supported := settings.mobileNetwork
  retry := settings.retry
  attribution := settings.attribution
  nrCapabilities := settings.nrCapabilities
  inboxCapacity := settings.inboxCapacity.toNat
  outstanding := .empty
  session := none
  generation := 0
  gate := .empty
  calls := []
  indications := .empty

def call? (c : Client κ α) (id : CallId) : Option (Call κ α) :=
  c.calls.lookup id

def dropCall (c : Client κ α) (id : CallId) : Client κ α :=
  { c with calls := c.calls.filter fun entry => entry.1 != id }

/-- Note how far a call has come. -/
def putCall (c : Client κ α) (id : CallId) (call : Call κ α) : Client κ α :=
  let c := c.dropCall id
  { c with calls := c.calls ++ [(id, call)] }

/-- The growth of delays; without a policy there are none. -/
def growth (c : Client κ α) : Growth :=
  match c.retry with
  | some policy => policy.growth
  | none => .ok

/-- The delays of a discovery. -/
def freshBackoff (c : Client κ α) : Option Backoff :=
  c.retry.map .ofPolicy

/-! ## Losing a session -/

/-- Run the completions of requests, in order, with the same error. -/
def failAll (requests : List (Request κ)) (why : Error) : List (Command κ α) :=
  requests.map fun request => .complete request.completion (.error why)

/-- The cached session is the one of this number. -/
def isCurrent (c : Client κ α) (generation : Nat) : Bool :=
  match c.session with
  | some session => session.generation = generation
  | none => false

/-- End a session: forget it and all requests, and fail these. Does nothing unless the session is
the cached one. -/
def teardown (c : Client κ α) (generation : Nat) : Effect κ α :=
  if c.isCurrent generation then
    ({ c with session := none, outstanding := c.outstanding.clear },
      failAll c.outstanding.toList .unavailable)
  else (c, [])

/-! ## Connecting -/

/-- Return an error of a request and give it to its completion as well. -/
def refuse (c : Client κ α) (id : CallId) (completion : κ) (why : Error) : Effect κ α :=
  (c, [.complete completion (.error why), .finish id (.request (.error why))])

/-- A call has its session, or none. A request is registered and sent if the session supports it. -/
def conclude (c : Client κ α) (id : CallId) (goal : Goal κ)
    (found : Except Error (Session α)) : Effect κ α :=
  match goal with
  | .acquire => (c, [.finish id (.session found)])
  | .supports op =>
    let answer := match found with
      | .ok session => session.supports op
      | .error _ => false
    (c, [.finish id (.supports answer)])
  | .request query completion =>
    match found with
    | .error why => c.refuse id completion why
    | .ok session =>
      let op := query.operation
      if session.supports op then
        let (serial, outstanding) := c.outstanding.submit op completion c.attribution
        let c := { c with outstanding }
        (c.putCall id (.sending serial session.generation),
          [.send id session.connection serial op query.payload])
      else c.refuse id completion (.notSupported op session.version)

/-- Leave the gate with a session, or none. Whoever is let in goes on later. -/
def leaveGate (c : Client κ α) (id : CallId) (goal : Goal κ)
    (found : Except Error (Session α)) : Effect κ α :=
  let gate := c.gate.leave
  let (c, commands) := ({ c with gate }.dropCall id).conclude id goal found
  (c, (gate.holder.map .letIn).toList ++ commands)

/-- Let go of the completion of a goal, if it has one. It never runs. -/
def letGo : Goal κ → List (Command κ α)
  | .request _ completion => [.discard completion]
  | _ => []

/-- Leave the gate without returning. Whoever is let in goes on later. -/
def forsake (c : Client κ α) (id : CallId) (goal : Goal κ) : Effect κ α :=
  let gate := c.gate.leave
  ({ c with gate }.dropCall id, (gate.holder.map .letIn).toList ++ letGo goal)

/-- Break the call off inside the gate. -/
def breakOff (c : Client κ α) (id : CallId) (goal : Goal κ) (why : Unrepresentable) :
    Effect κ α :=
  let (c, commands) := c.forsake id goal
  (c, commands ++ [.breakOff id why])

/-- A pass has found nothing: rest before another pass, or return empty-handed. -/
def endPass (c : Client κ α) (id : CallId) (goal : Goal κ) (backoff : Option Backoff)
    (why : Error) : Effect κ α :=
  match Backoff.afterPass c.growth backoff why with
  | .over => c.leaveGate id goal (.error .unavailable)
  | .again delay rest =>
    (c.putCall id (.connecting goal (.resting (some rest))), [.rest id delay])
  | .failed why => c.breakOff id goal why

/-- Look the next of the remaining candidates up. -/
def probe (c : Client κ α) (id : CallId) (goal : Goal κ) (backoff : Option Backoff) :
    List Version → Effect κ α
  | [] => c.endPass id goal backoff .unavailable
  | version :: rest =>
    (c.putCall id (.connecting goal (.probing version rest backoff)), [.discover id version])

/-- Inside the gate: use the session that somebody else has found meanwhile, or look for one. -/
def search (c : Client κ α) (id : CallId) (goal : Goal κ) : Effect κ α :=
  match c.session with
  | some session => c.leaveGate id goal (.ok session)
  | none => c.probe id goal c.freshBackoff c.candidates

def begin (c : Client κ α) (id : CallId) (goal : Goal κ) : Effect κ α :=
  if !c.supported then c.conclude id goal (.error .unavailable)
  else
    match c.session with
    | some session => c.conclude id goal (.ok session)
    | none =>
      let c := { c with gate := c.gate.enter id }
      if c.gate.holder = some id then c.search id goal
      else (c.putCall id (.connecting goal .queued), [])

/-- Install a connection as the session, then register for its death. -/
def install (c : Client κ α) (id : CallId) (goal : Goal κ) (version : Version)
    (connection : α) : Effect κ α :=
  let generation := c.generation + 1
  let session : Session α := { version, connection, generation }
  let c := { c with generation, session := some session }
  (c.putCall id (.connecting goal (.linking session)), [.link id connection generation])

/-- Give up a session that could not be set up. The call goes on after the lost requests. -/
def abandon (c : Client κ α) (id : CallId) (goal : Goal κ) (session : Session α) : Effect κ α :=
  let (c, commands) := c.teardown session.generation
  (c.putCall id (.connecting goal .abandoning), commands ++ [.proceed id])

/-! ## Sending -/

/-- A request could not be sent: its session ends with all requests, and if the session has ended
already, the request alone fails. -/
def sendFailed (c : Client κ α) (id : CallId) (serial : Serial) (generation : Nat) :
    Effect κ α :=
  let c := c.dropCall id
  let returned : List (Command κ α) := [.finish id (.request (.ok serial))]
  if c.isCurrent generation then
    let (c, commands) := c.teardown generation
    (c, commands ++ returned)
  else
    match c.outstanding.find? serial with
    | some request =>
      ({ c with outstanding := c.outstanding.erase serial },
        .complete request.completion (.error .unavailable) :: returned)
    | none => (c, returned)

/-- A response arrives. One whose serial is not outstanding is ignored. -/
def respond (c : Client κ α) (header : ResponseHeader) (payload : Bytes) : Effect κ α :=
  match c.outstanding.find? header.serial with
  | none => (c, [])
  | some request =>
    let outcome := Response.outcome request.operation header.status payload
    ({ c with outstanding := c.outstanding.erase header.serial },
      [.complete request.completion outcome])

/-- Someone registers for indications. Nothing changes if the inbox would be oversized. -/
def register (c : Client κ α) : Effect κ α :=
  match c.indications.register c.inboxCapacity with
  | .ok indications => ({ c with indications }, [])
  | .error _ => (c, [])

/-! ## Events -/

/-- Go on with a connecting call. An event that does not fit its stage is ignored. -/
def connect (c : Client κ α) (id : CallId) (goal : Goal κ) : Stage α → Event κ α → Effect κ α
  | .queued, .admitted _ => if c.gate.holder = some id then c.search id goal else (c, [])
  | .probing version rest backoff, .found _ answer =>
    match Probe.judge version answer with
    | .found connection => c.install id goal version connection
    | .next => c.probe id goal backoff rest
    | .stop why => c.endPass id goal backoff why
  | .resting backoff, .rested _ => c.probe id goal backoff c.candidates
  | .linking session, .linked _ answer =>
    match answer with
    | .ok () =>
      (c.putCall id (.connecting goal (.routing session)), [.route id session.connection])
    | .error _ => c.abandon id goal session
  | .routing session, .routed _ answer =>
    match answer with
    | .ok () =>
      c.leaveGate id goal
        (if c.isCurrent session.generation then .ok session else .error .unavailable)
    | .error _ => c.abandon id goal session
  | .abandoning, .proceeded _ => c.leaveGate id goal (.error .unavailable)
  | _, _ => (c, [])

/-- Go on with a call. An event that does not fit its stage is ignored. -/
def advance (c : Client κ α) (id : CallId) (event : Event κ α) : Effect κ α :=
  match c.call? id, event with
  | some (.connecting goal stage), event => c.connect id goal stage event
  | some (.sending serial generation), .sent _ answer =>
    match answer with
    | .ok () => (c.dropCall id, [.finish id (.request (.ok serial))])
    | .error _ => c.sendFailed id serial generation
  | _, _ => (c, [])

/-- Drop a call that waits: for the gate, for a lookup, for a rest to be over, or for its request to
be sent. A request that is registered stays so. -/
def cancel (c : Client κ α) (id : CallId) : Effect κ α :=
  match c.call? id with
  | some (.connecting goal stage) =>
    match stage with
    | .queued =>
      if c.gate.holder = some id then c.forsake id goal
      else ({ c with gate := c.gate.withdraw id }.dropCall id, letGo goal)
    | .probing .. | .resting _ => c.forsake id goal
    | .linking _ | .routing _ | .abandoning => (c, [])
  | some (.sending ..) => (c.dropCall id, [])
  | none => (c, [])

/-- What an event leads to. -/
def handle (c : Client κ α) (event : Event κ α) : Effect κ α :=
  match event with
  | .call id goal => if (c.call? id).isSome then (c, []) else c.begin id goal
  | .admitted id | .found id _ | .rested id | .linked id _ | .routed id _ | .proceeded id
  | .sent id _ => c.advance id event
  | .cancel id => c.cancel id
  | .died generation | .invalidate generation => c.teardown generation
  | .respond header payload => c.respond header payload
  | .indicate slots => ({ c with indications := c.indications.deliver slots }, [])
  | .register => c.register
  | .unregister => ({ c with indications := c.indications.unregister }, [])
  | .read inbox => ({ c with indications := c.indications.advance inbox }, [])
  | .abandon inbox => ({ c with indications := c.indications.abandon inbox }, [])
  | .submit op completion attribution =>
    ({ c with outstanding := (c.outstanding.submit op completion attribution).2 }, [])
  | .take serial => ({ c with outstanding := c.outstanding.erase serial }, [])
  | .flush why => ({ c with outstanding := c.outstanding.clear }, failAll c.outstanding.toList why)
  | .setNextSerial serial => ({ c with outstanding := c.outstanding.startAt serial }, [])

end Baseband.Client
