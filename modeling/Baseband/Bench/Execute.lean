import Baseband.Bench.Perform

/-!
# Working off the agenda

An item of the agenda is done completely, with everything that it sets off, before the next one. The
parties around the client answer its commands here: the directory or the provider answers lookups,
and services and scripted connections answer calls. A step inside a completion can be broken off;
the rest of the agenda is then given up.
-/

namespace Baseband.Bench.State

/-- Replace the script of a version. -/
def setScript (provider : List (Version × List LookupOutcome)) (version : Version)
    (script : List LookupOutcome) : List (Version × List LookupOutcome) :=
  provider.map fun entry => if entry.1 = version then (version, script) else entry

/-- What a scripted lookup answers. -/
def lookupAnswer (b : State) (version : Version) : Option LookupOutcome → Lookup Line
  | none | some .notFound => .error (.notFound version)
  | some .interrupted => .error (.interrupted scriptedFault)
  | some .transport => .error (.transport scriptedFault)
  | some .unavailable => .error .unavailable
  | some (.scripted number) => .ok (.scripted number, b.speaks (.scripted number))
  | some (.service number) => .ok (.service number, b.speaks (.service number))

def discover (b : State) (version : Version) : State × Lookup Line :=
  match b.provider with
  | none =>
    let (directory, answer) := b.directory.discover version
    let b := { b with directory }
    (b, answer.map fun number => (.service number, b.speaks (.service number)))
  | some provider =>
    let b := b.note (.discover version)
    match provider.lookup version with
    | none => (b, b.lookupAnswer version none)
    | some script =>
      let (outcome, script) := nextOutcome script
      ({ b with provider := some (setScript provider version script) },
        b.lookupAnswer version outcome)

/-- Answer a call of the client on a service. -/
def onService (b : State) (number : Nat) (event : Except Error Unit → Event Reaction Line)
    (f : Loopback.Service Party Party →
      Except Error (Loopback.Service Party Party × Option (Loopback.Reply Party))) : Effect :=
  match b.directory.services[number]? with
  | none => (b, [.event (event (.ok ()))])
  | some service =>
    match f service with
    | .ok (service, reply) =>
      ((b.putService number service).queueReply reply, [.event (event (.ok ()))])
    | .error why => (b, [.event (event (.error why))])

/-- Act out a call of the client on a scripted connection. -/
def playScripted (b : State) (number : Nat) (scripted : Scripted Party Party) (act : Act)
    (reply : List Item) (event : Except Error Unit → Event Reaction Line) : Effect :=
  let (scripted, recipients) := scripted.fall act
  ({ b with scripted := b.scripted.set number scripted },
    recipients.map .notify ++ (if act.replies then reply else []) ++ [.event (event act.answer)])

def linkLine (b : State) (line : Line) (cookie : Nat)
    (event : Except Error Unit → Event Reaction Line) : Effect :=
  match line with
  | .service number => b.onService number event fun service =>
    (service.link ⟨cookie, .client⟩).map fun service => (service, none)
  | .scripted number =>
    let b := b.note (.link number cookie)
    match b.scripted[number]? with
    | none => (b, [.event (event (.ok ()))])
    | some scripted =>
      let (act, links) := nextOutcome scripted.links
      let recipients := scripted.recipients ++ [⟨cookie, .client⟩]
      b.playScripted number { scripted with links, recipients } (act.getD .ok) [] event

def routeLine (b : State) (line : Line)
    (event : Except Error Unit → Event Reaction Line) : Effect :=
  match line with
  | .service number => b.onService number event fun service =>
    .ok (service.route b.sink, none)
  | .scripted number =>
    let b := b.note (.route number)
    match b.scripted[number]? with
    | none => (b, [.event (event (.ok ()))])
    | some scripted =>
      let (act, routes) := nextOutcome scripted.routes
      b.playScripted number { scripted with routes, sink := some b.sink } (act.getD .ok) [] event

def sendLine (b : State) (line : Line) (serial : Serial) (op : Operation) (payload : Bytes)
    (event : Except Error Unit → Event Reaction Line) : Effect :=
  match line with
  | .service number => b.onService number event fun service => service.send serial op payload
  | .scripted number =>
    let b := b.note (.send number serial op payload)
    match b.scripted[number]? with
    | none => (b, [.event (event (.ok ()))])
    | some scripted =>
      let (act, sends) := nextOutcome scripted.sends
      let reply := (b.reachable? scripted.sink).map fun sink =>
        .deliver sink (.solicited serial 0) Response.acknowledged.encode
      b.playScripted number { scripted with sends } (act.getD .ok) reply.toList event

def answerValue (b : State) : Answer Line → Value
  | .session (.ok session) => b.sessionValue session
  | .session (.error why) => .error why
  | .supports answer => .flag answer
  | .request (.ok serial) => .accepted serial
  | .request (.error why) => .error why

def execute (b : State) : Command Reaction Line → Effect
  | .complete completion outcome => b.complete outcome completion
  | .discard completion => (b.discard completion, [])
  | .discover id version =>
    let (b, answer) := b.discover version
    (b, [.event (.found id answer)])
  | .rest id delay => b.rest id delay
  | .link id connection cookie => b.linkLine connection cookie (.linked id)
  | .route id connection => b.routeLine connection (.routed id)
  | .send id connection serial op payload =>
    b.sendLine connection serial op payload (.sent id)
  | .letIn id => (b.wake id (.waited (.admitted id)), [])
  | .proceed id => (b, [.event (.proceeded id)])
  | .finish id answer => (b, [.settle id (b.answerValue answer)])
  | .breakOff id why => (b, [.settle id (.broken (.delay why))])

/-- Tell a recipient of a death. -/
def tell (b : State) (recipient : Loopback.Recipient Party) : Effect :=
  match recipient.observer with
  | .client => b.handle (.died recipient.cookie)
  | .recorder number =>
    match nameOf? b.observers number with
    | some name => (b.note (.died name recipient.cookie), [])
    | none => (b, [])

def deliver (b : State) (sink : Party) (header : ResponseHeader) (payload : Bytes) : Effect :=
  match sink with
  | .client => b.handle (.respond header payload)
  | .recorder number =>
    match nameOf? b.sinks number with
    | some name => (b.note (.response name header payload), [])
    | none => (b, [])

def indicate (b : State) (sink : Party) (slots : List SlotStatus) : Effect :=
  match sink with
  | .client => b.handle (.indicate slots)
  | .recorder number =>
    match nameOf? b.sinks number with
    | some name => (b.note (.indication name slots), [])
    | none => (b, [])

def start (b : State) (fiber : Nat) (step : Step) : Effect :=
  match step with
  | .acquire => b.call fiber .acquire
  | .supports op => b.call fiber (.supports op)
  | .call query completion =>
    let (b, reaction) := b.reactionOf completion
    b.call fiber (.request query reaction)
  | .join name =>
    match b.tasks.lookup name with
    | some number =>
      ({ b with tasks := forget b.tasks name }, [.join fiber number])
    | none => (b, [.settle fiber .nothing])
  | .concurrent steps =>
    let (b, numbers) := b.launchAll steps
    (b, [.gather fiber [] numbers])
  | step =>
    let (b, value, items) := b.perform step
    (b, items ++ [.settle fiber value])

/-- A reply arrives at its sink, if it has one. -/
def receiveReply (b : State) (reply : Loopback.Reply Party) : Effect :=
  match reply.sink with
  | some sink => b.deliver sink reply.header reply.payload
  | none => (b, [])

/-! ## Breaking off -/

/-- Give up an item. A completion that was to run or to be dropped is dropped. -/
def giveUp (b : State) : Item → State
  | .command (.complete completion _) | .command (.discard completion) => b.discard completion
  | _ => b

/-- A step inside a completion is broken off, and with it everything that has led to the completion:
the agenda is given up, and the fiber that has its turn returns the breakdown. No completion runs
inside the gate, since a session that is being set up has no requests, so the gate need not be
left. -/
def breakOff (b : State) (why : Breakdown) : Effect :=
  let b := b.agenda.foldl giveUp { b with agenda := [] }
  (b, (b.acting.map fun fiber => .settle fiber (.broken why)).toList)

/-- Do a step inside a completion. A step that waits is left out. -/
def react (b : State) (tag : String) (step : Step) : Effect :=
  if step.waits then (b, [])
  else
    match b.perform step with
    | (b, .broken why, _) => b.breakOff why
    | (b, value, items) => (b, items ++ [.note (.reacted tag value)])

def step (b : State) : Item → Effect
  | .command command => b.execute command
  | .event event => b.handle event
  | .notify recipient => b.tell recipient
  | .deliver sink header payload => b.deliver sink header payload
  | .indicate sink slots => b.indicate sink slots
  | .reply reply => b.receiveReply reply
  | .react tag step => b.react tag step
  | .note entry => (b.note entry, [])
  | .start fiber step => b.start fiber step
  | .call fiber goal => b.call fiber goal
  | .waited event => b.endWait.handle event
  | .join fiber other => b.awaitFiber fiber other (.join fiber other) (.settle fiber)
  | .gather fiber values others => b.gather fiber values others
  | .settle fiber value => (b.settle fiber value, [])

end Baseband.Bench.State
