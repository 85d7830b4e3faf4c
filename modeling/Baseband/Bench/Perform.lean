import Baseband.Bench.Fibers
import Baseband.Text.Quoted

/-!
# Steps that do not wait

A step that does not wait returns its value at once; what it sets off follows as items.
-/

namespace Baseband

/-! ## Descriptions

One-line descriptions of values for logs: the name of the type and its fields in braces. Two dots
stand for what is left out. -/

/-- The name of a type and its described fields. -/
def describeFields (name : String) (fields : List String) : String :=
  name ++ " \x7b " ++ String.intercalate ", " fields ++ " \x7d"

def describeField (name value : String) : String :=
  name ++ ": " ++ value

def Version.description (v : Version) : String :=
  describeFields "HalVersion"
    [describeField "major" (toString v.major), describeField "minor" (toString v.minor)]

def Session.description {α : Type} (s : Session α) : String :=
  describeFields "SessionHandle"
    [describeField "version" s.version.description,
      describeField "generation" (toString s.generation), ".."]

def Attribution.description (w : Attribution) : String :=
  describeFields "WorkSource"
    [describeField "uid" (toString w.uid), describeField "package" (Text.quoted w.package)]

def Request.description {κ : Type} (r : Request κ) : String :=
  describeFields "PendingRequest"
    [describeField "serial" ("Serial(" ++ toString r.serial.value ++ ")"),
      describeField "kind" r.operation.name,
      describeField "work_source" r.attribution.description, ".."]

def Loopback.Recipient.description {ω : Type} (r : Loopback.Recipient ω) : String :=
  describeFields "DeathRecipient" [describeField "cookie" (toString r.cookie), ".."]

/-- The description of a completion tells whether it has anything to run. -/
def describeCompletion (armed : Bool) : String :=
  describeFields "Completion" [describeField "armed" (if armed then "true" else "false")]

namespace Bench.State

/-! ## Single steps -/

/-- The state after a step, what it returns, and what follows at once. -/
abbrev Performed := State × Value × List Item

def act (b : State) (event : Event Reaction Line) (value : Value) : Performed :=
  let (b, items) := b.handle event
  (b, value, items)

def report (b : State) (value : Value) : Performed :=
  (b, value, [])

/-- Return what a table holds under a name, or nothing. -/
def look {β : Type} (b : State) (entries : List (String × β)) (name : String)
    (f : β → Performed) : Performed :=
  match entries.lookup name with
  | some entry => f entry
  | none => b.report .nothing

/-- Do something with a service, if there is one of the number. -/
def withService (b : State) (number : Nat)
    (f : Loopback.Service Party Party → Performed) : Performed :=
  match b.directory.services[number]? with
  | some service => f service
  | none => b.report .nothing

def putService (b : State) (number : Nat) (service : Loopback.Service Party Party) : State :=
  { b with directory := b.directory.modify number fun _ => service }

/-- A reply gets under way, if there is one. -/
def queueReply (b : State) (reply : Option (Loopback.Reply Party)) : State :=
  match reply with
  | some reply => b.queue ⟨none, .reply reply⟩
  | none => b

/-- The handler of a table of replies. -/
def handlerOf (replies : List (Operation × Int32 × Response)) (request : Loopback.Received) :
    Option (Int32 × Response) :=
  replies.lookup request.operation

/-- Return nothing, or the error of a call. -/
def settled : Except Error Unit → Value
  | .ok () => .text "ok"
  | .error why => .error why

def performNetwork (b : State) : Step → Performed
  | .register version =>
    ({ b with directory := b.directory.register version }, .number b.directory.services.length, [])
  | .unregister version =>
    ({ b with directory := b.directory.unregister version },
      .flag (b.directory.isRegistered version), [])
  | .failDiscovery version times =>
    ({ b with directory := b.directory.failDiscovery version times }, .nothing, [])
  | .probes => b.report (.versions b.directory.probes)
  | .discover version =>
    let (directory, answer) := b.directory.discover version
    let b := { b with directory }
    match answer with
    | .ok number => b.report (.found (b.speaks (.service number)))
    | .error why => b.report (.error why)
  | .kill number => b.withService number fun service =>
    let (service, recipients) := service.kill
    (b.putService number service, .nothing, recipients.map .notify)
  | .isAlive number => b.withService number fun service => b.report (.flag service.alive)
  | .failSends number fail => b.withService number fun service =>
    (b.putService number { service with failSends := fail }, .nothing, [])
  | .received number => b.withService number fun service => b.report (.received service.received)
  | .respond number header payload => b.withService number fun service =>
    (b, .nothing, ((b.reachable? service.sink).map fun sink =>
      .deliver sink header payload).toList)
  | .indicate number slots => b.withService number fun service =>
    (b, .nothing, ((b.reachable? service.sink).map fun sink => .indicate sink slots).toList)
  | .setHandler number replies => b.withService number fun service =>
    (b.putService number { service with handler := handlerOf replies }, .nothing, [])
  | .link number cookie observer =>
    let (b, observer) := b.observer observer
    b.withService number fun service =>
      match service.link ⟨cookie, observer⟩ with
      | .ok service => (b.putService number service, .text "ok", [])
      | .error why => b.report (.error why)
  | .setSink number sink =>
    let (b, sink) := b.sinkNamed sink
    b.withService number fun service => (b.putService number (service.route sink), .text "ok", [])
  | .send number serial op payload => b.withService number fun service =>
    match service.send serial op payload with
    | .ok (service, reply) => ((b.putService number service).queueReply reply, .text "ok", [])
    | .error why => b.report (.error why)
  | _ => b.report .nothing

def performRecorder (b : State) : Step → Performed
  | .dropObserver name =>
    ({ b with observers := forget b.observers name }, .flag (b.observers.lookup name).isSome, [])
  | .dropSink name =>
    ({ b with sinks := forget b.sinks name }, .flag (b.sinks.lookup name).isSome, [])
  | .newRecipient name cookie observer =>
    let (b, observer) := b.observer observer
    let recipient : Loopback.Recipient Party := ⟨cookie, observer⟩
    ({ b with recipients := enter b.recipients name recipient },
      .recipient cookie recipient.description, [])
  | .notify name => b.look b.recipients name fun recipient => (b, .nothing, [.notify recipient])
  | .breakScripted number =>
    match b.scripted[number]? with
    | some scripted =>
      ({ b with scripted := b.scripted.set number { scripted with recipients := [] } }, .nothing,
        scripted.recipients.map .notify)
    | none => b.report .nothing
  | .respondScripted number header payload =>
    match b.reachable? ((b.scripted[number]?).bind (·.sink)) with
    | some sink => (b, .flag true, [.deliver sink header payload])
    | none => b.report (.flag false)
  | _ => b.report .nothing

def sessionValue (b : State) (session : Session Line) : Value :=
  .session session (b.speaks session.connection)

def performClient (b : State) : Step → Performed
  | .current => b.report ((b.client.session.map b.sessionValue).getD .nothing)
  | .describeCurrent =>
    b.report ((b.client.session.map fun session => .text session.description).getD .nothing)
  | .serviceDied cookie => b.act (.died cookie) .nothing
  | .invalidate generation =>
    b.act (.invalidate generation) (.flag (b.client.isCurrent generation))
  | .isSupported => b.report (.flag b.client.supported)
  | .connectedVersion =>
    b.report ((b.client.session.map fun session => .version session.version).getD .nothing)
  | .nrCapabilities => b.report (.nrCapabilities b.client.nrCapabilities)
  | .registerIndications name =>
    match b.client.indications.register b.client.inboxCapacity with
    | .error why => b.report (.broken (.inbox why))
    | .ok _ =>
      let number := b.client.indications.inboxes.length
      let b := match b.inboxes.lookup name with
        | some old => (b.handle (.abandon old)).1
        | none => b
      { b with inboxes := enter b.inboxes name number }.act .register .nothing
  | .unregisterIndications => b.act .unregister .nothing
  | .receive name => b.look b.inboxes name fun inbox =>
    match b.client.indications.peek inbox with
    | .slots slots => b.act (.read inbox) (.slots slots)
    | .empty => b.report (.text "empty")
    | .closed => b.report (.text "closed")
  | .dropInbox name =>
    match b.inboxes.lookup name with
    | some inbox => { b with inboxes := forget b.inboxes name }.act (.abandon inbox) (.flag true)
    | none => b.report (.flag false)
  | _ => b.report .nothing

/-- Keep a request under a name; one that was kept there before is dropped. -/
def hold (b : State) (name : String) (request : Request Reaction) : State :=
  let b := match b.held.lookup name with
    | some old => b.discard old.completion
    | none => b
  { b with held := enter b.held name request }

def performTable (b : State) : Step → Performed
  | .submit op completion attribution =>
    let (b, reaction) := b.reactionOf completion
    b.act (.submit op reaction attribution) (.number b.client.outstanding.freeSerial.value.toNat)
  | .complete serial name =>
    match b.client.outstanding.find? serial with
    | none => b.report .nothing
    | some request =>
      let (b, items) := b.handle (.take serial)
      let b := match name with
        | some name => b.hold name request
        | none => b.discard request.completion
      (b, .request request.serial request.operation request.attribution, items)
  | .describeHeld name => b.look b.held name fun request => b.report (.text request.description)
  | .finish name disposal =>
    match b.held.lookup name with
    | none => b.report (.flag false)
    | some request =>
      let b := { b with held := forget b.held name }
      match disposal with
      | .complete response =>
        (b, .flag true, [.command (.complete request.completion (.ok response))])
      | .fail why => (b, .flag true, [.command (.complete request.completion (.error why))])
      | .drop => (b.discard request.completion, .flag true, [])
  | .flush why => b.act (.flush why) .nothing
  | .contains serial => b.report (.flag (b.client.outstanding.contains serial))
  | .isEmpty => b.report (.flag (b.client.outstanding.size == 0))
  | .setNextSerial serial => b.act (.setNextSerial serial) .nothing
  | .describeCompletion completion =>
    let (b, reaction) := b.reactionOf completion
    let armed := match reaction with
      | .ignore => false
      | _ => true
    (b.discard reaction, .text (Baseband.describeCompletion armed), [])
  | .outcome tag => b.look b.tags tag fun number =>
    match b.channels[number]? with
    | some .open => b.report (.text "empty")
    | some (.filled outcome) =>
      { b with channels := b.channels.set number .closed }.report (.outcome outcome)
    | _ => b.report (.text "closed")
  | _ => b.report .nothing

/-- Start a task later, under a name. -/
def spawn (b : State) (name : String) (step : Step) : State :=
  let (b, number) := b.launch step
  { b with tasks := enter b.tasks name number }

def perform (b : State) (step : Step) : Performed :=
  match step with
  | .register _ | .unregister _ | .failDiscovery .. | .probes | .discover _ | .kill _ | .isAlive _
  | .failSends .. | .received _ | .respond .. | .indicate .. | .setHandler .. | .link ..
  | .setSink .. | .send .. => b.performNetwork step
  | .dropObserver _ | .dropSink _ | .newRecipient .. | .notify _ | .breakScripted _
  | .respondScripted .. => b.performRecorder step
  | .current | .describeCurrent | .serviceDied _ | .invalidate _ | .isSupported
  | .connectedVersion | .nrCapabilities | .registerIndications _ | .unregisterIndications
  | .receive _ | .dropInbox _ => b.performClient step
  | .submit .. | .complete .. | .describeHeld _ | .finish .. | .flush _ | .contains _ | .isEmpty
  | .setNextSerial _ | .describeCompletion _ | .outcome _ => b.performTable step
  | .spawn name step => (b.spawn name step, .nothing, [])
  | .finished name =>
    b.look b.tasks name fun number => b.report (.flag (b.value? number).isSome)
  | .acquire | .supports _ | .call .. | .join _ | .concurrent _ => b.report .nothing

end Bench.State

end Baseband
