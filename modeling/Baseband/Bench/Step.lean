import Baseband.Response
import Baseband.Settings
import Baseband.Request

/-!
# Steps on a bench

A bench exercises a client against services in memory, scripted connections and recorders. What is
done on it is a list of steps. A completion may itself do steps when it runs.
-/

namespace Baseband.Bench

/-- How a request that was taken out of the table is disposed of. -/
inductive Disposal
  | complete (response : Response)
  | fail (why : Error)
  | drop

mutual

/-- What is done with the outcome of a request. -/
inductive Completion
  /-- Record the outcome under a tag, then do steps. -/
  | record (tag : String) (reactions : List Step)
  | ignore
  /-- Keep the outcome for whoever asks under the tag. -/
  | channel (tag : String)
  /-- Hand the outcome to somebody who has left. -/
  | dropped

/-- One step. Services, scripted connections and inboxes are referred to by number or name. -/
inductive Step
  -- the directory
  | register (version : Version)
  | unregister (version : Version)
  | failDiscovery (version : Version) (times : Nat)
  | probes
  | discover (version : Version)
  -- a service
  | kill (service : Nat)
  | isAlive (service : Nat)
  | failSends (service : Nat) (fail : Bool)
  | received (service : Nat)
  | respond (service : Nat) (header : ResponseHeader) (payload : Bytes)
  | indicate (service : Nat) (slots : List SlotStatus)
  | setHandler (service : Nat) (replies : List (Operation × Int32 × Response))
  | link (service : Nat) (cookie : Nat) (observer : String)
  | setSink (service : Nat) (sink : String)
  | send (service : Nat) (serial : Serial) (op : Operation) (payload : Bytes)
  -- recorders
  | dropObserver (observer : String)
  | dropSink (sink : String)
  | newRecipient (recipient : String) (cookie : Nat) (observer : String)
  | notify (recipient : String)
  -- a scripted connection
  | breakScripted (scripted : Nat)
  | respondScripted (scripted : Nat) (header : ResponseHeader) (payload : Bytes)
  -- the session
  | acquire
  | supports (op : Operation)
  | current
  | describeCurrent
  | serviceDied (cookie : Nat)
  | invalidate (generation : Nat)
  | isSupported
  -- the client
  | call (query : Query) (completion : Completion)
  | connectedVersion
  | nrCapabilities
  | registerIndications (inbox : String)
  | unregisterIndications
  | receive (inbox : String)
  | dropInbox (inbox : String)
  -- the table of requests
  | submit (op : Operation) (completion : Completion) (attribution : Attribution)
  | complete (serial : Serial) (hold : Option String)
  | describeHeld (hold : String)
  | finish (hold : String) (disposal : Disposal)
  | flush (why : Error)
  | contains (serial : Serial)
  | isEmpty
  | setNextSerial (serial : Serial)
  | describeCompletion (completion : Completion)
  | outcome (tag : String)
  -- tasks
  | spawn (task : String) (step : Step)
  | finished (task : String)
  | join (task : String)
  | concurrent (steps : List Step)

end

/-- The step can wait for something. Such steps are not done inside a completion. -/
def Step.waits : Step → Bool
  | .acquire | .supports _ | .call .. | .join _ | .concurrent _ => true
  | _ => false

end Baseband.Bench
