import Mathlib.Data.List.Perm.Basic
import Baseband.Proofs.Response
import Baseband.Proofs.Network.Rounds

/-!
# Requests and their answers

Calls make requests over one session, each after the one before has returned, and the answers of the
service arrive in any order, however many calls later. What calls and completions are told, what the
service receives and what stays outstanding depends on the calls and the service alone.
-/

namespace Baseband

open Bench (Party)
open Command (collect)
open Loopback (Directory Received Reply Service)

variable {κ : Type}

def Event.begins {α : Type} : Event κ α → Bool
  | .call .. => true
  | _ => false

@[simp] def Command.completed? {α : Type} : Command κ α → Option (κ × Outcome)
  | .complete completion outcome => some (completion, outcome)
  | _ => none

namespace Network

variable {s t u v : State κ}

theorem filterMap_concat {α β : Type} (f : α → Option β) (items : List α) (last : α) :
    (items ++ [last]).filterMap f = items.filterMap f ++ (f last).toList := by
  rw [List.filterMap_append]
  cases given : f last <;> simp [given]

theorem filterMap_middle {α β : Type} {f : α → Option β} {item : α} {value : β}
    (given : f item = some value) (before after : List α) :
    (before ++ item :: after).filterMap f = before.filterMap f ++ value :: after.filterMap f := by
  rw [List.filterMap_append, List.filterMap_cons_some given]

/-! ## What a service has been asked -/

structure State.Connected (s : State κ) (session : Session Nat) (service : Service Party Party) :
    Prop where
  supported : s.client.supported = true
  cached : s.client.session = some session
  found : s.directory.services[session.connection]? = some service
  alive : service.alive = true
  sends : service.failSends = false
  sink : service.sink = some .client

def Exchange.Judged (x : Exchange κ) (version : Version) : Prop :=
  if x.query.operation.availableIn version then ∃ serial, x.returned = .ok serial
  else x.returned = .error (.notSupported x.query.operation version)

/-- What has come of exchanges since some state, while some of them still wait for an answer. -/
structure State.Dealt (s : State κ) (session : Session Nat) (service : Service Party Party)
    (exchanges waiting : List (Exchange κ)) (since : List (Happening κ Nat)) (u : State κ) :
    Prop where
  idle : u.agenda = []
  client : ∃ outstanding, u.client = { s.client with outstanding }
  sound : u.client.outstanding.Sound
  apart : u.client.outstanding.AgesApart
  entries : u.client.outstanding.entries =
    s.client.outstanding.entries ++ waiting.filterMap (·.outstanding? s.client.attribution)
  received : u.directory.services[session.connection]? =
    some (service.receive (exchanges.filterMap Exchange.request?))
  replies : u.replies.Perm (waiting.filterMap (·.reply? service.handler service.sink))
  history : u.history = since ++ s.history
  began : (Happening.events since).reverse.filter Event.begins = exchanges.map Exchange.call
  returned : collect Command.answer? (Happening.done since).reverse = exchanges.map Exchange.answer
  completed : (collect Command.completed? (Happening.done since) ++
      waiting.filterMap (·.answered? service.handler)).Perm
    (exchanges.filterMap (·.outcome? service.handler))
  left : waiting.filterMap (·.unanswered? service.handler s.client.attribution) =
    exchanges.filterMap (·.unanswered? service.handler s.client.attribution)
  judged : ∀ x ∈ exchanges, x.Judged session.version

namespace State

variable {session : Session Nat} {service : Service Party Party}
  {exchanges waiting : List (Exchange κ)} {since : List (Happening κ Nat)}

/-- Before the first request nothing is to be settled. -/
theorem dealt_nil (connected : s.Connected session service) (idle : s.agenda = [])
    (quiet : s.replies = []) (sound : s.client.outstanding.Sound)
    (apart : s.client.outstanding.AgesApart) : s.Dealt session service [] [] [] s where
  idle := idle
  client := ⟨_, rfl⟩
  sound := sound
  apart := apart
  entries := (List.append_nil _).symm
  received := by rw [List.filterMap_nil, service.receive_nil]; exact connected.found
  replies := by rw [quiet]; exact .nil
  history := rfl
  began := rfl
  returned := rfl
  completed := .nil
  left := rfl
  judged := nofun

theorem Dealt.supported (dealt : s.Dealt session service exchanges waiting since u)
    (connected : s.Connected session service) : u.client.supported = true := by
  obtain ⟨_, client⟩ := dealt.client
  exact client ▸ connected.supported

theorem Dealt.cached (dealt : s.Dealt session service exchanges waiting since u)
    (connected : s.Connected session service) : u.client.session = some session := by
  obtain ⟨_, client⟩ := dealt.client
  exact client ▸ connected.cached

theorem Dealt.attribution (dealt : s.Dealt session service exchanges waiting since u) :
    u.client.attribution = s.client.attribution := by
  obtain ⟨_, client⟩ := dealt.client
  exact client ▸ rfl

theorem judged_concat (judged : ∀ x ∈ exchanges, x.Judged session.version) {x : Exchange κ}
    (new : x.Judged session.version) : ∀ y ∈ exchanges ++ [x], y.Judged session.version := by
  intro y listed
  rcases List.mem_append.1 listed with before | last
  · exact judged y before
  · exact List.mem_singleton.1 last ▸ new

section

variable (dealt : s.Dealt session service exchanges waiting since u)
  (connected : s.Connected session service) (done : v.agenda = [])
include dealt connected done

/-- A request that the version lacks is settled at once, and no answer is awaited. -/
theorem Dealt.refused {id : CallId} {query : Query} {completion : κ}
    (unused : u.client.call? id = none) (lacks : session.supports query.operation = false)
    (settles : Settles (u.raise (.call id (.request query completion))) v) :
    ∃ (x : Exchange κ) (new : List (Happening κ Nat)),
      s.Dealt session service (exchanges ++ [x]) waiting (new ++ since) v := by
  have supported := dealt.supported connected
  have cached := dealt.cached connected
  obtain rfl := eq_of_refused dealt.idle unused supported cached done lacks settles
  let why : Error := .notSupported query.operation session.version
  let x : Exchange κ := ⟨id, query, completion, .error why⟩
  refine ⟨x, [.command (.finish id (.request (.error why))),
    .command (.complete completion (.error why)), .event x.call],
    { idle := dealt.idle, client := dealt.client, sound := dealt.sound, apart := dealt.apart
      entries := dealt.entries, replies := dealt.replies
      received := ?_, history := ?_, began := ?_, returned := ?_, completed := ?_, left := ?_
      judged := judged_concat dealt.judged ?_ }⟩
  · simpa [x, List.filterMap_cons] using dealt.received
  · simp [dealt.history, x, why, Exchange.call]
  · simp [dealt.began, x, Event.begins, Exchange.call]
  · simp [dealt.returned, x, Exchange.answer]
  · have told := dealt.completed.cons (completion, .error why)
    simpa [x] using told.trans (List.perm_append_singleton _ _).symm
  · simpa [x, List.filterMap_cons] using dealt.left
  · have lacks : query.operation.availableIn session.version = false := lacks
    simp [Exchange.Judged, x, why, lacks]

/-- A request that the version has is sent, and its answer is awaited. -/
theorem Dealt.accepted {id : CallId} {query : Query} {completion : κ}
    (unused : u.client.call? id = none) (supports : session.supports query.operation = true)
    (room : u.client.outstanding.size < Serial.count)
    (settles : Settles (u.raise (.call id (.request query completion))) v) :
    ∃ (x : Exchange κ) (new : List (Happening κ Nat)),
      s.Dealt session service (exchanges ++ [x]) (waiting ++ [x]) (new ++ since) v := by
  have supported := dealt.supported connected
  have cached := dealt.cached connected
  have attribution := dealt.attribution
  obtain rfl := eq_of_accepted dealt.idle unused supported cached done supports dealt.received
    connected.alive connected.sends settles
  let serial := u.client.outstanding.freeSerial
  let x : Exchange κ := ⟨id, query, completion, .ok serial⟩
  refine ⟨x, [.command (.finish id (.request (.ok serial))), .event (.sent id (.ok ())),
    .command (.send id session.connection serial query.operation query.payload), .event x.call],
    { idle := dealt.idle, client := ?_
      sound := dealt.sound.submit _ _ _, apart := dealt.apart.submit dealt.sound _ _ _
      entries := ?_, replies := ?_
      received := ?_, history := ?_, began := ?_, returned := ?_, completed := ?_, left := ?_
      judged := judged_concat dealt.judged ?_ }⟩
  · obtain ⟨_, client⟩ := dealt.client
    exact ⟨_, by rw [Client.enter, client]⟩
  · change (u.client.enter query.operation completion).outstanding.entries = _
    rw [Client.enter, Outstanding.entries_submit dealt.sound dealt.apart room, dealt.entries,
      attribution, filterMap_concat, List.append_assoc]
    rfl
  · rw [filterMap_concat, ← service.receive_receive]
    exact Directory.services_modify dealt.received _
  · rw [filterMap_concat]
    exact dealt.replies.append_right _
  · simp [dealt.history, x, serial]
  · simp [dealt.began, x, Exchange.call, Event.begins, List.filter_cons]
  · simp [dealt.returned, x, Exchange.answer]
  · rw [filterMap_concat, filterMap_concat, ← List.append_assoc]
    exact dealt.completed.append_right _
  · rw [List.filterMap_append, List.filterMap_append, dealt.left]
  · have available : query.operation.availableIn session.version = true := supports
    simp [Exchange.Judged, x, available]

/-- An answer that arrives settles its own exchange, however late. -/
theorem Dealt.delivered {index : Nat} (settles : Settles (u.deliver index) v) :
    ∃ (waiting' : List (Exchange κ)) (new : List (Happening κ Nat)),
      s.Dealt session service exchanges waiting' (new ++ since) v := by
  cases listed : u.replies[index]? with
  | none =>
    have nothing : u.deliver index = u := by simp only [deliver, listed]
    rw [nothing] at settles
    rw [settles.eq_of_idle dealt.idle]
    exact ⟨waiting, [], dealt⟩
  | some reply =>
    have among := dealt.replies.mem_iff.1 (List.mem_of_getElem? listed)
    obtain ⟨x, waits, answered⟩ := List.mem_filterMap.1 among
    obtain ⟨before, after, rfl⟩ := List.append_of_mem waits
    obtain ⟨toSink, told, under⟩ := Exchange.of_reply answered
    obtain ⟨settled, entered⟩ := under s.client.attribution
    have entries := dealt.entries
    rw [filterMap_middle (f := fun y : Exchange κ => y.outstanding? _) entered, ← List.append_assoc]
      at entries
    obtain ⟨request, requested, same⟩ := List.mem_map.1
      (entries ▸ List.mem_append_right _ (.head _) : _ ∈ u.client.outstanding.entries)
    have found : u.client.outstanding.find? reply.header.serial = some request :=
      dealt.sound.find?_eq_some.2 ⟨requested, congrArg Entry.serial same⟩
    have operation : request.operation = x.query.operation := congrArg Entry.operation same
    have completion : request.completion = x.completion := congrArg Entry.completion same
    obtain rfl := eq_of_delivered listed (toSink.trans connected.sink) found dealt.idle done settles
    refine ⟨before ++ after, [.command (.complete x.completion
      (Response.outcome x.query.operation reply.header.status reply.payload)),
      .event (.respond reply.header reply.payload)],
      { idle := dealt.idle, client := ?_
        sound := dealt.sound.erase _, apart := dealt.apart.erase _
        entries := ?_, received := dealt.received, replies := ?_, history := ?_, began := ?_
        returned := ?_, completed := ?_, left := ?_
        judged := dealt.judged }⟩
    · obtain ⟨_, client⟩ := dealt.client
      exact ⟨_, by rw [client]⟩
    · have apart := dealt.sound.entries_nodup
      rw [entries] at apart
      change (u.client.outstanding.erase reply.header.serial).entries = _
      rw [Outstanding.entries_erase dealt.sound dealt.apart found, entries,
        Outstanding.filter_serial apart, List.append_assoc, List.filterMap_append]
    · obtain ⟨bound, same⟩ := List.getElem?_eq_some_iff.1 listed
      have others := (List.getElem_cons_eraseIdx_perm bound).trans dealt.replies
      rw [same, filterMap_middle (f := fun y : Exchange κ => y.reply? _ _) answered] at others
      rw [List.filterMap_append]
      exact (others.trans List.perm_middle).cons_inv
    · simp [dealt.history, operation, completion]
    · simp [dealt.began, Event.begins]
    · simp [dealt.returned]
    · have completed := dealt.completed
      rw [filterMap_middle (f := fun y : Exchange κ => y.answered? _) told, ← List.append_assoc]
        at completed
      simpa using List.perm_middle.symm.trans completed
    · rw [← dealt.left, List.filterMap_append, List.filterMap_append,
        List.filterMap_cons_none (f := fun y : Exchange κ => y.unanswered? _ _) settled]

end

end State

/-! ## Runs of calls -/

/-- What comes from outside: a call makes a request, or an answer arrives. Nothing comes while
something is still to be done, and a serial is left for every request. -/
inductive Requesting (s : State κ) : Act κ → Prop
  | call {id : CallId} {query : Query} {completion : κ} (idle : s.agenda = [])
      (unused : s.client.call? id = none) (room : s.client.outstanding.size < Serial.count) :
      Requesting s (.event (.call id (.request query completion)))
  | deliver (index : Nat) (idle : s.agenda = []) : Requesting s (.deliver index)

theorem Requesting.idle {act : Act κ} (requesting : Requesting s act) : s.agenda = [] := by
  cases requesting <;> assumption

namespace State

variable {session : Session Nat} {service : Service Party Party}

def Accounted (s : State κ) (session : Session Nat) (service : Service Party Party) (u : State κ) :
    Prop :=
  ∃ exchanges waiting since, s.Dealt session service exchanges waiting since u

/-- Whatever comes next, exchanges account for it. -/
theorem Accounted.act (accounted : s.Accounted session service u)
    (connected : s.Connected session service) {act : Act κ} (requesting : Requesting u act)
    (settles : Settles (u.act act) v) (done : v.agenda = []) : s.Accounted session service v := by
  obtain ⟨exchanges, waiting, since, dealt⟩ := accounted
  cases requesting with
  | @call id query completion _ unused room =>
    cases supports : session.supports query.operation with
    | false =>
      obtain ⟨x, new, dealt⟩ := dealt.refused connected done unused supports settles
      exact ⟨_, _, _, dealt⟩
    | true =>
      obtain ⟨x, new, dealt⟩ := dealt.accepted connected done unused supports room settles
      exact ⟨_, _, _, dealt⟩
  | deliver index =>
    obtain ⟨waiting, new, dealt⟩ := dealt.delivered connected done settles
    exact ⟨_, _, _, dealt⟩

/-- Exchanges account for all that had come before the last act, and what is on the agenda has come
of that act. -/
theorem Accounted.since_act (start : s.Accounted session service s)
    (connected : s.Connected session service) (leads : Leads Requesting s t) :
    ∃ u, s.Accounted session service u ∧
      (t = u ∨ ∃ act, Requesting u act ∧ Settles (u.act act) t) := by
  induction leads with
  | refl => exact ⟨s, start, .inl rfl⟩
  | @tail v w _ step ih =>
    obtain ⟨u, accounted, came⟩ := ih
    cases step with
    | act act _ requesting =>
      refine ⟨v, ?_, .inr ⟨act, requesting, .refl⟩⟩
      obtain rfl | ⟨last, requesting', settles⟩ := came
      · exact accounted
      · exact accounted.act connected requesting' settles requesting.idle
    | carryOut next =>
      obtain rfl | ⟨last, requesting, settles⟩ := came
      · obtain ⟨_, _, _, dealt⟩ := accounted
        exact nomatch dealt.idle.symm.trans next
      · exact ⟨u, accounted, .inr ⟨last, requesting, settles.tail (.carryOut next)⟩⟩

/-- Whenever nothing is left to be done, exchanges account for all that has come. -/
theorem Accounted.leads (start : s.Accounted session service s)
    (connected : s.Connected session service) (leads : Leads Requesting s t)
    (idle : t.agenda = []) : s.Accounted session service t := by
  obtain ⟨u, accounted, rfl | ⟨act, requesting, settles⟩⟩ := start.since_act connected leads
  · exact accounted
  · exact accounted.act connected requesting settles idle

/-- Once all answers have arrived, the requests that stay outstanding are those without one. -/
theorem Dealt.outstanding {exchanges waiting : List (Exchange κ)} {since : List (Happening κ Nat)}
    (dealt : s.Dealt session service exchanges waiting since u) (delivered : u.replies = []) :
    (∀ x ∈ waiting, x.answered? service.handler = none) ∧
      u.client.outstanding.entries = s.client.outstanding.entries ++
        exchanges.filterMap (·.unanswered? service.handler s.client.attribution) := by
  have replies := dealt.replies
  rw [delivered] at replies
  have silent : ∀ x ∈ waiting, x.answered? service.handler = none := by
    intro x waits
    have none := List.filterMap_eq_nil_iff.1 replies.nil_eq.symm x waits
    cases asked : x.request? with
    | none => simp [Exchange.answered?, asked]
    | some request =>
      have unanswered : service.handler request = Option.none := by
        simpa [Exchange.reply?, asked] using none
      simp [Exchange.answered?, asked, unanswered]
  refine ⟨silent, ?_⟩
  rw [dealt.entries, ← dealt.left]
  congr 1
  refine List.filterMap_congr fun x waits => ?_
  simp [Exchange.unanswered?, silent x waits]

end State

/-! ## What becomes of exchanges -/

/-- What becomes of an exchange with a service is told by its request and the answer. -/
structure Exchange.Settled (x : Exchange κ) (service : Service Party Party) : Prop where
  /-- An operation that is newer than the service is refused and does not reach it. -/
  refused : x.query.operation.availableIn service.version = false →
    x.returned = .error (.notSupported x.query.operation service.version) ∧ x.request? = none ∧
      x.outcome? service.handler =
        some (x.completion, .error (.notSupported x.query.operation service.version))
  /-- Any other reaches it under the serial that the call returns, with its arguments. -/
  accepted : x.query.operation.availableIn service.version = true →
    ∃ request, x.request? = some request ∧ x.returned = .ok request.serial ∧
      request.operation = x.query.operation ∧ request.methodId = x.query.operation.methodId ∧
      (request.payload.length ≤ Record.maxSize →
        Query.decode request.operation request.payload = .ok x.query)
  failed : ∀ request status response, x.request? = some request →
    service.handler request = some (status, response) → status ≠ 0 →
      x.outcome? service.handler = some (x.completion, .error (.remote status))
  answered : ∀ request response, x.request? = some request →
    service.handler request = some (0, response) → response.answers x.query.operation = true →
    response.encode.length ≤ Record.maxSize →
      x.outcome? service.handler = some (x.completion, .ok response)
  unanswered : ∀ request, x.request? = some request → service.handler request = none →
    x.outcome? service.handler = none

theorem Exchange.outcome?_of_request? {x : Exchange κ} {request : Received}
    {handler : Received → Option (Int32 × Response)} (asked : x.request? = some request) :
    x.outcome? handler = (handler request).map fun (status, response) =>
      (x.completion, Response.outcome x.query.operation status response.encode) := by
  obtain ⟨id, query, completion, returned⟩ := x
  cases returned with
  | error why => cases asked
  | ok serial =>
    cases asked
    rfl

/-- An exchange that the version has judged is settled as its request and the answer say. -/
theorem Exchange.Judged.settled {x : Exchange κ} {service : Service Party Party}
    (judged : x.Judged service.version) : x.Settled service where
  refused lacks := by
    obtain ⟨id, query, completion, returned⟩ := x
    rw [Exchange.Judged, if_neg (Bool.eq_false_iff.1 lacks)] at judged
    dsimp only at judged
    subst judged
    exact ⟨rfl, rfl, rfl⟩
  accepted available := by
    rw [Exchange.Judged, if_pos available] at judged
    obtain ⟨serial, returned⟩ := judged
    refine ⟨.of serial x.query.operation x.query.payload, ?_, returned, rfl, rfl,
      x.query.decode_payload⟩
    rw [Exchange.request?, returned]
  failed request status response asked answer nonzero := by
    rw [outcome?_of_request? asked, answer]
    exact congrArg (fun outcome => some (x.completion, outcome))
      (Response.outcome_of_status nonzero)
  answered request response asked answer own fits := by
    have outcome : Response.outcome x.query.operation 0 response.encode = .ok response :=
      Response.outcome_eq_ok.2 ⟨rfl, own, rfl, fits⟩
    rw [outcome?_of_request? asked, answer]
    exact congrArg (fun outcome => some (x.completion, outcome)) outcome
  unanswered request asked none := by
    rw [outcome?_of_request? asked, none, Option.map_none]

/-- Calls have made requests over a session with a service that takes every request, and all answers
have arrived, in whatever order and however late. Then every call has been an exchange, which tells
what the call has returned, what the service has received and what the completion has been told.
Beside what was outstanding before, what the service has not answered is outstanding now. -/
theorem exchanges_settled {allowed : State κ → Act κ → Prop} (settings : Settings)
    (run : Leads allowed (.initial settings) s) (idle : s.agenda = []) (quiet : s.replies = [])
    {session : Session Nat} {service : Service Party Party}
    (cached : s.client.session = some session)
    (found : s.directory.services[session.connection]? = some service)
    (sends : service.failSends = false) (calls : Leads Requesting s t) (settled : t.agenda = [])
    (delivered : t.replies = []) :
    ∃ (exchanges : List (Exchange κ)) (since : List (Happening κ Nat)),
      t.history = since ++ s.history ∧
      (Happening.events since).reverse.filter Event.begins = exchanges.map Exchange.call ∧
      collect Command.answer? (Happening.done since).reverse = exchanges.map Exchange.answer ∧
      (t.directory.Has session.connection fun after =>
        after.received = service.received ++ exchanges.filterMap Exchange.request?) ∧
      (collect Command.completed? (Happening.done since)).Perm
        (exchanges.filterMap (·.outcome? service.handler)) ∧
      t.client.outstanding.entries = s.client.outstanding.entries ++
        exchanges.filterMap (·.unanswered? service.handler s.client.attribution) ∧
      t.client.session = some session ∧ ∀ x ∈ exchanges, x.Settled service := by
  have wired := (State.wired_initial settings).leads run
  have connected : s.Connected session service := by
    obtain ⟨service', found', alive, -⟩ := wired.armed_of_idle idle cached
    obtain rfl := Option.some.inj (found.symm.trans found')
    obtain ⟨service', found', sink⟩ := (wired.ready_of_idle idle cached).2
    obtain rfl := Option.some.inj (found.symm.trans found')
    refine ⟨?_, cached, found, alive, sends, sink⟩
    by_contra unsupported
    have none := (wired.valid.unsupported (Bool.eq_false_iff.2 unsupported)).1
    exact nomatch none.symm.trans cached
  obtain ⟨service', found', version⟩ := wired.known session cached
  obtain rfl := Option.some.inj (found.symm.trans found')
  obtain ⟨sound, apart⟩ := table_of_leads run
  have start : s.Accounted session service s :=
    ⟨[], [], [], State.dealt_nil connected idle quiet sound apart⟩
  obtain ⟨exchanges, waiting, since, dealt⟩ := start.leads connected calls settled
  obtain ⟨silent, outstanding⟩ := dealt.outstanding delivered
  refine ⟨exchanges, since, dealt.history, dealt.began, dealt.returned,
    ⟨_, dealt.received, rfl⟩, ?_, outstanding, dealt.cached connected, fun x listed => ?_⟩
  · have completed := dealt.completed
    rwa [List.filterMap_eq_nil_iff.2 silent, List.append_nil] at completed
  · exact (version ▸ dealt.judged x listed).settled

/-- A service answers the one request that it receives with status five, and the answer arrives. -/
theorem exchanges_settled_of_failed :
    ∃ (s t : State Nat) (service : Service Party Party),
      Leads InTurn (.initial { Settings.standard with candidates := [⟨1, 3⟩] }) s ∧ s.agenda = [] ∧
      s.replies = [] ∧ s.client.session = some ⟨⟨1, 3⟩, 0, 1⟩ ∧
      s.directory.services[0]? = some service ∧ service.failSends = false ∧
      Leads Requesting s t ∧ t.agenda = [] ∧ t.replies = [] ∧
      ∃ x : Exchange Nat, x.call = .call 1 (.request .getSlotStatus 7) ∧ x.Settled service ∧
        t.directory.Has 0 fun after => after.received = service.received ++ x.request?.toList := by
  let answer : Reply Party := ⟨some .client, .solicited .first 5, Response.encode .acknowledged⟩
  obtain ⟨s, u, service, run, idle, quiet, cached, found, sends, calls, idle', replies, table,
      since, history, began⟩ :
      ∃ (s u : State Nat) (service : Service Party Party),
        Leads InTurn (.initial { Settings.standard with candidates := [⟨1, 3⟩] }) s ∧
        s.agenda = [] ∧ s.replies = [] ∧ s.client.session = some ⟨⟨1, 3⟩, 0, 1⟩ ∧
        s.directory.services[0]? = some service ∧ service.failSends = false ∧
        Leads Requesting s u ∧ u.agenda = [] ∧ u.replies = [answer] ∧
        u.client.outstanding = (Outstanding.empty.submit .getSlotStatus 7 .standard).2 ∧
        ∃ since, u.history = since ++ s.history ∧
          (Happening.events since).reverse.filter Event.begins =
            [.call 1 (.request .getSlotStatus 7)] := by
    rw [initial_of_candidates [⟨1, 3⟩] (by decide +kernel)]
    refine ⟨_, _, _, .tail (.tail (.tail (.tail (.tail (.tail (.tail (.tail (.tail (.tail .refl
      (.act (.register ⟨1, 3⟩) trivial (.inl rfl)))
      (.act (.setHandler 0 fun _ => some (5, .acknowledged)) trivial (.inl rfl)))
      (.act (.event (.call 0 .acquire)) trivial (.inl rfl)))
      (.carryOut rfl))
      (.act (.event (.found 0 (.ok (0, ⟨1, 3⟩)))) ⟨_, rfl, rfl⟩ (.inl rfl)))
      (.carryOut rfl)) (.carryOut rfl)) (.carryOut rfl)) (.carryOut rfl)) (.carryOut rfl),
      rfl, rfl, rfl, rfl, rfl,
      .tail (.tail (.tail (.tail .refl
        (.act (.event (.call 1 (.request .getSlotStatus 7))) trivial (.call rfl rfl ?_)))
        (.carryOut rfl)) (.carryOut rfl)) (.carryOut rfl), rfl, rfl, rfl, [_, _, _, _], rfl, rfl⟩
    decide
  have listed : u.replies[0]? = some answer := congrArg (·[0]?) replies
  have request : u.client.outstanding.find? .first =
      some ⟨.first, .getSlotStatus, 7, .standard, 0⟩ := by
    rw [table]
    exact (Outstanding.find?_submit _ _ _ _ _).trans (if_pos rfl)
  have delivery : Step Requesting u (u.deliver 0) := .act (.deliver 0) trivial (.deliver 0 idle')
  rw [State.deliver_eq listed rfl request, idle'] at delivery
  have calls := ((calls.tail delivery).tail (.carryOut rfl)).tail (.carryOut rfl)
  have delivered : u.replies.eraseIdx 0 = [] := congrArg (·.eraseIdx 0) replies
  obtain ⟨exchanges, since', history', began', -, received, -, -, -, settled⟩ :=
    exchanges_settled _ run idle quiet cached found sends calls rfl delivered
  obtain rfl : _ :: _ :: since = since' :=
    List.append_cancel_right ((congrArg (_ :: _ :: ·) history.symm).trans history')
  obtain ⟨x, rfl, called⟩ :
      ∃ x, exchanges = [x] ∧ x.call = .call 1 (.request .getSlotStatus 7) := by
    refine List.map_eq_singleton_iff.1 ?_
    rw [← began', ← began]
    simp [Event.begins]
  rw [← List.nil_append [x], filterMap_concat] at received
  exact ⟨s, _, service, run, idle, quiet, cached, found, sends, calls, rfl, delivered, x, called,
    settled x (.head _), received⟩

end Network

end Baseband
