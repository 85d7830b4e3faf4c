import Baseband.Proofs.Client.Lookups
import Baseband.Proofs.Client.Sending
import Baseband.Proofs.Run.Requests
import Baseband.Proofs.Version

/-!
# Nothing is sent that the service does not implement

A session is over a connection that was found under its version, and only operations of that version
are sent over it. What a client is asked for and does not send it refuses, and a caller that asks
beforehand is told which of the two comes.
-/

namespace Baseband.Run

open Command (collect send?)

variable {κ α : Type} {settings : Settings} {allowed : State κ α → Event κ α → Prop}
  {speaks : α → Version} {s : State κ α} {past : List (State κ α)}

/-- A request is handed over to its connection as soon as it is entered, a lookup is answered after
it has been made, and a connection always reports the version that it speaks. -/
def Sequential (speaks : α → Version) (s : State κ α) (event : Event κ α) : Prop :=
  collect send? s.agenda = [] ∧
    ∀ id answer, event = .found id answer →
      (∀ version, .discover id version ∉ s.agenda) ∧
        ∀ connection version, answer = .ok (connection, version) → version = speaks connection

/-! ## Candidates -/

/-- What a call waits for it has asked for, and it is a candidate. -/
theorem probing_asked (run : Run settings allowed s past) :
    s.client.candidates = Version.newestFirst settings.candidates ∧
      ∀ id goal version rest backoff,
        s.client.call? id = some (.connecting goal (.probing version rest backoff)) →
          .discover id version ∈ s.agenda ++ s.done ∧
            ∀ candidate ∈ version :: rest, candidate ∈ settings.candidates := by
  induction run with
  | start => exact ⟨rfl, nofun⟩
  | @step s t past run step ih =>
    obtain ⟨candidates, asked⟩ := ih
    cases step with
    | raise event =>
      refine ⟨(Client.handle_move run.valid event).candidates.trans candidates, ?_⟩
      intro id goal version rest backoff probing
      simp only [State.agenda_raise, State.done_raise, List.append_assoc]
      rcases Client.asked_of_probing probing with before | ⟨now, first | next⟩
      · obtain ⟨due, known⟩ := asked id goal version rest backoff before
        exact ⟨List.mem_append_right _ due, known⟩
      · refine ⟨List.mem_append_left _ now, fun candidate listed => ?_⟩
        rw [first, candidates] at listed
        exact Version.mem_newestFirst.1 listed
      · obtain ⟨goal', looked, before, waited⟩ := next
        obtain ⟨-, known⟩ := asked id goal' looked _ before waited
        exact ⟨List.mem_append_left _ now, fun candidate listed => known candidate (.tail _ listed)⟩
    | carryOut next =>
      refine ⟨candidates, fun id goal version rest backoff probing => ?_⟩
      obtain ⟨due, known⟩ := asked id goal version rest backoff probing
      exact ⟨(State.mem_carryOut next).2 due, known⟩

/-! ## Where sessions come from -/

/-- The session is installed from one state to the next: its version, a candidate, has been looked
up, and the answer is a connection that speaks this version. -/
structure Discovered (settings : Settings) (speaks : α → Version) (session : Session α)
    (before after : State κ α) : Prop where
  candidate : session.version ∈ settings.candidates
  speaks : speaks session.connection = session.version
  answered : ∃ id, .discover id session.version ∈ before.done ∧
    after = before.raise (.found id (.ok (session.connection, session.version)))
  cached : after.client.session = some session

/-- The cached session has been installed by a step of the run, and has been cached ever since. -/
theorem session_discovered (run : Run settings (Sequential speaks) s past) {session : Session α}
    (cached : s.client.session = some session) :
    ∃ later after before earlier, s :: past = later ++ after :: before :: earlier ∧
      Discovered settings speaks session before after ∧
      ∀ between ∈ later, between.client.session = some session := by
  induction run with
  | start => cases cached
  | @step s t past run step ih =>
    have since (before : s.client.session = some session) :
        ∃ later after before earlier, t :: s :: past = later ++ after :: before :: earlier ∧
          Discovered settings speaks session before after ∧
          ∀ between ∈ later, between.client.session = some session := by
      obtain ⟨later, after, before, earlier, split, discovered, kept⟩ := ih before
      exact ⟨t :: later, after, before, earlier, congrArg (t :: ·) split, discovered,
        List.forall_mem_cons.2 ⟨cached, kept⟩⟩
    cases step with
    | raise event sequential =>
      by_cases before : s.client.session = some session
      · exact since before
      · obtain ⟨id, goal, rest, backoff, rfl, waits⟩ :=
          run.valid.found_of_installed cached before
        obtain ⟨-, answers⟩ := sequential
        obtain ⟨made, honest⟩ := answers id _ rfl
        obtain ⟨asked, candidates⟩ := run.probing_asked.2 id goal _ rest backoff waits
        refine ⟨[], _, s, past, rfl, ?_, by simp⟩
        exact {
          candidate := candidates _ (.head _)
          speaks := (honest _ _ rfl).symm
          answered := ⟨id, (List.mem_append.1 asked).resolve_left (made _), rfl⟩
          cached }
    | carryOut => exact since cached

/-! ## What is sent -/

/-- As long as a request waits to be handed over, it is outstanding, and its session is cached. -/
theorem sends_backed (run : Run settings (Sequential speaks) s past) {sending : Sending α}
    (waits : sending ∈ collect send? s.agenda) :
    ∃ session request, s.client.Backs sending session request := by
  induction run with
  | start => cases waits
  | @step s t past run step ih =>
    cases step with
    | raise event sequential =>
      rw [State.agenda_raise, Command.collect_append, sequential.1, List.append_nil] at waits
      exact (Client.handle_move run.valid event).backs waits
    | carryOut next =>
      refine ih ?_
      rw [next, Command.collect_cons]
      exact List.mem_append_right _ waits

/-! ## What is told beforehand -/

section Told

variable {c : Client κ α} {event : Event κ α} {id next : CallId} {answer : Bool} {query : Query}

/-- A call that asks for an operation is told whether the cached session implements it. -/
theorem asks_of_told (valid : c.Valid)
    (told : .finish id (.supports answer) ∈ (c.handle event).2) :
    ∃ op, c.Asks event id (.supports op) ∧
      answer = (c.handle event).1.session.any (·.supports op) := by
  rcases (Client.handle_move valid event).tells told with ⟨serial, ⟨⟩⟩ | ⟨goal, asks, tells⟩
  cases tells with
  | supports op => exact ⟨op, asks, rfl⟩

/-- While the cached session implements an operation, a request for it is entered, handed over at
once, and its serial returned. -/
theorem accepted_of_supports (valid : c.Valid) (unused : c.call? next = none)
    (supports : c.session.any (·.supports query.operation) = true) (completion : κ) :
    ∃ session serial request,
      (c.handle (.call next (.request query completion))).2 =
        [.send next session.connection serial query.operation query.payload] ∧
      (c.handle (.call next (.request query completion))).1.Backs
        ⟨next, session.connection, serial, query.operation, query.payload⟩ session request ∧
      request.completion = completion ∧
      (c.handle (.call next (.request query completion))).1.WillReturn next serial := by
  obtain ⟨session, cached, supports⟩ := (Option.any_eq_true _ _).1 supports
  rw [Client.handle_of_supporting unused (valid.supported_of_cached cached) cached supports]
  have found := c.outstanding.find?_freeSerial query.operation completion c.attribution
  exact ⟨session, _, _, rfl, ⟨cached, rfl, supports, found, rfl⟩, rfl,
    Client.willReturn_of_sending (Client.call?_putCall _ _ _)⟩

/-- An operation that the cached session lacks is refused with the version of that session. -/
theorem refused_of_lacking (valid : c.Valid) (unused : c.call? next = none)
    (lacks : c.session.any (·.supports query.operation) = false) {session : Session α}
    (cached : c.session = some session) (completion : κ) :
    c.handle (.call next (.request query completion)) =
      (c, [.complete completion (.error (.notSupported query.operation session.version)),
        .finish next (.request (.error (.notSupported query.operation session.version)))]) := by
  rw [cached, Option.any_some] at lacks
  rw [Client.handle_of_lacking unused (valid.supported_of_cached cached) cached lacks,
    Client.refuse]

end Told

/-- Whatever waits to be sent over a connection is outstanding, for the same operation, and the
cached session is over that connection. This session was installed when the lookup of a candidate
returned the connection, in the version that the connection speaks, and has been cached ever since;
and the version has the operation. A call that asks for an operation is told what comes of a request
that is made directly afterwards: if it is told that the operation is supported, then the request is
entered and sent, and its serial returned; if not, and a session is cached, then the request is
refused with the version of the session. -/
theorem sent_within_version (run : Run settings (Sequential speaks) s past) :
    (∀ id connection serial op payload, .send id connection serial op payload ∈ s.agenda →
      ∃ session request, s.client.session = some session ∧ session.connection = connection ∧
        speaks connection = session.version ∧ op.since ≤ session.version ∧
        s.client.outstanding.find? serial = some request ∧ request.operation = op ∧
        ∃ later after before earlier, s :: past = later ++ after :: before :: earlier ∧
          Discovered settings speaks session before after ∧
          ∀ between ∈ later, between.client.session = some session) ∧
    ∀ event id answer, .finish id (.supports answer) ∈ (s.client.handle event).2 →
      ∃ op, s.client.Asks event id (.supports op) ∧
        ∀ next query completion, query.operation = op →
          (s.raise event).client.call? next = none →
          (answer = true → ∃ session serial request,
            ((s.raise event).client.handle (.call next (.request query completion))).2 =
              [.send next session.connection serial op query.payload] ∧
            ((s.raise event).client.handle (.call next (.request query completion))).1.Backs
              ⟨next, session.connection, serial, op, query.payload⟩ session request ∧
            request.completion = completion ∧
            ((s.raise event).client.handle (.call next (.request query completion))).1.WillReturn
              next serial) ∧
          (answer = false → ∀ session, (s.raise event).client.session = some session →
            (s.raise event).client.handle (.call next (.request query completion)) =
              ((s.raise event).client,
                [.complete completion (.error (.notSupported op session.version)),
                  .finish next (.request (.error (.notSupported op session.version)))])) := by
  constructor
  · intro id connection serial op payload waits
    obtain ⟨session, request, backs⟩ := run.sends_backed (Command.mem_collect_send.2
      (show (⟨id, connection, serial, op, payload⟩ : Sending α).command ∈ _ from waits))
    obtain ⟨later, after, before, earlier, split, discovered, since⟩ :=
      run.session_discovered backs.cached
    obtain rfl : session.connection = connection := backs.connection
    exact ⟨session, request, backs.cached, rfl, discovered.speaks,
      of_decide_eq_true backs.supports, backs.found, backs.operation, later, after, before,
      earlier, split, discovered, since⟩
  · intro event id answer told
    obtain ⟨op, asks, rfl⟩ := asks_of_told run.valid told
    refine ⟨op, asks, ?_⟩
    rintro next query completion rfl unused
    have valid := run.valid.handle event
    exact ⟨fun supports => accepted_of_supports valid unused supports completion,
      fun lacks session cached => refused_of_lacking valid unused lacks cached completion⟩

/-- The first request, over the first connection that is found. -/
theorem sent_within_version_of_first :
    ∃ (s : State Nat Nat) (past : List (State Nat Nat)) (payload : Bytes),
      Run { Settings.standard with candidates := [⟨1, 3⟩] } (Sequential fun _ => ⟨1, 3⟩) s past ∧
        .send 0 3 .first .getSlotStatus payload ∈ s.agenda ∧
        ∃ session request, s.client.session = some session ∧ session.connection = 3 ∧
          Operation.getSlotStatus.since ≤ session.version ∧
          s.client.outstanding.find? .first = some request ∧
          request.operation = .getSlotStatus := by
  obtain ⟨s, past, run, first⟩ := exists_firstRequest (Sequential fun _ => ⟨1, 3⟩)
    (fun s _ nothing _ => ⟨by rw [nothing]; rfl, nofun⟩)
    (fun s event nothing listed => ⟨by rw [nothing]; rfl, by
      rintro id answer rfl
      obtain ⟨rfl, rfl⟩ : id = 0 ∧ answer = .ok (3, ⟨1, 3⟩) := by simpa using listed
      exact ⟨by simp [nothing], by rintro _ _ ⟨⟩; rfl⟩⟩)
  have waits : .send 0 3 .first .getSlotStatus Query.getSlotStatus.payload ∈ s.agenda := by
    rw [first.agenda]
    exact .head _
  obtain ⟨session, request, cached, connected, -, since, found, operation, -⟩ :=
    (sent_within_version run).1 _ _ _ _ _ waits
  exact ⟨s, past, _, run, waits, session, request, cached, connected, since, found, operation⟩

end Baseband.Run
