import Baseband.Proofs.Client.Commands
import Baseband.Proofs.Client.Validity
import Baseband.Proofs.Outstanding

/-!
# Runs

A run takes a client from event to event, while the commands that these leave are carried out one by
one. Any event may come at any moment, also between two commands: a connection dies or answers while
it is asked for something, a completion calls the client back, calls begin and go on in any order.
What an event leaves to be done comes before all that was still to be done.

Which events a run allows is a parameter, so that each result says what it needs.
-/

namespace Baseband

inductive Happening (κ α : Type)
  /-- An event befalls the client. -/
  | event (event : Event κ α)
  /-- A command is carried out. -/
  | command (command : Command κ α)

def Happening.done {κ α : Type} (history : List (Happening κ α)) : List (Command κ α) :=
  history.filterMap fun
    | .command carriedOut => some carriedOut
    | .event _ => none

def Happening.events {κ α : Type} (history : List (Happening κ α)) : List (Event κ α) :=
  history.filterMap fun
    | .event raised => some raised
    | .command _ => none

@[simp] theorem Happening.done_nil {κ α : Type} : done ([] : List (Happening κ α)) = [] :=
  rfl

@[simp] theorem Happening.events_nil {κ α : Type} : events ([] : List (Happening κ α)) = [] :=
  rfl

@[simp] theorem Happening.done_event {κ α : Type} (raised : Event κ α)
    (history : List (Happening κ α)) : done (.event raised :: history) = done history :=
  rfl

@[simp] theorem Happening.events_event {κ α : Type} (raised : Event κ α)
    (history : List (Happening κ α)) :
    events (.event raised :: history) = raised :: events history :=
  rfl

@[simp] theorem Happening.done_command {κ α : Type} (carriedOut : Command κ α)
    (history : List (Happening κ α)) :
    done (.command carriedOut :: history) = carriedOut :: done history :=
  rfl

@[simp] theorem Happening.events_command {κ α : Type} (carriedOut : Command κ α)
    (history : List (Happening κ α)) : events (.command carriedOut :: history) = events history :=
  rfl

theorem Happening.mem_events {κ α : Type} {raised : Event κ α} {history : List (Happening κ α)} :
    raised ∈ events history ↔ .event raised ∈ history := by
  simp only [events, List.mem_filterMap]
  constructor
  · rintro ⟨happening, listed, same⟩
    cases happening <;> cases same
    exact listed
  · intro listed
    exact ⟨_, listed, rfl⟩

/-- A client, what it wants done, and what has happened to it. -/
structure Run.State (κ α : Type) where
  client : Client κ α
  /-- The commands still to be carried out, the next one first. -/
  agenda : List (Command κ α)
  /-- What has happened, the latest first. -/
  history : List (Happening κ α)

variable {κ α : Type}

/-- Tearing a session down enters no request. -/
theorem Client.teardown_nextAge (c : Client κ α) (generation : Nat) :
    (c.teardown generation).1.outstanding.nextAge = c.outstanding.nextAge := by
  unfold teardown
  split <;> rfl

theorem Client.respond_nextAge (c : Client κ α) (header : ResponseHeader) (payload : Bytes) :
    (c.respond header payload).1.outstanding.nextAge = c.outstanding.nextAge := by
  unfold respond
  split <;> rfl

theorem Client.sent_nextAge (c : Client κ α) (id : CallId) (answer : Except Error Unit) :
    (c.handle (.sent id answer)).1.outstanding.nextAge = c.outstanding.nextAge := by
  simp only [handle, advance]
  split
  · rename_i goal stage _
    cases stage <;> rfl
  · split
    · rfl
    · unfold sendFailed
      dsimp only
      split
      · exact teardown_nextAge _ _
      · split <;> rfl
  · rfl

namespace Run

namespace State

def initial (settings : Settings) : State κ α :=
  ⟨.ofSettings settings, [], []⟩

def raise (s : State κ α) (event : Event κ α) : State κ α where
  client := (s.client.handle event).1
  agenda := (s.client.handle event).2 ++ s.agenda
  history := .event event :: s.history

def carryOut (s : State κ α) (command : Command κ α) (rest : List (Command κ α)) : State κ α :=
  { s with agenda := rest, history := .command command :: s.history }

/-- If the event enters a request into the table, then a serial is left for it. Otherwise the search
for a serial would not end, and neither would the handling of the event. -/
def HasRoom (s : State κ α) (event : Event κ α) : Prop :=
  (s.client.handle event).1.outstanding.nextAge ≠ s.client.outstanding.nextAge →
    s.client.outstanding.size < Serial.count

def done (s : State κ α) : List (Command κ α) :=
  Happening.done s.history

def events (s : State κ α) : List (Event κ α) :=
  Happening.events s.history

/-- A death enters nothing into the table. -/
theorem hasRoom_died (s : State κ α) (cookie : Nat) : s.HasRoom (.died cookie) :=
  fun changed => absurd (Client.teardown_nextAge _ _) changed

/-- A response enters nothing into the table. -/
theorem hasRoom_respond (s : State κ α) (header : ResponseHeader) (payload : Bytes) :
    s.HasRoom (.respond header payload) :=
  fun changed => absurd (Client.respond_nextAge _ _ _) changed

/-- The return of a send enters nothing into the table. -/
theorem hasRoom_sent (s : State κ α) (id : CallId) (answer : Except Error Unit) :
    s.HasRoom (.sent id answer) :=
  fun changed => absurd (Client.sent_nextAge _ _ _) changed

@[simp] theorem client_raise (s : State κ α) (event : Event κ α) :
    (s.raise event).client = (s.client.handle event).1 :=
  rfl

@[simp] theorem agenda_raise (s : State κ α) (event : Event κ α) :
    (s.raise event).agenda = (s.client.handle event).2 ++ s.agenda :=
  rfl

@[simp] theorem client_carryOut (s : State κ α) (command : Command κ α)
    (rest : List (Command κ α)) : (s.carryOut command rest).client = s.client :=
  rfl

@[simp] theorem agenda_carryOut (s : State κ α) (command : Command κ α)
    (rest : List (Command κ α)) : (s.carryOut command rest).agenda = rest :=
  rfl

@[simp] theorem done_raise (s : State κ α) (event : Event κ α) : (s.raise event).done = s.done :=
  rfl

@[simp] theorem events_raise (s : State κ α) (event : Event κ α) :
    (s.raise event).events = event :: s.events :=
  rfl

@[simp] theorem done_carryOut (s : State κ α) (command : Command κ α)
    (rest : List (Command κ α)) : (s.carryOut command rest).done = command :: s.done :=
  rfl

@[simp] theorem events_carryOut (s : State κ α) (command : Command κ α)
    (rest : List (Command κ α)) : (s.carryOut command rest).events = s.events :=
  rfl

/-- What the commands that have been carried out, or are still to be, hold of one kind. -/
def issued {β : Type} (s : State κ α) (kind : Command κ α → Option β) : List β :=
  Command.collect kind s.agenda ++ Command.collect kind s.done

/-- What an event leaves to be done comes in front of what has been issued. -/
theorem issued_raise {β : Type} (s : State κ α) (kind : Command κ α → Option β)
    (event : Event κ α) :
    (s.raise event).issued kind =
      Command.collect kind (s.client.handle event).2 ++ s.issued kind := by
  rw [issued, agenda_raise, done_raise, Command.collect_append, List.append_assoc, issued]

/-- A command that is carried out has been issued before. -/
theorem issued_carryOut {β : Type} {s : State κ α} (kind : Command κ α → Option β)
    {command : Command κ α} {rest : List (Command κ α)} (next : s.agenda = command :: rest) :
    ((s.carryOut command rest).issued kind).Perm (s.issued kind) := by
  rw [issued, issued, next, done_carryOut, Command.collect_cons, Command.collect_cons,
    List.append_assoc]
  exact List.perm_append_comm_assoc _ _ _

/-- What has been carried out or is still to be stays so. -/
theorem mem_carryOut {s : State κ α} {command listed : Command κ α} {rest : List (Command κ α)}
    (next : s.agenda = command :: rest) :
    listed ∈ (s.carryOut command rest).agenda ++ (s.carryOut command rest).done ↔
      listed ∈ s.agenda ++ s.done := by
  rw [agenda_carryOut, done_carryOut, List.perm_middle.mem_iff, ← List.cons_append, ← next]

end State

/-- One step of a run in which these events are allowed. -/
inductive Step (allowed : State κ α → Event κ α → Prop) : State κ α → State κ α → Prop
  | raise {s : State κ α} (event : Event κ α) (admitted : allowed s event)
      (room : s.HasRoom event) : Step allowed s (s.raise event)
  | carryOut {s : State κ α} {command : Command κ α} {rest : List (Command κ α)}
      (next : s.agenda = command :: rest) : Step allowed s (s.carryOut command rest)

end Run

/-- A run that has come to a state through the past ones, the latest first. -/
inductive Run (settings : Settings) (allowed : Run.State κ α → Event κ α → Prop) :
    Run.State κ α → List (Run.State κ α) → Prop
  | start : Run settings allowed (.initial settings) []
  | step {s t : Run.State κ α} {past : List (Run.State κ α)} (run : Run settings allowed s past)
      (step : Run.Step allowed s t) : Run settings allowed t (s :: past)

namespace Run

variable {settings : Settings} {allowed : State κ α → Event κ α → Prop} {s t : State κ α}
  {past : List (State κ α)}

/-- A run starts with the candidates in order. -/
theorem start_of_candidates (versions : List Version)
    (order : Version.newestFirst settings.candidates = versions) :
    Run settings allowed
      (⟨{ Client.ofSettings settings with candidates := versions }, [], []⟩ : State κ α) [] := by
  subst order
  exact .start

/-- A run in which fewer events are allowed is one in which more are. -/
theorem mono {other : State κ α → Event κ α → Prop}
    (weaker : ∀ s event, allowed s event → other s event)
    (run : Run settings allowed s past) : Run settings other s past := by
  induction run with
  | start => exact .start
  | step run step ih =>
    cases step with
    | raise event admitted room => exact ih.step (.raise event (weaker _ _ admitted) room)
    | carryOut next => exact ih.step (.carryOut next)

theorem valid (run : Run settings allowed s past) : s.client.Valid := by
  induction run with
  | start => exact Client.valid_ofSettings settings
  | step run step ih =>
    cases step with
    | raise => exact ih.handle _
    | carryOut => exact ih

/-- What every event keeps, given the invariant of the client, and every command as well, holds at
the end of a run. -/
theorem invariant {P : State κ α → Prop} (start : P (.initial settings))
    (raise : ∀ s event, s.client.Valid → P s → allowed s event → s.HasRoom event →
      P (s.raise event))
    (carryOut : ∀ s command rest, P s → s.agenda = command :: rest → P (s.carryOut command rest))
    (run : Run settings allowed s past) : P s := by
  induction run with
  | start => exact start
  | step run step ih =>
    cases step with
    | raise event admitted room => exact raise _ event run.valid ih admitted room
    | carryOut next => exact carryOut _ _ _ ih next

/-- The first request has been entered, and is to be handed to the first connection found. -/
structure FirstRequest (s : State Nat Nat) : Prop where
  session : s.client.session = some ⟨⟨1, 3⟩, 3, 1⟩
  age : s.client.outstanding.nextAge = 1
  requests : s.client.outstanding.toList = [⟨.first, .getSlotStatus, 7, .standard, 0⟩]
  found : s.client.outstanding.find? .first = some ⟨.first, .getSlotStatus, 7, .standard, 0⟩
  sending : s.client.call? 0 = some (.sending .first 1)
  agenda : s.agenda = [.send 0 3 .first .getSlotStatus Query.getSlotStatus.payload]
  handed : s.events.flatMap Event.handed = [7]

/-- A first request can be made, if the events that lead to it are allowed whenever nothing is still
to be done. -/
theorem exists_firstRequest (allowed : State Nat Nat → Event Nat Nat → Prop)
    (begins : ∀ s, s.client.calls = [] → s.agenda = [] → s.history = [] →
      allowed s (.call 0 (.request .getSlotStatus 7)))
    (goesOn : ∀ s event, s.agenda = [] →
      event ∈ [.found 0 (.ok (3, ⟨1, 3⟩)), .linked 0 (.ok ()), .routed 0 (.ok ())] →
        allowed s event) :
    ∃ (s : State Nat Nat) (past : List (State Nat Nat)),
      Run { Settings.standard with candidates := [⟨1, 3⟩] } allowed s past ∧ FirstRequest s := by
  have run : Run (κ := Nat) (α := Nat) { Settings.standard with candidates := [⟨1, 3⟩] } allowed
      _ _ :=
    start_of_candidates [⟨1, 3⟩] (by decide +kernel)
      |>.step (.raise (.call 0 (.request .getSlotStatus 7)) (begins _ rfl rfl rfl)
        fun _ => by decide)
      |>.step (.carryOut rfl)
      |>.step (.raise (.found 0 (.ok (3, ⟨1, 3⟩))) (goesOn _ _ rfl (.head _)) fun _ => by decide)
      |>.step (.carryOut rfl)
      |>.step (.raise (.linked 0 (.ok ())) (goesOn _ _ rfl (.tail _ (.head _)))
        fun _ => by decide)
      |>.step (.carryOut rfl)
      |>.step (.raise (.routed 0 (.ok ())) (goesOn _ _ rfl (.tail _ (.tail _ (.head _))))
        fun _ => by decide)
  have found : (Outstanding.empty.submit .getSlotStatus 7 .standard).2.find? .first =
      some ⟨.first, .getSlotStatus, 7, .standard, 0⟩ :=
    (Outstanding.find?_submit _ _ _ _ _).trans (if_pos rfl)
  exact ⟨_, _, run, rfl, rfl, Outstanding.toList_submit_empty _ _ _, found, rfl, rfl, rfl⟩

/-- A first request can be sent, over the first connection that is found. -/
theorem exists_request_sent (allowed : State Nat Nat → Event Nat Nat → Prop)
    (begins : ∀ s, s.client.calls = [] → s.history = [] →
      allowed s (.call 0 (.request .getSlotStatus 7)))
    (goesOn : ∀ s event, event.call? = some 0 → allowed s event) :
    ∃ (s : State Nat Nat) (past : List (State Nat Nat)),
      Run { Settings.standard with candidates := [⟨1, 3⟩] } allowed s past ∧
        s.client.session = some ⟨⟨1, 3⟩, 3, 1⟩ ∧ s.client.outstanding.nextAge = 1 ∧
        s.client.outstanding.find? .first = some ⟨.first, .getSlotStatus, 7, .standard, 0⟩ ∧
        s.agenda = [.send 0 3 .first .getSlotStatus Query.getSlotStatus.payload] ∧
        s.events.flatMap Event.handed = [7] := by
  obtain ⟨s, past, run, first⟩ := exists_firstRequest allowed
    (fun s calls _ history => begins s calls history) fun s event _ listed => goesOn s event (by
      simp only [List.mem_cons, List.not_mem_nil, or_false] at listed
      rcases listed with rfl | rfl | rfl <;> rfl)
  exact ⟨s, past, run, first.session, first.age, first.found, first.agenda, first.handed⟩

end Run

end Baseband
