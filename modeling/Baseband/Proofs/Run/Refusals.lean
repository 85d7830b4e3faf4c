import Mathlib.Data.List.Pairwise
import Baseband.Proofs.Client.Course
import Baseband.Proofs.Run.Acquire
import Baseband.Proofs.Run.Responses

/-!
# Calls that are refused

A request may be refused after any amount of work: lookups and rests, a session that is found and
given up again, a death meanwhile. Whatever has happened, the call that returns an error has had its
completion run with the same error and has entered nothing into the table; and a call that returns a
serial has entered one request, under this serial.
-/

namespace Baseband

open Command (collect send? answer?)

variable {κ α : Type}

/-- The tables hold the same requests, and issue the same serials. -/
structure Outstanding.Agrees (o o' : Outstanding κ) : Prop where
  requests : ∀ serial, o'.find? serial = o.find? serial
  nextSerial : o'.nextSerial = o.nextSerial
  nextAge : o'.nextAge = o.nextAge

theorem Outstanding.agrees_of_eq {o o' : Outstanding κ} (same : o' = o) : o.Agrees o' := by
  subst same
  exact ⟨fun _ => rfl, rfl, rfl⟩

/-- Clearing a table without requests changes nothing that anybody sees. -/
theorem Outstanding.agrees_clear {o : Outstanding κ} (nothing : o.toList = []) :
    o.Agrees o.clear where
  requests serial := by
    rw [find?_clear]
    refine (Option.eq_none_iff_forall_ne_some.2 fun request found => ?_).symm
    have listed := mem_toList.2 ⟨serial, found⟩
    simp [nothing] at listed
  nextSerial := rfl
  nextAge := rfl

namespace Client

variable {c : Client κ α} {event : Event κ α} {earlier : List (Event κ α)} {id : CallId}
  {P Q : Client κ α → Event κ α → Prop}

/-! ## The steps of a call -/

def entered? (c : Client κ α) (event : Event κ α) : Option (Request κ) :=
  if (c.handle event).1.outstanding.nextAge = c.outstanding.nextAge then none
  else (c.handle event).1.outstanding.find? c.outstanding.freeSerial

/-- The requests that a call has entered into the table in the course of events. The events, and the
requests, are listed with the latest first. -/
def entries (c : Client κ α) (id : CallId) : List (Event κ α) → List (Request κ)
  | [] => []
  | event :: earlier =>
    (if event.about? = some id then (c.after earlier).entered? event else none).toList ++
      c.entries id earlier

/-- This holds of each step that a call has taken in the course of events: of the client, and the
event that takes the call further. -/
def EachStep (c : Client κ α) (id : CallId) (events : List (Event κ α))
    (P : Client κ α → Event κ α → Prop) : Prop :=
  ∀ later event earlier, events = later ++ event :: earlier → event.about? = some id →
    P (c.after earlier) event

/-- No call has begun between two steps in which this one set a session up. -/
def Undisturbed (c : Client κ α) (id : CallId) (events : List (Event κ α)) : Prop :=
  ∀ later other goal earlier, events = later ++ .call other goal :: earlier →
    ¬(c.after earlier).SetsUp id

theorem entries_of_foreign (foreign : event.about? ≠ some id) :
    c.entries id (event :: earlier) = c.entries id earlier := by
  simp [entries, foreign]

theorem entries_of_kept
    (count : ((c.after earlier).handle event).1.outstanding.nextAge =
      (c.after earlier).outstanding.nextAge) :
    c.entries id (event :: earlier) = c.entries id earlier := by
  simp [entries, entered?, count]

theorem entries_of_entered {op : Operation} {completion : κ} {attribution : Attribution}
    (about : event.about? = some id)
    (table : ((c.after earlier).handle event).1.outstanding =
      ((c.after earlier).outstanding.submit op completion attribution).2) :
    c.entries id (event :: earlier) =
      ⟨(c.after earlier).outstanding.freeSerial, op, completion, attribution,
        (c.after earlier).outstanding.nextAge⟩ :: c.entries id earlier := by
  have counted : ((c.after earlier).outstanding.submit op completion attribution).2.nextAge ≠
      (c.after earlier).outstanding.nextAge := Nat.succ_ne_self _
  simp only [entries, about, if_true, entered?, table, counted, if_false,
    Outstanding.find?_freeSerial, Option.toList_some, List.singleton_append]

/-- What holds of each step holds of the last one, if it is a step, and of those before. -/
theorem eachStep_cons : c.EachStep id (event :: earlier) P ↔
    (event.about? = some id → P (c.after earlier) event) ∧ c.EachStep id earlier P := by
  constructor
  · intro each
    exact ⟨each [] event earlier rfl, fun later before first split =>
      each (event :: later) before first (congrArg (event :: ·) split)⟩
  · rintro ⟨last, each⟩ later before first split about
    cases later with
    | nil =>
      obtain ⟨rfl, rfl⟩ := List.cons.inj split
      exact last about
    | cons _ later => exact each later before first (List.cons.inj split).2 about

theorem Undisturbed.before (undisturbed : c.Undisturbed id (event :: earlier)) :
    c.Undisturbed id earlier := fun later other goal first split =>
  undisturbed (event :: later) other goal first (congrArg (event :: ·) split)

/-- No call begins by an event that comes while this one sets a session up. -/
theorem Undisturbed.alone (undisturbed : c.Undisturbed id (event :: earlier))
    (setsUp : (c.after earlier).SetsUp id) (other : CallId) (goal : Goal κ) :
    event ≠ .call other goal := by
  rintro rfl
  exact undisturbed [] other goal earlier rfl setsUp

end Client

namespace Run

open Client (Course Departs Passes Takes)

variable {settings : Settings} {allowed : State κ α → Event κ α → Prop} {s : State κ α}
  {past : List (State κ α)} {event : Event κ α} {id : CallId}

theorem Ordinary.byCalls (s : State κ α) (event : Event κ α) (ordinary : Ordinary s event) :
    ByCalls s event := by
  cases event <;> first | exact ordinary | trivial

/-- The attribution of the client is that of its settings throughout a run. -/
theorem attribution_eq (run : Run settings allowed s past) :
    s.client.attribution = settings.attribution := by
  refine run.invariant (P := fun s => s.client.attribution = settings.attribution) rfl ?_ ?_
  · intro s event valid same _ _
    exact (Client.handle_move valid event).attribution.trans same
  · intro s command rest same _
    exact same

/-- While a call sets a session up undisturbed, nothing is outstanding. -/
theorem toList_of_setsUp (run : Run settings Ordinary s past)
    (undisturbed : (Client.ofSettings settings).Undisturbed id s.events)
    (setsUp : s.client.SetsUp id) : s.client.outstanding.toList = [] := by
  induction run with
  | start =>
    obtain ⟨goal, stage, session, found, -⟩ := setsUp
    cases found
  | @step s t past run step ih =>
    cases step with
    | raise event ordinary =>
      refine run.valid.toList_of_setsUp setsUp (ih undisturbed.before)
        (run.mono Ordinary.byCalls).nothing_outstanding ?_ ?_
      · rintro op completion attribution rfl
        exact ordinary
      · intro before
        rw [run.client_eq_after] at before
        exact undisturbed.alone before
    | carryOut => exact ih undisturbed setsUp

/-! ## What is left of a call -/

/-- Nothing of the call has come into the table, nothing of it is sent, and none of its steps has
changed the table: none at all, if no call begins while it sets a session up. -/
structure NoTrace (settings : Settings) (s : State κ α) (id : CallId) : Prop where
  entries : (Client.ofSettings settings).entries id s.events = []
  unsent : ∀ sending ∈ s.sends, sending.id ≠ id
  spares : (Client.ofSettings settings).Undisturbed id s.events →
    (Client.ofSettings settings).EachStep id s.events fun c event =>
      c.outstanding.Agrees (c.handle event).1.outstanding

def KeepsSession (settings : Settings) (s : State κ α) (id : CallId) : Prop :=
  (Client.ofSettings settings).EachStep id s.events fun c event =>
    c.session = none ∨ (c.handle event).1.session = c.session

inductive Reason (settings : Settings) (s : State κ α) (id : CallId) (query : Query) : Error → Prop
  | unavailable : Reason settings s id query .unavailable
  | unsupported {session : Session α} {later earlier : List (Event κ α)} {event : Event κ α}
      (split : s.events = later ++ event :: earlier)
      (returned : .finish id (.request (.error (.notSupported query.operation session.version))) ∈
        (((Client.ofSettings settings).after earlier).handle event).2)
      (cached : ((Client.ofSettings settings).after earlier).session = some session)
      (stays : ((Client.ofSettings settings).after (event :: earlier)).session = some session)
      (lacks : session.supports query.operation = false) (keeps : KeepsSession settings s id) :
      Reason settings s id query (.notSupported query.operation session.version)

/-- Steps in a run: an event more is a step more if it is about the call. -/
theorem eachStep_raise (run : Run settings allowed s past) {P : Client κ α → Event κ α → Prop} :
    (Client.ofSettings settings).EachStep id (s.raise event).events P ↔
      (event.about? = some id → P s.client event) ∧
        (Client.ofSettings settings).EachStep id s.events P := by
  rw [State.events_raise, Client.eachStep_cons, ← run.client_eq_after]

/-- An event in a run that enters no request for the call adds no entry of it. -/
theorem entries_raise_of_kept (run : Run settings allowed s past)
    (count : event.about? = some id →
      (s.client.handle event).1.outstanding.nextAge = s.client.outstanding.nextAge) :
    (Client.ofSettings settings).entries id (s.raise event).events =
      (Client.ofSettings settings).entries id s.events := by
  rw [State.events_raise]
  by_cases about : event.about? = some id
  · exact Client.entries_of_kept (by rw [← run.client_eq_after]; exact count about)
  · exact Client.entries_of_foreign about

/-- An event that enters, sends and changes nothing for the call leaves no trace of it. -/
theorem NoTrace.raise (trace : NoTrace settings s id) (run : Run settings allowed s past)
    (count : event.about? = some id →
      (s.client.handle event).1.outstanding.nextAge = s.client.outstanding.nextAge)
    (sends : ∀ sending ∈ collect send? (s.client.handle event).2, sending.id ≠ id)
    (agrees : (Client.ofSettings settings).Undisturbed id s.events → event.about? = some id →
      s.client.outstanding.Agrees (s.client.handle event).1.outstanding) :
    NoTrace settings (s.raise event) id where
  entries := (entries_raise_of_kept run count).trans trace.entries
  unsent sending listed := by
    rw [State.sends, State.issued_raise] at listed
    exact (List.mem_append.1 listed).elim (sends sending) (trace.unsent sending)
  spares undisturbed :=
    (eachStep_raise run).2 ⟨agrees undisturbed.before, trace.spares undisturbed.before⟩

theorem NoTrace.carryOut (trace : NoTrace settings s id) {command : Command κ α}
    {rest : List (Command κ α)} (next : s.agenda = command :: rest) :
    NoTrace settings (s.carryOut command rest) id where
  entries := trace.entries
  unsent sending listed := trace.unsent sending ((State.issued_carryOut send? next).mem_iff.1 listed)
  spares := trace.spares

/-- An event that takes the call no further leaves no trace of it. -/
theorem NoTrace.pass (trace : NoTrace settings s id) (run : Run settings allowed s past)
    (passes : s.client.Passes id event) : NoTrace settings (s.raise event) id := by
  have same (about : event.about? = some id) :
      (s.client.handle event).1.outstanding = s.client.outstanding := by
    rw [passes.ignores about]
  exact trace.raise run (fun about => congrArg (·.nextAge) (same about)) passes.sends
    fun _ about => Outstanding.agrees_of_eq (same about)

theorem KeepsSession.pass (keeps : KeepsSession settings s id) (run : Run settings allowed s past)
    (passes : s.client.Passes id event) : KeepsSession settings (s.raise event) id :=
  (eachStep_raise run).2 ⟨fun about => .inr (by rw [passes.ignores about]), keeps⟩

theorem Reason.pass {query : Query} {why : Error} (reason : Reason settings s id query why)
    (run : Run settings allowed s past) (passes : s.client.Passes id event) :
    Reason settings (s.raise event) id query why := by
  cases reason with
  | unavailable => exact .unavailable
  | @unsupported session later earlier refusal split returned cached stays lacks keeps =>
    have split : (s.raise event).events = (event :: later) ++ refusal :: earlier :=
      congrArg (event :: ·) split
    exact .unsupported split returned cached stays lacks (keeps.pass run passes)

/-! ## Where a call has come -/

/-- Where a call has come in a run, by what it has returned or is about to. -/
inductive Standing (settings : Settings) (s : State κ α) (id : CallId) : Prop
  /-- It has not begun, or it connects. -/
  | waits
      (connects : ∀ call, s.client.call? id = some call →
        ∃ goal stage, call = .connecting goal stage)
      (answers : ∀ answer, (id, answer) ∉ s.issued answer?) (trace : NoTrace settings s id)
      (keeps : (∃ goal, s.client.call? id = some (.connecting goal .abandoning)) ∨
        KeepsSession settings s id)
  | refused {query : Query} {completion : κ} {why : Error} (unused : s.client.call? id = none)
      (begun : .call id (.request query completion) ∈ s.events)
      (answers : ∀ answer, (id, answer) ∈ s.issued answer? → answer = .request (.error why))
      (trace : NoTrace settings s id) (reason : Reason settings s id query why)
  | entered {query : Query} {completion : κ} {serial : Serial} {age : Nat}
      (departs : s.client.call? id = none ∨
        ∃ generation, s.client.call? id = some (.sending serial generation))
      (begun : .call id (.request query completion) ∈ s.events)
      (answers : ∀ answer, (id, answer) ∈ s.issued answer? → answer = .request (.ok serial))
      (entries : (Client.ofSettings settings).entries id s.events =
        [⟨serial, query.operation, completion, settings.attribution, age⟩])
  /-- It has come to an end that is no outcome of a request. -/
  | ended {goal : Goal κ} (unused : s.client.call? id = none) (begun : .call id goal ∈ s.events)
      (answers : ∀ accepted, (id, .request accepted) ∉ s.issued answer?)

/-- A call that is taken no further has returned before or has not returned. -/
theorem mem_answers_of_passes (passes : s.client.Passes id event) {answer : Answer α} :
    (id, answer) ∈ (s.raise event).issued answer? → (id, answer) ∈ s.issued answer? := by
  rw [State.issued_raise]
  exact fun listed => (List.mem_append.1 listed).resolve_left (passes.answers answer)

/-- A call that is taken no further stands where it stood. -/
theorem Standing.pass (standing : Standing settings s id) (run : Run settings allowed s past)
    (passes : s.client.Passes id event) : Standing settings (s.raise event) id := by
  cases standing with
  | waits connects answers trace keeps =>
    refine .waits ?_ (fun answer listed => answers answer (mem_answers_of_passes passes listed))
      (trace.pass run passes) ?_
    · rw [State.client_raise, passes.call]
      exact connects
    · rw [State.client_raise, passes.call]
      exact keeps.imp_right fun keeps => keeps.pass run passes
  | refused unused begun answers trace reason =>
    exact .refused (passes.call.trans unused) (.tail _ begun)
      (fun answer listed => answers answer (mem_answers_of_passes passes listed))
      (trace.pass run passes) (reason.pass run passes)
  | entered departs begun answers entries =>
    refine .entered ?_ (.tail _ begun)
      (fun answer listed => answers answer (mem_answers_of_passes passes listed))
      ((entries_raise_of_kept run fun about => by rw [passes.ignores about]).trans entries)
    rw [State.client_raise, passes.call]
    exact departs
  | ended unused begun answers =>
    exact .ended (passes.call.trans unused) (.tail _ begun)
      fun accepted listed => answers accepted (mem_answers_of_passes passes listed)

theorem Standing.carryOut (standing : Standing settings s id) {command : Command κ α}
    {rest : List (Command κ α)} (next : s.agenda = command :: rest) :
    Standing settings (s.carryOut command rest) id := by
  have issued {answer : Answer α} :
      (id, answer) ∈ (s.carryOut command rest).issued answer? ↔ (id, answer) ∈ s.issued answer? :=
    (State.issued_carryOut answer? next).mem_iff
  cases standing with
  | waits connects answers trace keeps =>
    exact .waits connects (fun answer listed => answers answer (issued.1 listed))
      (trace.carryOut next) keeps
  | refused unused begun answers trace reason =>
    refine .refused unused begun (fun answer listed => answers answer (issued.1 listed))
      (trace.carryOut next) ?_
    cases reason with
    | unavailable => exact .unavailable
    | unsupported split returned cached stays lacks keeps =>
      exact .unsupported split returned cached stays lacks keeps
  | entered departs begun answers entries =>
    exact .entered departs begun (fun answer listed => answers answer (issued.1 listed)) entries
  | ended unused begun answers =>
    exact .ended unused begun fun accepted listed => answers accepted (issued.1 listed)

/-! ## A call that connects takes a step -/

section Connecting

variable {goal : Goal κ} {c' : Client κ α} {commands : List (Command κ α)}
  (handled : s.client.handle event = (c', commands))

include handled

/-- A call that has not been answered before has only the answers of this step. -/
theorem mem_answers_of_handled (answers : ∀ answer, (id, answer) ∉ s.issued answer?)
    {answer : Answer α} :
    (id, answer) ∈ (s.raise event).issued answer? ↔ (id, answer) ∈ collect answer? commands := by
  rw [State.issued_raise, handled, List.mem_append, or_iff_left (answers answer)]

/-- A step that keeps the table and sends nothing for the call leaves no trace of it. -/
theorem NoTrace.of_handled (trace : NoTrace settings s id) (run : Run settings allowed s past)
    (same : c'.outstanding = s.client.outstanding)
    (unsent : ∀ sending ∈ collect send? commands, sending.id ≠ id) :
    NoTrace settings (s.raise event) id := by
  have same : (s.client.handle event).1.outstanding = s.client.outstanding := by
    rw [handled, same]
  refine trace.raise run (fun _ => congrArg (·.nextAge) same) ?_
    fun _ _ => Outstanding.agrees_of_eq same
  rw [handled]
  exact unsent

/-- A step that leaves the session, or that finds none, ends no session. -/
theorem KeepsSession.of_handled (keeps : KeepsSession settings s id)
    (run : Run settings allowed s past)
    (session : s.client.session = none ∨ c'.session = s.client.session) :
    KeepsSession settings (s.raise event) id :=
  (eachStep_raise run).2 ⟨fun _ => by rw [handled]; exact session, keeps⟩

/-- The call gives the session up that it was setting up. Then the table, which it clears, was empty
already. -/
theorem standing_of_givesUp (run : Run settings Ordinary s past) {before : Stage α}
    {session : Session α} (found : s.client.call? id = some (.connecting goal before))
    (settingUp : before.settingUp? = some session)
    (call : c'.call? id = some (.connecting goal .abandoning))
    (cleared : c'.outstanding = s.client.outstanding.clear) (quiet : Client.Quiet commands)
    (answers : ∀ answer, (id, answer) ∉ s.issued answer?) (trace : NoTrace settings s id) :
    Standing settings (s.raise event) id := by
  have client : (s.raise event).client = c' := congrArg Prod.fst handled
  refine .waits ?_ ?_ (trace.raise run (fun _ => ?_) ?_ fun undisturbed _ => ?_) (.inl ?_)
  · rw [client, call]
    rintro _ ⟨⟩
    exact ⟨_, _, rfl⟩
  · simp [mem_answers_of_handled handled answers, quiet.1]
  · rw [handled, cleared]
    rfl
  · simp [handled, quiet.2]
  · rw [handled, cleared]
    exact Outstanding.agrees_clear
      (run.toList_of_setsUp undisturbed ⟨_, _, _, found, settingUp⟩)
  · rw [client]
    exact ⟨_, call⟩

/-- The call is refused over a session that stays. -/
theorem Reason.of_lacking (run : Run settings allowed s past) {query : Query} {session : Session α}
    (cached : s.client.session = some session) (stays : c'.session = some session)
    (lacks : session.supports query.operation = false)
    (returned :
      .finish id (.request (.error (.notSupported query.operation session.version))) ∈ commands)
    (keeps : KeepsSession settings s id) :
    Reason settings (s.raise event) id query (.notSupported query.operation session.version) := by
  have split : (s.raise event).events = [] ++ event :: s.events := rfl
  refine .unsupported split ?_ ?_ ?_ lacks
    (keeps.of_handled handled run (.inr (stays.trans cached.symm)))
  · rw [← run.client_eq_after, handled]
    exact returned
  · rw [← run.client_eq_after, cached]
  · rw [Client.after_cons, ← run.client_eq_after, handled]
    exact stays

/-- The call is told what it asked for, or refused, or its request is entered. -/
theorem standing_of_conclusion {d : Client κ α} {own : List (Command κ α)} {next : Option CallId}
    (commands_eq : commands = (next.map .letIn).toList ++ own) (unused : d.call? id = none)
    (same : d.outstanding = s.client.outstanding) (session : d.session = s.client.session)
    (attribution : d.attribution = s.client.attribution)
    (conclusion : Client.Conclusion d id goal c' own) (run : Run settings Ordinary s past)
    (about : event.about? = some id) (begun : .call id goal ∈ (s.raise event).events)
    (answers : ∀ answer, (id, answer) ∉ s.issued answer?) (trace : NoTrace settings s id)
    (keeps : (∃ goal, s.client.call? id = some (.connecting goal .abandoning)) ∨
      KeepsSession settings s id) :
    Standing settings (s.raise event) id := by
  subst commands_eq
  have client : (s.raise event).client = c' := congrArg Prod.fst handled
  have told {answer : Answer α} :
      (id, answer) ∈ (s.raise event).issued answer? ↔ (id, answer) ∈ collect answer? own := by
    simp [mem_answers_of_handled handled answers]
  cases conclusion with
  | found | told => exact .ended (client ▸ unused) begun (by simp [told])
  | unavailable =>
    exact .refused (client ▸ unused) begun (by simp [told])
      (trace.of_handled handled run same (by simp)) .unavailable
  | @unsupported query completion cached found lacks =>
    have before : s.client.session = some cached := session.symm.trans found
    have keeps : KeepsSession settings s id := by
      refine keeps.resolve_left ?_
      rintro ⟨goal', abandoning⟩
      exact Option.some_ne_none cached (before.symm.trans (run.valid.knowsOf abandoning))
    exact .refused (client ▸ unused) begun (by simp [told])
      (trace.of_handled handled run same (by simp))
      (.of_lacking handled run before found lacks (by simp) keeps)
  | @accepted query completion cached found supports =>
    have sending : (s.raise event).client.call? id =
        some (.sending d.outstanding.freeSerial cached.generation) := by
      rw [client]
      exact Client.call?_putCall _ _ _
    have entered : (s.client.handle event).1.outstanding =
        (s.client.outstanding.submit query.operation completion settings.attribution).2 := by
      rw [handled, ← same, ← run.attribution_eq, ← attribution]
      rfl
    rw [run.client_eq_after] at entered
    have entries := Client.entries_of_entered about entered
    rw [trace.entries, ← run.client_eq_after, ← same] at entries
    exact .entered (.inr ⟨_, sending⟩) begun (by simp [told]) entries

/-- One step of a call that connects, or begins to. -/
theorem standing_of_course (course : Course s.client id goal c' commands)
    (run : Run settings Ordinary s past) (about : event.about? = some id)
    (begun : .call id goal ∈ (s.raise event).events) (standing : Standing settings s id)
    (answers : ∀ answer, (id, answer) ∉ s.issued answer?) (trace : NoTrace settings s id)
    (keeps : (∃ goal, s.client.call? id = some (.connecting goal .abandoning)) ∨
      KeepsSession settings s id) :
    Standing settings (s.raise event) id := by
  have client : (s.raise event).client = c' := congrArg Prod.fst handled
  cases course with
  | ignores => exact standing.pass run (Client.passes_of_ignored handled)
  | connects call same session quiet =>
    refine .waits ?_ ?_ (trace.of_handled handled run same (by simp [quiet.2])) ?_
    · rw [client, call]
      rintro _ ⟨⟩
      exact ⟨_, _, rfl⟩
    · simp [mem_answers_of_handled handled answers, quiet.1]
    · rw [client]
      rcases keeps with ⟨goal', abandoning⟩ | keeps
      · have connects := call
        rw [← client] at connects
        obtain rfl := run.valid.stage_of_abandoning abandoning about connects
        exact .inl ⟨_, call⟩
      · exact .inr (keeps.of_handled handled run (session.imp_right And.left))
  | givesUp found settingUp call cleared quiet =>
    exact standing_of_givesUp handled run found settingUp call cleared quiet answers trace
  | concludes next unused same session attribution conclusion =>
    exact standing_of_conclusion handled rfl unused same session attribution conclusion run about
      begun answers trace keeps
  | vanishes call same session quiet =>
    exact .ended (client ▸ call) begun
      (by simp [mem_answers_of_handled handled answers, quiet.1])

end Connecting

/-- Whatever happens in an ordinary run, a call stands where such a run can bring it. -/
theorem Standing.raise (standing : Standing settings s id) (run : Run settings Ordinary s past)
    (ordinary : Ordinary s event) : Standing settings (s.raise event) id := by
  by_cases about : event.about? = some id
  · cases run.valid.takes about with
    | ignores unused same => exact standing.pass run (Client.passes_of_ignored same)
    | begins call unused course =>
      subst call
      cases standing with
      | waits connects answers trace keeps =>
        exact standing_of_course rfl course run about (.head _)
          (.waits connects answers trace keeps) answers trace keeps
      | refused _ begun | entered _ begun | ended _ begun => exact absurd begun (ordinary _)
    | @goesOn goal stage found course =>
      cases standing with
      | waits connects answers trace keeps =>
        exact standing_of_course rfl course run about (run.asks_begun (.inr ⟨stage, found⟩))
          (.waits connects answers trace keeps) answers trace keeps
      | refused unused | ended unused => cases unused.symm.trans found
      | entered departs =>
        rcases departs with unused | ⟨generation, sending⟩
        · cases unused.symm.trans found
        · cases sending.symm.trans found
    | @departs serial generation sending departs =>
      cases standing with
      | waits connects =>
        obtain ⟨goal, stage, connecting⟩ := connects _ sending
        cases connecting
      | refused unused | ended unused => cases unused.symm.trans sending
      | entered before begun answers entries =>
        rcases before with unused | ⟨generation', sending'⟩
        · cases unused.symm.trans sending
        · cases sending'.symm.trans sending
          refine .entered ?_ (.tail _ begun) ?_
            ((entries_raise_of_kept run fun _ => departs.count).trans entries)
          · exact departs.call.symm.imp_right fun call => ⟨_, call⟩
          · intro answer listed
            rw [State.issued_raise] at listed
            refine (List.mem_append.1 listed).elim (fun now => ?_) (answers answer)
            exact congrArg Prod.snd (departs.answers _ now)
  · exact standing.pass run (run.valid.passes_of_foreign about)

/-- At any time of an ordinary run, every call stands somewhere. -/
theorem standing (run : Run settings Ordinary s past) (id : CallId) : Standing settings s id := by
  induction run with
  | start =>
    refine .waits nofun nofun ⟨rfl, nofun, fun _ => ?_⟩ (.inr ?_)
    · intro later event earlier split
      simp [State.initial, State.events] at split
    · intro later event earlier split
      simp [State.initial, State.events] at split
  | step run step ih =>
    cases step with
    | raise event ordinary => exact ih.raise run ordinary
    | carryOut next => exact ih.carryOut next

/-! ## Completions before returns -/

/-- Before a call returns an error of its request, the completion is run with this error. -/
theorem completed_before_return (run : Run settings allowed s past) {why : Error} :
    (∀ front rest, s.agenda = front ++ .finish id (.request (.error why)) :: rest →
      ∃ query completion, .call id (.request query completion) ∈ s.events ∧
        .complete completion (.error why) ∈ front ++ s.done) ∧
    (.finish id (.request (.error why)) ∈ s.done →
      ∃ query completion, .call id (.request query completion) ∈ s.events ∧
        .complete completion (.error why) ∈ s.done) := by
  induction run with
  | start => exact ⟨by simp [State.initial], nofun⟩
  | @step s t past run step ih =>
    obtain ⟨due, returned⟩ := ih
    cases step with
    | raise event =>
      constructor
      · intro front rest split
        rcases Client.split_append split with ⟨rest, own⟩ | ⟨before, rfl, later⟩
        · obtain ⟨query, completion, asks, completed⟩ :=
            (Client.handle_move run.valid _).completes own
          exact ⟨query, completion, run.asks_begun asks, List.mem_append_left _ completed⟩
        · obtain ⟨query, completion, begun, completed⟩ := due before rest later
          refine ⟨query, completion, .tail _ begun, ?_⟩
          rw [State.done_raise, List.append_assoc]
          exact List.mem_append_right _ completed
      · intro listed
        obtain ⟨query, completion, begun, completed⟩ := returned listed
        exact ⟨query, completion, .tail _ begun, completed⟩
    | @carryOut command rest next =>
      constructor
      · intro front rest' split
        obtain ⟨query, completion, begun, completed⟩ :=
          due (command :: front) rest' (next.trans (congrArg (command :: ·) split))
        refine ⟨query, completion, begun, ?_⟩
        rw [State.done_carryOut]
        exact List.perm_middle.symm.subset completed
      · intro listed
        rw [State.done_carryOut, List.mem_cons] at listed
        rcases listed with rfl | before
        · obtain ⟨query, completion, begun, completed⟩ := due [] rest next
          exact ⟨query, completion, begun, .tail _ completed⟩
        · obtain ⟨query, completion, begun, completed⟩ := returned before
          exact ⟨query, completion, begun, .tail _ completed⟩

/-- A completion that has been run but once has been run with one outcome. -/
theorem outcome_unique (distinct : s.invoked.Nodup) {completion : κ} {outcome other : Outcome}
    (first : .complete completion outcome ∈ s.done)
    (second : .complete completion other ∈ s.done) : outcome = other := by
  by_contra differ
  have apart := List.pairwise_filterMap.1 distinct
  have : Std.Symm fun first second : Command κ α => ∀ one, first.completion? = some one →
      ∀ two, second.completion? = some two → one ≠ two :=
    ⟨fun _ _ apart one listed two listed' => (apart two listed' one listed).symm⟩
  exact apart.forall first second (by simpa using differ) completion rfl completion rfl rfl

/-- When a call returns an error of its request, the error is that the service is unavailable, or
that the cached session does not implement the operation and stays cached; the completion of the
call has been run, once, with the same error; and nothing of the call is or was in the table or
sent, nor has it changed the table for others. When a call returns a serial, it has entered one
request into the table, its own, under this serial and with the attribution of the client, whatever
has become of the send. -/
theorem request_refused_or_entered (run : Run settings Ordinary s past) :
    (∀ id why, .finish id (.request (.error why)) ∈ s.done →
      ∃ query completion, .call id (.request query completion) ∈ s.events ∧
        (∀ goal, .call id goal ∈ s.events → goal = .request query completion) ∧
        .complete completion (.error why) ∈ s.done ∧
        (s.handed.Nodup → s.invoked.Nodup ∧
          completion ∉ s.client.held ++ s.client.registered ++ s.due ∧
          ∀ outcome, .complete completion outcome ∈ s.done → outcome = .error why) ∧
        NoTrace settings s id ∧ Reason settings s id query why) ∧
    ∀ id serial, .finish id (.request (.ok serial)) ∈ s.done →
      ∃ query completion age, .call id (.request query completion) ∈ s.events ∧
        (∀ goal, .call id goal ∈ s.events → goal = .request query completion) ∧
        (Client.ofSettings settings).entries id s.events =
          [⟨serial, query.operation, completion, settings.attribution, age⟩] := by
  have issued {id : CallId} {answer : Answer α} (returned : .finish id answer ∈ s.done) :
      (id, answer) ∈ s.issued answer? :=
    List.mem_append_right _ (List.mem_filterMap.2 ⟨_, returned, rfl⟩)
  constructor
  · intro id why returned
    obtain ⟨query, completion, begun, completed⟩ := run.completed_before_return.2 returned
    have once (goal : Goal κ) (also : .call id goal ∈ s.events) :
        goal = .request query completion := run.begins_once _ _ _ also begun
    refine ⟨query, completion, begun, once, completed, fun distinct => ?_, ?_⟩
    · obtain ⟨single, nowhere⟩ :=
        run.invoked_once (fun _ _ _ run ordinary => ordinary.careful run) distinct
      exact ⟨single, nowhere completion (Command.mem_collect_completion.2 ⟨_, completed⟩),
        fun outcome also => outcome_unique single also completed⟩
    · cases run.standing id with
      | waits _ answers => exact absurd (issued returned) (answers _)
      | @refused query' completion' why' _ begun' answers trace reason =>
        cases answers _ (issued returned)
        cases once _ begun'
        exact ⟨trace, reason⟩
      | entered _ _ answers => cases answers _ (issued returned)
      | ended _ _ answers => exact absurd (issued returned) (answers _)
  · intro id serial returned
    cases run.standing id with
    | waits _ answers => exact absurd (issued returned) (answers _)
    | refused _ _ answers => cases answers _ (issued returned)
    | @entered query completion serial' age _ begun answers entries =>
      cases answers _ (issued returned)
      exact ⟨query, completion, age, begun, fun goal also => run.begins_once _ _ _ also begun,
        entries⟩
    | ended _ _ answers => exact absurd (issued returned) (answers _)

/-- A call is refused whose session could not be set up. In another run, a call returns its serial
although its request could not be sent. -/
theorem request_refused_or_entered_of_failures :
    (∃ (s : State Nat Nat) (past : List (State Nat Nat)),
      Run { Settings.standard with candidates := [⟨1, 3⟩] } Ordinary s past ∧
        .finish 0 (.request (.error .unavailable)) ∈ s.done ∧
        (∃ completion, .complete completion (.error .unavailable) ∈ s.done) ∧
        NoTrace { Settings.standard with candidates := [⟨1, 3⟩] } s 0) ∧
    ∃ (s : State Nat Nat) (past : List (State Nat Nat)),
      Run { Settings.standard with candidates := [⟨1, 3⟩] } Ordinary s past ∧
        .finish 0 (.request (.ok .first)) ∈ s.done ∧
        ∃ op completion age,
          (Client.ofSettings (α := Nat) { Settings.standard with candidates := [⟨1, 3⟩] }).entries 0
            s.events = [⟨.first, op, completion, .standard, age⟩] := by
  constructor
  · have linking : Run (κ := Nat) (α := Nat) { Settings.standard with candidates := [⟨1, 3⟩] }
        Ordinary _ _ :=
      start_of_candidates [⟨1, 3⟩] (by decide +kernel)
        |>.step (.raise (.call 0 (.request .getSlotStatus 7)) (fun _ => by simp [State.events])
          fun _ => by decide)
        |>.step (.carryOut rfl)
        |>.step (.raise (.found 0 (.ok (3, ⟨1, 3⟩))) trivial fun _ => by decide)
        |>.step (.carryOut rfl)
    have gives (s : State Nat Nat) (idle : s.agenda = []) (table : s.client.outstanding = .empty)
        (cached : s.client.session = some ⟨⟨1, 3⟩, 3, 1⟩)
        (found : s.client.call? 0 =
          some (.connecting (.request .getSlotStatus 7) (.linking ⟨⟨1, 3⟩, 3, 1⟩))) :
        (s.raise (.linked 0 (.error .unavailable))).agenda = [.proceed 0] := by
      simp [Client.handle, Client.advance, found, Client.connect, Client.abandon, Client.teardown,
        Client.isCurrent, cached, table, Client.failAll, idle]
    have run := linking.step (.raise (.linked 0 (.error .unavailable)) trivial fun _ => by decide)
      |>.step (.carryOut (gives _ rfl rfl rfl rfl))
      |>.step (.raise (.proceeded 0) trivial fun _ => by decide)
      |>.step (.carryOut rfl)
      |>.step (.carryOut rfl)
    obtain ⟨query, completion, -, -, completed, -, trace, -⟩ :=
      (request_refused_or_entered run).1 0 .unavailable (.head _)
    exact ⟨_, _, run, .head _, ⟨completion, completed⟩, trace⟩
  · obtain ⟨before, past, routed, first⟩ := exists_firstRequest Ordinary
      (fun s _ _ nothing goal => by simp [State.events, nothing])
      (fun s event _ listed => by
        simp only [List.mem_cons, List.not_mem_nil, or_false] at listed
        rcases listed with rfl | rfl | rfl <;> trivial)
    let sent := before.carryOut (.send 0 3 .first .getSlotStatus Query.getSlotStatus.payload) []
    have fails : (sent.raise (.sent 0 (.error .unavailable))).agenda =
        [.complete 7 (.error .unavailable), .finish 0 (.request (.ok .first))] := by
      have current : sent.client.isCurrent 1 = true :=
        Client.isCurrent_iff.2 ⟨_, first.session, rfl⟩
      have sending : sent.client.call? 0 = some (.sending .first 1) := first.sending
      rw [State.agenda_raise, Client.handle_sent_of_current sending .unavailable current,
        show sent.client.outstanding.toList = _ from first.requests]
      rfl
    have run := routed.step (.carryOut first.agenda)
      |>.step (.raise (.sent 0 (.error .unavailable)) trivial (State.hasRoom_sent _ 0 _))
      |>.step (.carryOut fails)
      |>.step (.carryOut rfl)
    obtain ⟨query, completion, age, -, -, entries⟩ :=
      (request_refused_or_entered run).2 0 .first (.head _)
    exact ⟨_, _, run, .head _, query.operation, completion, age, entries⟩

end Run

end Baseband
