import Baseband.Proofs.Client.Returns

/-!
# A session is shared by those who wait

While a session is being looked for or set up, all other calls wait at the gate. As soon as one has
set it up, nobody is past the gate, and as long as the session is not lost, those who wait are let
in one after another and return it, without anything being looked up or set up again.
-/

namespace Baseband

variable {κ α : Type}

namespace Command

@[simp] def discover? : Command κ α → Option (CallId × Version)
  | .discover id version => some (id, version)
  | _ => none

@[simp] def setup? : Command κ α → Option CallId
  | .discover id _ | .link id _ _ | .route id _ => some id
  | _ => none

end Command

namespace Client

open Command (collect discover? setup?)

variable {c c' : Client κ α} {session : Session α} {event : Event κ α}
  {commands : List (Command κ α)}

/-! ## Lookups -/

/-- With the conclusion of a call, no other call begins or ends to connect. -/
theorem Conclusion.connecting {id other : CallId} {goal goal' : Goal κ} {stage : Stage α}
    (conclusion : Conclusion c id goal c' commands) (unused : c.call? id = none) :
    (other, .connecting goal' stage) ∈ c'.calls ↔ (other, .connecting goal' stage) ∈ c.calls := by
  cases conclusion with
  | found | told | unavailable | unsupported => exact Iff.rfl
  | accepted =>
    rw [mem_calls_putCall]
    constructor
    · rintro (⟨listed, -⟩ | ⟨-, ⟨⟩⟩)
      exact listed
    · intro listed
      refine .inl ⟨listed, ?_⟩
      rintro rfl
      exact not_mem_calls_of_call? unused _ listed

/-- A conclusion leaves the gate alone, and looks nothing up or sets it up. -/
theorem Conclusion.frame {id : CallId} {goal : Goal κ}
    (conclusion : Conclusion c id goal c' commands) :
    c'.supported = c.supported ∧ c'.gate = c.gate ∧ collect discover? commands = [] ∧
      collect setup? commands = [] := by
  cases conclusion <;> exact ⟨rfl, rfl, rfl, rfl⟩

/-- A version is looked up for the one call past the gate, while no session is cached. -/
inductive Looks (c : Client κ α) (event : Event κ α) (c' : Client κ α) (id : CallId)
    (version : Version) : Prop
  | up {goal : Goal κ} {gate : Gate} {backoff : Option Backoff} {rest : List Version}
      (inside : Inside c event id goal gate) (none : c.session = none)
      (after : c' =
        { c with gate }.putCall id (.connecting goal (.probing version rest backoff)))

/-- A move looks up one version at most. -/
theorem Move.lookups (move : Move c event c' commands) :
    collect discover? commands = [] ∨
      ∃ id version, Looks c event c' id version ∧
        collect discover? commands = [(id, version)] := by
  cases move with
  | ignore | listen | answer | submit | take | startAt | queue | rest | install | route
  | abandonLost | sent | stranded | resolved | cancelSend => exact .inl rfl
  | lose | flush | abandon | breakOff | forsake | withdraw | unsent => exact .inl (by simp)
  | conclude _ conclusion => exact .inl conclusion.frame.2.2.1
  | leave _ conclusion => exact .inl (by simp [conclusion.frame.2.2.1])
  | look inside none => exact .inr ⟨_, _, .up inside none rfl, rfl⟩

/-- A version is looked up by the call that holds the gate, and while no session is cached. -/
theorem Move.of_discover (move : Move c event c' commands) {id : CallId} {version : Version}
    (discovers : .discover id version ∈ commands) :
    c.supported = true ∧ c'.gate.holder = some id ∧ c'.session = none := by
  have listed : (id, version) ∈ collect discover? commands :=
    List.mem_filterMap.2 ⟨_, discovers, rfl⟩
  rcases move.lookups with nothing | ⟨_, _, ⟨inside, none, after⟩, one⟩
  · rw [nothing] at listed
    cases listed
  · rw [one, List.mem_singleton] at listed
    cases listed
    subst after
    exact ⟨inside.supported, inside.holder, none⟩

/-- Whoever waits at the gate has waited before or has just begun. -/
theorem Move.queued (move : Move c event c' commands) {id : CallId} {goal : Goal κ}
    (listed : (id, .connecting goal .queued) ∈ c'.calls) :
    (id, .connecting goal .queued) ∈ c.calls ∨ event = .call id goal := by
  have put {d : Client κ α} {own : CallId} {goal' : Goal κ} {stage : Stage α}
      (calls : d.calls = c.calls) (past : stage.isInside = true)
      (listed : (id, .connecting goal .queued) ∈
        (d.putCall own (.connecting goal' stage)).calls) :
      (id, .connecting goal .queued) ∈ c.calls := by
    rcases mem_calls_putCall.1 listed with ⟨listed, -⟩ | ⟨-, same⟩
    · exact calls ▸ listed
    · cases same
      cases past
  cases move with
  | ignore | listen | lose | answer | submit | take | flush | startAt => exact .inl listed
  | conclude unused conclusion => exact .inl ((conclusion.connecting unused).1 listed)
  | queue =>
    rcases mem_calls_putCall.1 listed with ⟨listed, -⟩ | ⟨rfl, same⟩
    · exact .inl listed
    · cases same
      exact .inr rfl
  | look => exact .inl (put rfl rfl listed)
  | rest => exact .inl (put rfl rfl listed)
  | install => exact .inl (put rfl rfl listed)
  | route => exact .inl (put rfl rfl listed)
  | abandon => exact .inl (put (d := c.lost) rfl rfl listed)
  | abandonLost => exact .inl (put rfl rfl listed)
  | leave _ conclusion =>
    have listed := (conclusion.connecting (call?_dropCall _ _)).1 listed
    exact .inl (mem_calls_of_mem_dropCall _ listed)
  | breakOff | forsake | withdraw | sent | unsent | stranded | resolved | cancelSend =>
    exact .inl (mem_calls_of_mem_dropCall _ listed)

/-- Whether the service exists on the deployment never changes. -/
theorem Move.supported (move : Move c event c' commands) : c'.supported = c.supported := by
  cases move with
  | conclude _ conclusion => exact conclusion.frame.1
  | leave _ conclusion => exact conclusion.frame.1
  | _ => rfl

/-! ## A session that is set up -/

structure Settled (c : Client κ α) (session : Session α) : Prop where
  cached : c.session = some session
  waiting : c.NobodyInside

/-- While the session is settled, calls that connect wait in line. -/
theorem Settled.stage_eq (settled : c.Settled session) {id : CallId} {goal : Goal κ}
    {stage : Stage α} (found : c.call? id = some (.connecting goal stage)) : stage = .queued :=
  settled.waiting id goal stage (mem_calls_of_call? found)

theorem Settled.session_ne_none (settled : c.Settled session) : c.session ≠ none := by
  rw [settled.cached]
  exact nofun

/-- With the only call past the gate leaving it, a session that is cached is settled. -/
theorem leaveGate_settled (id : CallId) (goal : Goal κ) (cached : c.session = some session)
    (alone : ∀ other goal stage, (other, .connecting goal stage) ∈ c.calls → other ≠ id →
      stage = .queued) :
    (c.leaveGate id goal (.ok session)).1.Settled session ∧
      (c.leaveGate id goal (.ok session)).1.gate = c.gate.leave := by
  have conclusion := conclude_conclusion ({ c with gate := c.gate.leave }.dropCall id) id goal
  have found : ({ c with gate := c.gate.leave }.dropCall id).cached = .ok session :=
    cached_eq_ok.2 cached
  rw [found] at conclusion
  refine ⟨⟨conclusion.session.1.trans cached, ?_⟩, conclusion.frame.2.1⟩
  intro other goal' stage listed
  have listed := (conclusion.connecting (call?_dropCall _ _)).1 listed
  obtain ⟨listed, differ⟩ := mem_calls_dropCall.1 listed
  exact alone other goal' stage listed differ

/-- A session is settled as soon as it has been set up, if it has not been lost meanwhile. -/
theorem Valid.settled_of_routed (valid : c.Valid) {id : CallId} {goal : Goal κ}
    (routing : c.call? id = some (.connecting goal (.routing session)))
    (cached : c.session = some session) :
    (c.handle (.routed id (.ok ()))).1.Settled session := by
  have current : c.isCurrent session.generation = true := isCurrent_iff.2 ⟨session, cached, rfl⟩
  have leaves : c.handle (.routed id (.ok ())) = c.leaveGate id goal (.ok session) := by
    simp only [Client.handle, advance, routing, connect, current, if_true]
  have inside : Inside c (.routed id (.ok ())) id goal c.gate :=
    valid.insideOfStage rfl routing rfl
  rw [leaves]
  exact (leaveGate_settled id goal cached inside.alone).1

/-- A session is settled as soon as a call that had to connect returns it. -/
theorem Move.settled (move : Move c event c' commands) {id : CallId} {goal : Goal κ}
    {stage : Stage α} (asked : c.call? id = some (.connecting goal stage))
    (returned : .finish id (.session (.ok session)) ∈ commands) : c'.Settled session := by
  have listed := Command.mem_collect_returned.2 returned
  rcases move.returned with none | ⟨other, -, one, inside⟩
  · rw [none] at listed
    cases listed
  · rw [one, List.mem_singleton] at listed
    obtain ⟨rfl, cached⟩ := Prod.mk.inj listed
    refine ⟨cached_eq_ok.1 cached.symm, inside.resolve_left ?_⟩
    rw [asked]
    exact nofun

/-- While a session is settled, nothing is looked up or set up. -/
theorem Settled.setup (settled : c.Settled session) (move : Move c event c' commands) :
    collect setup? commands = [] := by
  cases move with
  | ignore | listen | answer | submit | take | startAt | queue | rest | abandonLost | sent
  | stranded | resolved | cancelSend => rfl
  | lose | flush | abandon | breakOff | forsake | withdraw | unsent => simp
  | conclude _ conclusion => exact conclusion.frame.2.2.2
  | leave _ conclusion => simp [conclusion.frame.2.2.2]
  | look _ none => exact absurd none settled.session_ne_none
  | install _ none => exact absurd none settled.session_ne_none
  | route _ _ stage => cases settled.stage_eq stage

/-- A session that is settled stays so until it is lost. -/
theorem Settled.move (settled : c.Settled session) (move : Move c event c' commands)
    (kept : c'.session = some session) : c'.Settled session := by
  refine ⟨kept, fun id goal stage listed => ?_⟩
  have before (listed : (id, .connecting goal stage) ∈ c.calls) : stage = .queued :=
    settled.waiting id goal stage listed
  cases move with
  | ignore | listen | lose | answer | submit | take | flush | startAt => exact before listed
  | conclude unused conclusion => exact before ((conclusion.connecting unused).1 listed)
  | queue =>
    rcases mem_calls_putCall.1 listed with ⟨listed, -⟩ | ⟨-, same⟩
    · exact before listed
    · cases same
      rfl
  | look _ none => exact absurd none settled.session_ne_none
  | rest _ none => exact absurd none settled.session_ne_none
  | install _ none => exact absurd none settled.session_ne_none
  | abandonLost _ none => exact absurd none settled.session_ne_none
  | route _ _ stage => cases settled.stage_eq stage
  | abandon => cases kept
  | leave _ conclusion =>
    have listed := (conclusion.connecting (call?_dropCall _ _)).1 listed
    exact before (mem_calls_of_mem_dropCall _ listed)
  | breakOff | forsake | withdraw | sent | unsent | stranded | resolved | cancelSend =>
    exact before (mem_calls_of_mem_dropCall _ listed)

/-- A call that waits while a session is settled goes on waiting, is cancelled, or has the
session. -/
theorem Settled.waits (settled : c.Settled session) (valid : c.Valid)
    (move : Move c event c' commands) (kept : c'.session = some session) {id : CallId}
    (listed : (id, .connecting .acquire .queued) ∈ c.calls) :
    (id, .connecting .acquire .queued) ∈ c'.calls ∨ event = .cancel id ∨
      .finish id (.session (.ok session)) ∈ commands := by
  have dropped {d : Client κ α} {other : CallId} (calls : d.calls = c.calls) (differ : id ≠ other) :
      (id, .connecting .acquire .queued) ∈ (d.dropCall other).calls :=
    mem_calls_dropCall.2 ⟨calls ▸ listed, differ⟩
  have sends {other : CallId} {serial : Serial} {generation : Nat}
      (sending : c.call? other = some (.sending serial generation)) : id ≠ other := by
    rintro rfl
    cases call_unique valid.distinct sending listed
  cases move with
  | ignore | listen | lose | answer | submit | take | flush | startAt => exact .inl listed
  | conclude unused conclusion => exact .inl ((conclusion.connecting unused).2 listed)
  | queue _ unused =>
    refine .inl (mem_calls_putCall.2 (.inl ⟨listed, ?_⟩))
    rintro rfl
    exact not_mem_calls_of_call? unused _ listed
  | look _ none => exact absurd none settled.session_ne_none
  | rest _ none => exact absurd none settled.session_ne_none
  | install _ none => exact absurd none settled.session_ne_none
  | abandonLost _ none => exact absurd none settled.session_ne_none
  | route _ _ stage => cases settled.stage_eq stage
  | breakOff _ stage => cases settled.stage_eq stage
  | abandon => cases kept
  | @leave _ own goal gate _ _ inside conclusion =>
    by_cases same : id = own
    · -- the call itself is let in, and finds the session
      subst same
      obtain ⟨stage, found⟩ : ∃ stage, c.call? id = some (.connecting goal stage) := by
        rcases inside.origin with ⟨-, unused, -⟩ | ⟨-, -, found⟩
        · exact absurd listed (not_mem_calls_of_call? unused _)
        · exact found
      cases call_unique valid.distinct found listed
      refine .inr (.inr (List.mem_append_right _ ?_))
      cases conclusion
      rw [cached_eq_ok.2 kept]
      exact .head _
    · exact .inl ((conclusion.connecting (call?_dropCall _ _)).2 (dropped rfl same))
  | @forsake own =>
    by_cases same : id = own
    · exact .inr (.inl (same ▸ rfl))
    · exact .inl (dropped rfl same)
  | @withdraw own =>
    by_cases same : id = own
    · exact .inr (.inl (same ▸ rfl))
    · exact .inl (dropped rfl same)
  | sent sending => exact .inl (dropped rfl (sends sending))
  | unsent _ sending => exact .inl (dropped rfl (sends sending))
  | stranded _ sending => exact .inl (dropped rfl (sends sending))
  | resolved _ sending => exact .inl (dropped rfl (sends sending))
  | cancelSend sending => exact .inl (dropped rfl (sends sending))

/-! ## While a session is kept -/

def Keeps (c : Client κ α) (session : Session α) (later : List (Event κ α)) : Prop :=
  ∀ since, since <:+ later → (c.after since).session = some session

theorem Keeps.tail {later : List (Event κ α)} (keeps : c.Keeps session (event :: later)) :
    c.Keeps session later :=
  fun since suffix => keeps since (suffix.trans (List.suffix_cons _ _))

theorem Keeps.cons {later : List (Event κ α)} (keeps : c.Keeps session later)
    (kept : (c.after (event :: later)).session = some session) :
    c.Keeps session (event :: later) := by
  intro since suffix
  rcases List.suffix_cons_iff.1 suffix with rfl | suffix
  · exact kept
  · exact keeps since suffix

/-- A settled session stays settled as long as it is kept. -/
theorem Settled.after (settled : c.Settled session) (valid : c.Valid) {later : List (Event κ α)}
    (keeps : c.Keeps session later) : (c.after later).Settled session := by
  induction later with
  | nil => exact settled
  | cons event earlier ih =>
    exact (ih keeps.tail).move (handle_move (valid.after earlier) event) (keeps _ List.suffix_rfl)

/-- Nothing is looked up or set up while a settled session is kept. -/
theorem Settled.nothing_setup (settled : c.Settled session) (valid : c.Valid)
    {later : List (Event κ α)} (keeps : c.Keeps session later) :
    collect setup? (c.left later) = [] := by
  induction later with
  | nil => rfl
  | cons event earlier ih =>
    have now := (settled.after valid keeps.tail).setup (handle_move (valid.after earlier) event)
    rw [left_cons, Command.collect_append, ih keeps.tail, now, List.append_nil]

/-- Whatever is returned while a session is kept is that session. -/
theorem Keeps.returned (valid : c.Valid) {later : List (Event κ α)}
    (keeps : c.Keeps session later) {id : CallId} {found : Except Error (Session α)}
    (returned : .finish id (.session found) ∈ c.left later) : found = .ok session := by
  induction later with
  | nil => cases returned
  | cons event earlier ih =>
    rcases List.mem_append.1 returned with before | now
    · exact ih keeps.tail before
    · have move := handle_move (valid.after earlier) event
      exact (move.cached_of_returned now).trans (cached_eq_ok.2 (keeps _ List.suffix_rfl))

/-- A call that waits goes on waiting, is cancelled, or has returned the session. -/
theorem Settled.waits_after (settled : c.Settled session) (valid : c.Valid)
    {later : List (Event κ α)} (keeps : c.Keeps session later) {id : CallId}
    (listed : (id, .connecting .acquire .queued) ∈ c.calls) :
    (id, .connecting .acquire .queued) ∈ (c.after later).calls ∨ .cancel id ∈ later ∨
      .finish id (.session (.ok session)) ∈ c.left later := by
  induction later with
  | nil => exact .inl listed
  | cons event earlier ih =>
    rcases ih keeps.tail with still | cancelled | done
    · have move := handle_move (valid.after earlier) event
      have kept := keeps _ List.suffix_rfl
      rcases (settled.after valid keeps.tail).waits (valid.after earlier) move kept still with
        still | rfl | done
      · exact .inl still
      · exact .inr (.inl (.head _))
      · exact .inr (.inr (List.mem_append_right _ done))
    · exact .inr (.inl (.tail _ cancelled))
    · exact .inr (.inr (List.mem_append_left _ done))

/-! ## Turns -/

def turns (line : List CallId) : List (Event κ α) :=
  (line.map .admitted).reverse

/-- The first in line is let in first, which is the last of the events as they are listed. -/
theorem turns_cons (id : CallId) (rest : List CallId) :
    (turns (id :: rest) : List (Event κ α)) = turns rest ++ [.admitted id] := by
  rw [turns, List.map_cons, List.reverse_cons, turns]

/-- The first in line, let in, leaves the gate to the next. -/
theorem Settled.turn (settled : c.Settled session) (valid : c.Valid) {id : CallId}
    {rest : List CallId} (line : c.gate.line = id :: rest) :
    (c.handle (.admitted id)).1.session = some session ∧
      (c.handle (.admitted id)).1.gate.line = rest := by
  obtain ⟨goal, stage, listed⟩ := (valid.lined id).1 (by rw [line]; exact .head _)
  obtain rfl := settled.waiting id goal stage listed
  have found := call?_of_mem_calls valid.distinct listed
  have holder : c.gate.holder = some id := by
    cases holder : c.gate.holder with
    | none => simp [Gate.line, holder, valid.idle holder] at line
    | some other =>
      rw [Gate.line_of_holder holder] at line
      exact congrArg some (List.cons.inj line).1
  have leaves : c.handle (.admitted id) = c.leaveGate id goal (.ok session) := by
    simp only [handle, advance, found, connect, holder, if_true, search, settled.cached]
  obtain ⟨next, gate⟩ := leaveGate_settled id goal settled.cached
    fun other goal stage listed _ => settled.waiting other goal stage listed
  rw [leaves]
  refine ⟨next.cached, ?_⟩
  rw [gate, Gate.line_leave holder, line, List.tail_cons]

/-- If the first in line acquires a session, it returns this one in its turn. -/
theorem Settled.turn_returns (settled : c.Settled session) (valid : c.Valid) {id : CallId}
    {rest : List CallId} (line : c.gate.line = id :: rest)
    (queued : c.call? id = some (.connecting .acquire .queued)) :
    .finish id (.session (.ok session)) ∈ (c.handle (.admitted id)).2 := by
  obtain ⟨kept, shorter⟩ := settled.turn valid line
  have move := handle_move valid (.admitted id)
  rcases settled.waits valid move kept (mem_calls_of_call? queued) with still | ⟨⟨⟩⟩ | returned
  · have lined := ((valid.handle (.admitted id)).lined id).2 ⟨_, _, still⟩
    rw [shorter] at lined
    have orderly := valid.orderly
    rw [line] at orderly
    exact absurd lined (List.nodup_cons.1 orderly).1
  · exact returned

/-- When all have been let in, the session is still the same and nobody is in line. -/
theorem Settled.turns (settled : c.Settled session) (valid : c.Valid) {line : List CallId}
    (waiting : c.gate.line = line) :
    c.Keeps session (turns line) ∧ (c.after (turns line)).gate.line = [] := by
  induction line generalizing c with
  | nil =>
    refine ⟨fun since suffix => ?_, waiting⟩
    rw [List.suffix_nil.1 suffix]
    exact settled.cached
  | cons id rest ih =>
    obtain ⟨kept, shorter⟩ := settled.turn valid waiting
    have next := settled.move (handle_move valid (.admitted id)) kept
    obtain ⟨keeps, nobody⟩ := ih next (valid.handle _) shorter
    rw [turns_cons]
    constructor
    · intro since suffix
      rcases List.suffix_concat_iff.1 suffix with rfl | ⟨earlier, rfl, inner⟩
      · exact settled.cached
      · rw [after_append]
        exact keeps earlier inner
    · rw [after_append]
      exact nobody

/-! ## Sharing -/

/-- Those who wait at the gate share the session. As long as it is kept, whatever the events,
nothing is looked up or set up, whatever is returned is the session, and a call that waits goes on
waiting, is cancelled, or has returned; and the first in line, let in, leaves the gate to the next
and returns if it acquires a session. When all in line have been let in, one after another, the
session is kept and all have returned. -/
structure Shared (c : Client κ α) (session : Session α) : Prop where
  setup : ∀ later, c.Keeps session later → collect setup? (c.left later) = []
  returned : ∀ later, c.Keeps session later → ∀ id found,
    .finish id (.session found) ∈ c.left later → found = .ok session
  waits : ∀ later, c.Keeps session later → ∀ id,
    c.call? id = some (.connecting .acquire .queued) →
      (c.after later).call? id = some (.connecting .acquire .queued) ∨ .cancel id ∈ later ∨
        .finish id (.session (.ok session)) ∈ c.left later
  turn : ∀ later, c.Keeps session later → ∀ id rest, (c.after later).gate.line = id :: rest →
    c.Keeps session (.admitted id :: later) ∧
      (c.after (.admitted id :: later)).gate.line = rest ∧
      ((c.after later).call? id = some (.connecting .acquire .queued) →
        .finish id (.session (.ok session)) ∈ ((c.after later).handle (.admitted id)).2)
  keeps : c.Keeps session (turns c.gate.line)
  nobody : (c.after (turns c.gate.line)).gate.line = []
  all : ∀ id, c.call? id = some (.connecting .acquire .queued) →
    .finish id (.session (.ok session)) ∈ c.left (turns c.gate.line)

/-- A settled session is shared by all who wait. -/
theorem Settled.shared (settled : c.Settled session) (valid : c.Valid) : c.Shared session where
  setup later keeps := settled.nothing_setup valid keeps
  returned later keeps id found returned := keeps.returned valid returned
  waits later keeps id queued := by
    rcases settled.waits_after valid keeps (mem_calls_of_call? queued) with still | other
    · exact .inl (call?_of_mem_calls (valid.after later).distinct still)
    · exact .inr other
  turn later keeps id rest line := by
    have now := settled.after valid keeps
    obtain ⟨kept, shorter⟩ := now.turn (valid.after later) line
    refine ⟨keeps.cons kept, shorter, fun queued => ?_⟩
    exact now.turn_returns (valid.after later) line queued
  keeps := (settled.turns valid rfl).1
  nobody := (settled.turns valid rfl).2
  all id queued := by
    obtain ⟨keeps, nobody⟩ := settled.turns valid rfl
    rcases settled.waits_after valid keeps (mem_calls_of_call? queued) with
      still | cancelled | done
    · have lined := ((valid.after _).lined id).2 ⟨_, _, still⟩
      rw [nobody] at lined
      cases lined
    · simp [Client.turns] at cancelled
    · exact done

end Client

end Baseband
