import Baseband.Proofs.Client.Returns

/-!
# Setting a session up

Between the installation of a session and the return of the call that found it, the call asks the
service for two things, one after the other, and only the answers to them move it on. Nothing is
asked for otherwise.
-/

namespace Baseband

variable {κ α : Type}

/-- The call that an event begins, moves on or cancels. -/
def Event.about? : Event κ α → Option CallId
  | .call id _ | .cancel id => some id
  | event => event.call?

/-- The event needs no call to go on, so that a completion can raise it as well. -/
def Event.isSynchronous : Event κ α → Bool
  | .call .. | .admitted _ | .found .. | .rested _ | .linked .. | .routed .. | .proceeded _
  | .sent .. => false
  | _ => true

def Stage.settingUp? : Stage α → Option (Session α)
  | .linking session | .routing session => some session
  | _ => none

@[simp] def Command.setsUp : Command κ α → Bool
  | .link .. | .route .. => true
  | _ => false

namespace Client

open Command (collect acquired?)

variable {c c' : Client κ α} {event : Event κ α} {commands : List (Command κ α)}

/-! ## Calls that an event is not about -/

theorem call?_teardown (c : Client κ α) (generation : Nat) (id : CallId) :
    (c.teardown generation).1.call? id = c.call? id := by
  unfold teardown
  split <;> rfl

section Others

variable {id other : CallId} (differ : other ≠ id)
include differ

theorem call?_dropCall_of_ne (c : Client κ α) : (c.dropCall id).call? other = c.call? other := by
  have distinct : (other == id) = false := beq_eq_false_iff_ne.2 differ
  rw [call?, call?, dropCall]
  induction c.calls with
  | nil => rfl
  | cons entry calls ih =>
    by_cases own : entry.1 = id
    · rw [List.filter_cons_of_neg (by simp [own]), List.lookup_cons, own, distinct]
      exact ih
    · rw [List.filter_cons_of_pos (by simp [own]), List.lookup_cons, List.lookup_cons]
      cases other == entry.1 with
      | true => rfl
      | false => exact ih

theorem call?_putCall_of_ne (c : Client κ α) (call : Call κ α) :
    (c.putCall id call).call? other = c.call? other := by
  have distinct : (other == id) = false := beq_eq_false_iff_ne.2 differ
  have others : ((c.dropCall id).calls ++ [(id, call)]).lookup other =
      (c.dropCall id).calls.lookup other := by
    rw [List.lookup_append, List.lookup_cons, distinct, List.lookup_nil, Option.or_none]
  exact others.trans (call?_dropCall_of_ne differ c)

theorem call?_conclude_of_ne (c : Client κ α) (goal : Goal κ) (found : Except Error (Session α)) :
    (c.conclude id goal found).1.call? other = c.call? other := by
  unfold conclude
  split
  · rfl
  · rfl
  · split
    · rfl
    · dsimp only
      split
      · exact call?_putCall_of_ne differ _ _
      · rfl

theorem call?_leaveGate_of_ne (c : Client κ α) (goal : Goal κ) (found : Except Error (Session α)) :
    (c.leaveGate id goal found).1.call? other = c.call? other :=
  (call?_conclude_of_ne differ _ _ _).trans (call?_dropCall_of_ne differ _)

theorem call?_forsake_of_ne (c : Client κ α) (goal : Goal κ) :
    (c.forsake id goal).1.call? other = c.call? other :=
  call?_dropCall_of_ne differ _

theorem call?_endPass_of_ne (c : Client κ α) (goal : Goal κ) (backoff : Option Backoff)
    (why : Error) : (c.endPass id goal backoff why).1.call? other = c.call? other := by
  unfold endPass
  split
  · exact call?_leaveGate_of_ne differ _ _ _
  · exact call?_putCall_of_ne differ _ _
  · exact call?_forsake_of_ne differ _ goal

theorem call?_probe_of_ne (c : Client κ α) (goal : Goal κ) (backoff : Option Backoff)
    (versions : List Version) :
    (c.probe id goal backoff versions).1.call? other = c.call? other := by
  cases versions with
  | nil => exact call?_endPass_of_ne differ _ _ _ _
  | cons version rest => exact call?_putCall_of_ne differ _ _

theorem call?_search_of_ne (c : Client κ α) (goal : Goal κ) :
    (c.search id goal).1.call? other = c.call? other := by
  unfold search
  split
  · exact call?_leaveGate_of_ne differ _ _ _
  · exact call?_probe_of_ne differ _ _ _ _

theorem call?_begin_of_ne (c : Client κ α) (goal : Goal κ) :
    (c.begin id goal).1.call? other = c.call? other := by
  unfold begin
  split
  · exact call?_conclude_of_ne differ _ _ _
  · split
    · exact call?_conclude_of_ne differ _ _ _
    · dsimp only
      split
      · exact call?_search_of_ne differ _ _
      · exact call?_putCall_of_ne differ _ _

theorem call?_abandon_of_ne (c : Client κ α) (goal : Goal κ) (session : Session α) :
    (c.abandon id goal session).1.call? other = c.call? other := by
  exact (call?_putCall_of_ne differ _ _).trans (call?_teardown _ _ _)

/-- Whatever comes to a connecting call, the other calls stay where they are. -/
theorem call?_connect_of_ne (c : Client κ α) (goal : Goal κ) (stage : Stage α)
    (event : Event κ α) : (c.connect id goal stage event).1.call? other = c.call? other := by
  unfold connect
  split
  · split
    · exact call?_search_of_ne differ _ _
    · rfl
  · split
    · exact call?_putCall_of_ne differ _ _
    · exact call?_probe_of_ne differ _ _ _ _
    · exact call?_endPass_of_ne differ _ _ _ _
  · exact call?_probe_of_ne differ _ _ _ _
  · split
    · exact call?_putCall_of_ne differ _ _
    · exact call?_abandon_of_ne differ _ _ _
  · split
    · exact call?_leaveGate_of_ne differ _ _ _
    · exact call?_abandon_of_ne differ _ _ _
  · exact call?_leaveGate_of_ne differ _ _ _
  · rfl

theorem call?_sendFailed_of_ne (c : Client κ α) (serial : Serial) (generation : Nat) :
    (c.sendFailed id serial generation).1.call? other = c.call? other := by
  refine Eq.trans ?_ (call?_dropCall_of_ne differ c)
  unfold sendFailed
  dsimp only
  split
  · exact call?_teardown _ _ _
  · split <;> rfl

/-- A call that goes on leaves the other calls where they are. -/
theorem call?_advance_of_ne (c : Client κ α) (event : Event κ α) :
    (c.advance id event).1.call? other = c.call? other := by
  unfold advance
  split
  · exact call?_connect_of_ne differ _ _ _ _
  · split
    · exact call?_dropCall_of_ne differ _
    · exact call?_sendFailed_of_ne differ _ _ _
  · rfl

theorem call?_cancel_of_ne (c : Client κ α) : (c.cancel id).1.call? other = c.call? other := by
  unfold cancel
  split
  · split
    · split
      · exact call?_forsake_of_ne differ _ _
      · exact call?_dropCall_of_ne differ _
    · exact call?_forsake_of_ne differ _ _
    · exact call?_forsake_of_ne differ _ _
    all_goals rfl
  · exact call?_dropCall_of_ne differ _
  · rfl

end Others

/-- An event changes no call but the one that it is about. -/
theorem call?_handle_of_ne (c : Client κ α) {event : Event κ α} {other : CallId}
    (foreign : event.about? ≠ some other) : (c.handle event).1.call? other = c.call? other := by
  have differ {id : CallId} (about : event.about? = some id) : other ≠ id :=
    fun same => foreign (same ▸ about)
  cases event with
  | call id goal =>
    rw [handle]
    split
    · rfl
    · exact call?_begin_of_ne (differ rfl) _ _
  | admitted id | found id _ | rested id | linked id _ | routed id _ | proceeded id | sent id _ =>
    exact call?_advance_of_ne (differ rfl) _ _
  | cancel id => exact call?_cancel_of_ne (differ rfl) _
  | died generation | invalidate generation => exact call?_teardown _ _ _
  | respond header payload =>
    change (c.respond header payload).1.call? other = _
    unfold respond
    split <;> rfl
  | register =>
    change c.register.1.call? other = _
    unfold register
    split <;> rfl
  | indicate | unregister | read | abandon | submit | take | flush | setNextSerial => rfl

/-- While a call sets a session up, it minds only the answers of the service. -/
theorem handle_of_settingUp {id : CallId} {goal : Goal κ} {stage : Stage α} {session : Session α}
    (found : c.call? id = some (.connecting goal stage))
    (settingUp : stage.settingUp? = some session) (about : event.about? = some id)
    (linked : ∀ answer, event ≠ .linked id answer) (routed : ∀ answer, event ≠ .routed id answer) :
    c.handle event = (c, []) := by
  cases event with
  | call | cancel | admitted | found | rested | proceeded | sent =>
    cases about
    cases stage <;> cases settingUp <;> simp [handle, advance, cancel, connect, found]
  | linked _ answer =>
    cases about
    exact absurd rfl (linked answer)
  | routed _ answer =>
    cases about
    exact absurd rfl (routed answer)
  | _ => cases about

/-- A call that sets a session up waits for the answers to its two questions alone. -/
theorem call?_handle_of_settingUp {id : CallId} {goal : Goal κ} {stage : Stage α}
    {session : Session α} (found : c.call? id = some (.connecting goal stage))
    (settingUp : stage.settingUp? = some session) (linked : ∀ answer, event ≠ .linked id answer)
    (routed : ∀ answer, event ≠ .routed id answer) :
    (c.handle event).1.call? id = some (.connecting goal stage) := by
  by_cases about : event.about? = some id
  · rw [handle_of_settingUp found settingUp about linked routed]
    exact found
  · rw [call?_handle_of_ne c about]
    exact found

theorem call?_putCall (c : Client κ α) (id : CallId) (call : Call κ α) :
    (c.putCall id call).call? id = some call := by
  have dropped : (c.dropCall id).calls.lookup id = none := call?_dropCall c id
  change ((c.dropCall id).calls ++ [(id, call)]).lookup id = some call
  rw [List.lookup_append, dropped, Option.none_or, List.lookup_cons_self]

section SettingUp

variable {id : CallId} {goal : Goal κ} {session : Session α}

/-- After the death registration, the route for indications is asked for. -/
theorem handle_linked (stage : c.call? id = some (.connecting goal (.linking session))) :
    c.handle (.linked id (.ok ())) =
      (c.putCall id (.connecting goal (.routing session)), [.route id session.connection]) := by
  simp [handle, advance, stage, connect]

/-- After the route, the call leaves the gate with its session. -/
theorem handle_routed (stage : c.call? id = some (.connecting goal (.routing session)))
    (current : c.isCurrent session.generation = true) :
    c.handle (.routed id (.ok ())) = c.leaveGate id goal (.ok session) := by
  simp [handle, advance, stage, connect, current]

end SettingUp

/-! ## What is asked for -/

/-- What a move asks a service for to set a session up. -/
inductive Arranges (c : Client κ α) (event : Event κ α) (c' : Client κ α) :
    List (Command κ α) → Prop
  | nothing {commands : List (Command κ α)} (plain : commands.filter Command.setsUp = [])
      (session : c'.session = c.session ∨ c'.session = none) : Arranges c event c' commands
  | link {id : CallId} {goal : Goal κ} {session : Session α}
      (found : event = .found id (.ok (session.connection, session.version)))
      (holder : c.gate.holder = some id) (cached : c'.session = some session)
      (stage : c'.call? id = some (.connecting goal (.linking session))) :
      Arranges c event c' [.link id session.connection session.generation]
  | route {id : CallId} {goal : Goal κ} {session : Session α} (linked : event = .linked id (.ok ()))
      (before : c.call? id = some (.connecting goal (.linking session)))
      (kept : c'.session = c.session)
      (stage : c'.call? id = some (.connecting goal (.routing session))) :
      Arranges c event c' [.route id session.connection]

theorem filter_failAll (requests : List (Request κ)) (why : Error) :
    (failAll requests why : List (Command κ α)).filter Command.setsUp = [] := by
  simp [failAll, List.filter_map, Function.comp_def]

theorem filter_letIn (next : Option CallId) :
    ((next.map .letIn).toList : List (Command κ α)).filter Command.setsUp = [] := by
  cases next <;> rfl

theorem filter_letGo (goal : Goal κ) :
    (letGo goal : List (Command κ α)).filter Command.setsUp = [] := by
  cases goal <;> rfl

/-- A call that ends asks for no more of a set-up. -/
theorem Conclusion.filter_setsUp {id : CallId} {goal : Goal κ}
    (conclusion : Conclusion c id goal c' commands) : commands.filter Command.setsUp = [] := by
  cases conclusion <;> rfl

/-- A set-up is asked for in two steps: the registration once a session is installed, then the
route. -/
theorem Move.arranges (move : Move c event c' commands) : Arranges c event c' commands := by
  cases move with
  | ignore | listen | answer | submit | take | startAt | queue | look | rest | abandonLost | sent
  | stranded | resolved | cancelSend => exact .nothing rfl (.inl rfl)
  | flush => exact .nothing (filter_failAll _ _) (.inl rfl)
  | lose => exact .nothing (filter_failAll _ _) (.inr rfl)
  | abandon | unsent => exact .nothing (by simp [filter_failAll]) (.inr rfl)
  | conclude unused conclusion =>
    exact .nothing conclusion.filter_setsUp (.inl conclusion.session.1)
  | leave inside conclusion =>
    exact .nothing (by simp [filter_letIn, conclusion.filter_setsUp]) (.inl conclusion.session.1)
  | breakOff => exact .nothing (by simp [filter_letIn, filter_letGo]) (.inl rfl)
  | forsake => exact .nothing (by simp [filter_letIn, filter_letGo]) (.inl rfl)
  | withdraw => exact .nothing (filter_letGo _) (.inl rfl)
  | @install id goal version connection inside none =>
    refine .link ?_ inside.holder rfl (call?_putCall _ _ _)
    rfl
  | route inside current stage => exact .route rfl stage rfl (call?_putCall _ _ _)

/-! ## Answers -/

/-- A service that refuses costs the call its session. -/
theorem Valid.session_of_refused (valid : c.Valid) {id : CallId} {goal : Goal κ} {stage : Stage α}
    {session : Session α} (found : c.call? id = some (.connecting goal stage))
    (settingUp : stage.settingUp? = some session) :
    (c.abandon id goal session).1.session = none ∧
      (c.abandon id goal session).2.filter Command.setsUp = [] := by
  have knows := valid.knowsOf found
  have cached : c.session = none ∨ c.session = some session := by
    cases stage <;> cases settingUp <;> exact knows
  unfold abandon
  dsimp only
  rcases cached with none | cached
  · have superseded : c.isCurrent session.generation = false := by simp [isCurrent, none]
    rw [teardown_of_not_current superseded]
    exact ⟨none, rfl⟩
  · have current : c.isCurrent session.generation = true := isCurrent_iff.2 ⟨session, cached, rfl⟩
    rw [teardown_of_current current, List.filter_append, filter_failAll]
    exact ⟨rfl, rfl⟩

/-! ## Returning a session -/

/-- A call that acquires a session does nothing else, and the session is cached. -/
theorem Conclusion.acquires {own id : CallId} {goal : Goal κ} {session : Session α}
    (conclusion : Conclusion c own goal c' commands)
    (returned : .finish id (.session (.ok session)) ∈ commands) :
    c.session = some session ∧ commands = [.finish id (.session (.ok session))] := by
  cases conclusion with
  | found =>
    obtain ⟨rfl, found⟩ : id = own ∧ .ok session = c.cached := by simpa using returned
    exact ⟨cached_eq_ok.1 found.symm, by rw [found]⟩
  | told | unavailable | unsupported | accepted => simp at returned

/-- A call that returns a session returns the one that is cached, and at once. -/
theorem Move.acquires (move : Move c event c' commands) {id : CallId} {session : Session α}
    (returned : .finish id (.session (.ok session)) ∈ commands) :
    c.session = some session ∧ ∃ next : Option CallId,
      commands = (next.map .letIn).toList ++ [.finish id (.session (.ok session))] := by
  have listed := Command.mem_collect_acquired.2 ⟨id, returned⟩
  cases move with
  | ignore | listen | answer | submit | take | startAt | queue | look | rest | install | route
  | abandonLost | sent | stranded | resolved | cancelSend => cases listed
  | lose | flush | abandon | breakOff | forsake | withdraw | unsent => simp at listed
  | conclude unused conclusion =>
    obtain ⟨cached, one⟩ := conclusion.acquires returned
    exact ⟨cached, none, one⟩
  | leave inside conclusion =>
    have listed := (List.mem_append.1 returned).resolve_left (by simp)
    obtain ⟨cached, one⟩ := conclusion.acquires listed
    exact ⟨cached, _, by rw [one]⟩

theorem acquired_teardown (c : Client κ α) (generation : Nat) :
    collect acquired? (c.teardown generation).2 = [] := by
  unfold teardown
  split <;> simp

theorem acquired_cancel (c : Client κ α) (id : CallId) :
    collect acquired? (c.cancel id).2 = [] := by
  unfold cancel
  split
  · split
    · split <;> simp [forsake]
    all_goals simp [forsake]
  all_goals rfl

/-- What needs no call to go on lets no call return a session. -/
theorem acquired_of_synchronous (c : Client κ α) (synchronous : event.isSynchronous = true) :
    collect acquired? (c.handle event).2 = [] := by
  cases event with
  | call | admitted | found | rested | linked | routed | proceeded | sent => cases synchronous
  | cancel id => exact acquired_cancel c id
  | died generation | invalidate generation => exact acquired_teardown c generation
  | respond header payload =>
    simp only [handle, respond]
    split <;> rfl
  | register =>
    simp only [handle, register]
    split <;> rfl
  | flush => simp [handle]
  | indicate | unregister | read | abandon | submit | take | setNextSerial => rfl

/-- The death registration is not the end of a set-up. -/
theorem acquired_of_linked (c : Client κ α) (id : CallId) (answer : Except Error Unit) :
    collect acquired? (c.handle (.linked id answer)).2 = [] := by
  simp only [handle, advance]
  split
  · rename_i goal stage _
    cases stage with
    | linking session =>
      cases answer with
      | ok => rfl
      | error => simp [connect, abandon, acquired_teardown]
    | queued | probing | resting | routing | abandoning => rfl
  · rename_i same
    cases same
  · rfl

theorem acquired_of_sent (c : Client κ α) (id : CallId) (answer : Except Error Unit) :
    collect acquired? (c.handle (.sent id answer)).2 = [] := by
  simp only [handle, advance]
  split
  · rename_i goal stage _
    cases stage <;> rfl
  · split
    · rfl
    · unfold sendFailed
      dsimp only
      split
      · simp [acquired_teardown]
      · split <;> rfl
  · rfl

/-- A call that has given its session up returns none. -/
theorem acquired_of_proceeded (c : Client κ α) (id : CallId) :
    collect acquired? (c.handle (.proceeded id)).2 = [] := by
  simp only [handle, advance]
  split
  · rename_i goal stage _
    cases stage with
    | abandoning =>
      cases goal <;> simp [connect, leaveGate, conclude, refuse]
    | queued | probing | resting | linking | routing => rfl
  · rename_i same
    cases same
  · rfl

end Client

end Baseband
