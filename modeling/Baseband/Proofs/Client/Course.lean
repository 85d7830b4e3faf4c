import Baseband.Proofs.Client.Sending

/-!
# The course of a call

An event that is about a call takes it one step further: the call goes on connecting, gives up the
session that it could not set up, returns, sends its request, or is gone. Until it returns or sends
its request, it leaves the table of requests alone, unless it gives a session up.
-/

namespace Baseband.Client

open Command (collect send? answer?)

variable {κ α : Type} {c c' : Client κ α} {event : Event κ α} {commands : List (Command κ α)}
  {id : CallId} {goal : Goal κ} {stage : Stage α}

/-! ## Whom an event is about -/

/-- Requests are attributed as the client was made to attribute them. -/
theorem Move.attribution (move : Move c event c' commands) : c'.attribution = c.attribution := by
  cases move with
  | conclude _ conclusion => cases conclusion <;> rfl
  | leave _ conclusion => cases conclusion <;> rfl
  | _ => rfl

def Quiet (commands : List (Command κ α)) : Prop :=
  collect answer? commands = [] ∧ collect send? commands = []

/-- A call that concludes connects no more. -/
theorem Conclusion.call? {own : CallId} (conclusion : Conclusion c own goal c' commands)
    (unused : c.call? own = none) (goal' : Goal κ) (stage : Stage α) :
    c'.call? own ≠ some (.connecting goal' stage) := by
  intro connecting
  cases conclusion with
  | found | told | unavailable | unsupported => cases unused.symm.trans connecting
  | accepted => cases (call?_putCall _ _ _).symm.trans connecting

/-- A call returns or sends only at an event that is about it. -/
theorem Move.about (move : Move c event c' commands)
    (foreign : event.about? ≠ some id → c'.call? id = c.call? id)
    (listed : (∃ answer, (id, answer) ∈ collect answer? commands) ∨
      ∃ sending ∈ collect send? commands, sending.id = id) : event.about? = some id := by
  have concluded {d : Client κ α} {own : CallId} {goal : Goal κ} {rest : List (Command κ α)}
      (conclusion : Conclusion d own goal c' rest)
      (listed : (∃ answer, (id, answer) ∈ collect answer? rest) ∨
        ∃ sending ∈ collect send? rest, sending.id = id) : id = own := by
    cases conclusion <;> simpa [eq_comm] using listed
  cases move with
  | ignore | listen | answer | submit | take | startAt | queue | look | rest | install | route
  | abandonLost | cancelSend => simp at listed
  | lose | flush | abandon | breakOff | forsake | withdraw => simp at listed
  | sent | unsent | stranded | resolved =>
    obtain rfl : id = _ := by simpa using listed
    rfl
  | conclude unused conclusion =>
    obtain rfl := concluded conclusion listed
    rfl
  | leave inside conclusion =>
    obtain rfl := concluded conclusion (by simpa using listed)
    by_contra other
    rcases inside.asks with rfl | ⟨stage, connecting⟩
    · exact other rfl
    · exact conclusion.call? (call?_dropCall _ _) _ stage ((foreign other).trans connecting)

section Completes

variable {why : Error} {front rest : List (Command κ α)}

/-- What comes at some place of two lists comes at this place of the first, or in the second. -/
theorem split_append {first second : List (Command κ α)} {command : Command κ α}
    (split : first ++ second = front ++ command :: rest) :
    (∃ rest, first = front ++ command :: rest) ∨
      ∃ later, front = first ++ later ∧ second = later ++ command :: rest := by
  rcases List.append_eq_append_iff.1 split with ⟨later, before, after⟩ | ⟨later, before, after⟩
  · exact .inr ⟨later, before, after⟩
  · cases later with
    | nil => exact .inr ⟨[], by rw [List.append_nil, before, List.append_nil], after.symm⟩
    | cons own later =>
      obtain ⟨rfl, -⟩ := List.cons.inj after
      exact .inl ⟨later, before⟩

/-- A request that returns an error has completed with the same error just before. -/
theorem Conclusion.completes {own : CallId} (conclusion : Conclusion c own goal c' commands)
    (split : commands = front ++ .finish id (.request (.error why)) :: rest) :
    own = id ∧ ∃ query completion, goal = .request query completion ∧
      .complete completion (.error why) ∈ front := by
  cases conclusion with
  | found | told | accepted => cases front <;> simp at split
  | unavailable | unsupported =>
    -- the return is the last of two commands
    rcases front with _ | ⟨first, _ | ⟨second, front⟩⟩
    · simp at split
    · simp only [List.cons_append, List.nil_append, List.cons.injEq, Command.finish.injEq,
        Answer.request.injEq, Except.error.injEq] at split
      obtain ⟨rfl, ⟨rfl, rfl⟩, -⟩ := split
      exact ⟨rfl, _, _, rfl, .head _⟩
    · simp at split

/-- Before a call returns an error of its request, its completion is run with this error. -/
theorem Move.completes (move : Move c event c' commands)
    (split : commands = front ++ .finish id (.request (.error why)) :: rest) :
    ∃ query completion, c.Asks event id (.request query completion) ∧
      .complete completion (.error why) ∈ front := by
  have listed : (id, .request (.error why)) ∈ collect answer? commands := by simp [split]
  cases move with
  | ignore | listen | answer | submit | take | startAt | queue | look | rest | install | route
  | abandonLost | cancelSend | sent | stranded | resolved => simp at listed
  | lose | flush | abandon | breakOff | forsake | withdraw | unsent => simp at listed
  | conclude unused conclusion =>
    obtain ⟨rfl, query, completion, rfl, completed⟩ := conclusion.completes split
    exact ⟨query, completion, .inl rfl, completed⟩
  | leave inside conclusion =>
    rcases split_append split with ⟨rest, letIn⟩ | ⟨later, rfl, own⟩
    · have listed : .finish id (.request (.error why)) ∈ (Option.map Command.letIn _).toList :=
        letIn ▸ List.mem_append_right _ (.head _)
      simp at listed
    · obtain ⟨rfl, query, completion, rfl, completed⟩ := conclusion.completes own
      exact ⟨query, completion, inside.asks, List.mem_append_right _ completed⟩

end Completes

/-! ## One step of a call -/

def SetsUp (c : Client κ α) (id : CallId) : Prop :=
  ∃ goal stage session, c.call? id = some (.connecting goal stage) ∧
    stage.settingUp? = some session

/-- What an event does that is about a call which connects for a goal, or begins to. -/
inductive Course (c : Client κ α) (id : CallId) (goal : Goal κ) :
    Client κ α → List (Command κ α) → Prop
  | ignores : Course c id goal c []
  | connects {c' : Client κ α} {commands : List (Command κ α)} {stage : Stage α}
      (call : c'.call? id = some (.connecting goal stage)) (table : c'.outstanding = c.outstanding)
      (session : c.session = none ∨ c'.session = c.session ∧ c.SetsUp id) (quiet : Quiet commands) :
      Course c id goal c' commands
  | givesUp {c' : Client κ α} {commands : List (Command κ α)} {before : Stage α}
      {session : Session α} (found : c.call? id = some (.connecting goal before))
      (settingUp : before.settingUp? = some session)
      (call : c'.call? id = some (.connecting goal .abandoning))
      (table : c'.outstanding = c.outstanding.clear) (quiet : Quiet commands) :
      Course c id goal c' commands
  | concludes {d c' : Client κ α} {own : List (Command κ α)} (next : Option CallId)
      (unused : d.call? id = none) (table : d.outstanding = c.outstanding)
      (session : d.session = c.session) (attribution : d.attribution = c.attribution)
      (conclusion : Conclusion d id goal c' own) :
      Course c id goal c' ((next.map .letIn).toList ++ own)
  | vanishes {c' : Client κ α} {commands : List (Command κ α)} (call : c'.call? id = none)
      (table : c'.outstanding = c.outstanding) (session : c'.session = c.session)
      (quiet : Quiet commands) : Course c id goal c' commands

theorem course_leaveGate (c : Client κ α) (gate : Gate) {found : Except Error (Session α)}
    (cached : found = c.cached) :
    Course c id goal ({ c with gate }.leaveGate id goal found).1
      ({ c with gate }.leaveGate id goal found).2 := by
  subst cached
  exact .concludes (d := { c with gate := gate.leave }.dropCall id) _ (call?_dropCall _ _) rfl rfl
    rfl (conclude_conclusion _ id goal)

theorem quiet_forsake (c : Client κ α) (id : CallId) (goal : Goal κ) :
    Quiet (c.forsake id goal).2 := by
  constructor <;> simp [forsake]

/-- After a pass without a session the call rests for the next one, concludes or is broken off. -/
theorem course_endPass (gate : Gate) (none : c.session = none) (backoff : Option Backoff)
    (why : Error) :
    Course c id goal ({ c with gate }.endPass id goal backoff why).1
      ({ c with gate }.endPass id goal backoff why).2 := by
  unfold endPass
  split
  · exact course_leaveGate c gate (cached_of_none none)
  · exact .connects (call?_putCall _ _ _) rfl (.inl none) ⟨rfl, rfl⟩
  · obtain ⟨answers, sends⟩ := quiet_forsake { c with gate } id goal
    exact .vanishes (call?_dropCall _ _) rfl rfl
      ⟨by simp [breakOff, answers], by simp [breakOff, sends]⟩

/-- A call that looks its candidates up goes on connecting, or its pass ends at once. -/
theorem course_probe (gate : Gate) (none : c.session = none) (backoff : Option Backoff)
    (versions : List Version) :
    Course c id goal ({ c with gate }.probe id goal backoff versions).1
      ({ c with gate }.probe id goal backoff versions).2 := by
  cases versions with
  | nil => exact course_endPass gate none backoff _
  | cons version rest => exact .connects (call?_putCall _ _ _) rfl (.inl none) ⟨rfl, rfl⟩

theorem course_search (c : Client κ α) (gate : Gate) :
    Course c id goal ({ c with gate }.search id goal).1 ({ c with gate }.search id goal).2 := by
  unfold search
  split
  · rename_i session cached
    change c.session = some session at cached
    exact course_leaveGate c gate (by simp only [Client.cached, cached])
  · rename_i noSession
    change c.session = none at noSession
    exact course_probe gate noSession _ _

/-- A call that begins is refused, waits in line, or goes ahead. -/
theorem Valid.course_begin (valid : c.Valid) (unused : c.call? id = none) :
    Course c id goal (c.begin id goal).1 (c.begin id goal).2 := by
  have conclusion := conclude_conclusion c id goal
  unfold begin
  split
  · rename_i unsupported
    rw [← cached_of_none (valid.unsupported (by simpa using unsupported)).1] at conclusion
    exact .concludes none unused rfl rfl rfl conclusion
  · split
    · rename_i session cached
      rw [show c.cached = .ok session by simp only [Client.cached, cached]] at conclusion
      exact .concludes none unused rfl rfl rfl conclusion
    · rename_i none
      dsimp only
      split
      · exact course_search c _
      · exact .connects (call?_putCall _ _ _) rfl (.inl none) ⟨rfl, rfl⟩

/-- A call that gives its session up loses the requests with it, unless it is lost already. -/
theorem Valid.course_abandon (valid : c.Valid) {session : Session α}
    (found : c.call? id = some (.connecting goal stage))
    (settingUp : stage.settingUp? = some session) :
    Course c id goal (c.abandon id goal session).1 (c.abandon id goal session).2 := by
  have cached : c.session = none ∨ c.session = some session := by
    have knows := valid.knowsOf found
    cases stage <;> cases settingUp <;> exact knows
  unfold abandon
  rcases cached with none | cached
  · have superseded : c.isCurrent session.generation = false := by simp [isCurrent, none]
    rw [teardown_of_not_current superseded]
    exact .connects (call?_putCall _ _ _) rfl (.inl none) ⟨rfl, rfl⟩
  · have current : c.isCurrent session.generation = true := isCurrent_iff.2 ⟨session, cached, rfl⟩
    rw [teardown_of_current current]
    exact .givesUp found settingUp (call?_putCall _ _ _) rfl ⟨by simp, by simp⟩

/-- Whatever comes to a connecting call takes it along its course. -/
theorem Valid.course_connect (valid : c.Valid)
    (found : c.call? id = some (.connecting goal stage)) (event : Event κ α) :
    Course c id goal (c.connect id goal stage event).1 (c.connect id goal stage event).2 := by
  have knows := valid.knowsOf found
  unfold connect
  split
  · split
    · exact course_search c c.gate
    · exact .ignores
  · split
    · exact .connects (call?_putCall _ _ _) rfl (.inl knows) ⟨rfl, rfl⟩
    · exact course_probe c.gate knows _ _
    · exact course_endPass c.gate knows _ _
  · exact course_probe c.gate knows _ _
  · split
    · exact .connects (call?_putCall _ _ _) rfl (.inr ⟨rfl, goal, _, _, found, rfl⟩) ⟨rfl, rfl⟩
    · exact valid.course_abandon found rfl
  · split
    · refine course_leaveGate c c.gate ?_
      rcases knows with none | cached
      · simp [isCurrent, none, Client.cached]
      · simp [isCurrent, cached, Client.cached]
    · exact valid.course_abandon found rfl
  · exact course_leaveGate c c.gate (cached_of_none knows)
  · exact .ignores

theorem course_cancel (found : c.call? id = some (.connecting goal stage)) :
    Course c id goal (c.cancel id).1 (c.cancel id).2 := by
  have forsakes : Course c id goal (c.forsake id goal).1 (c.forsake id goal).2 :=
    .vanishes (call?_dropCall _ _) rfl rfl (quiet_forsake c id goal)
  simp only [cancel, found]
  split
  · split
    · exact forsakes
    · exact .vanishes (call?_dropCall _ _) rfl rfl ⟨by simp, by simp⟩
  · exact forsakes
  · exact forsakes
  all_goals exact .ignores

/-- A connecting call takes one step further at every event that is about it. -/
theorem Valid.course (valid : c.Valid) (found : c.call? id = some (.connecting goal stage))
    (about : event.about? = some id) :
    Course c id goal (c.handle event).1 (c.handle event).2 := by
  have advanced (event : Event κ α) : c.advance id event = c.connect id goal stage event := by
    simp [advance, found]
  cases event with
  | call _ goal' =>
    cases about
    have ignored : c.handle (.call id goal') = (c, []) := by simp [Client.handle, found]
    rw [ignored]
    exact .ignores
  | cancel =>
    cases about
    exact course_cancel found
  | admitted | found | rested | linked | routed | proceeded | sent =>
    cases about
    rw [Client.handle, advanced]
    exact valid.course_connect found _
  | _ => cases about

theorem Valid.course_of_call (valid : c.Valid) (unused : c.call? id = none) :
    Course c id goal (c.handle (.call id goal)).1 (c.handle (.call id goal)).2 := by
  simpa [Client.handle, unused] using valid.course_begin unused

/-- A call that has given its session up goes on to nothing else. -/
theorem Valid.stage_of_abandoning (valid : c.Valid) {goal' : Goal κ}
    (found : c.call? id = some (.connecting goal .abandoning)) (about : event.about? = some id)
    (connects : (c.handle event).1.call? id = some (.connecting goal' stage)) :
    stage = .abandoning := by
  have stays (ignored : c.handle event = (c, [])) : stage = .abandoning := by
    rw [ignored] at connects
    cases found.symm.trans connects
    rfl
  cases event with
  | proceeded =>
    cases about
    have returned : c.handle (.proceeded id) = c.leaveGate id goal c.cached := by
      rw [← cached_of_none (valid.knowsOf found)]
      simp [Client.handle, advance, found, connect]
    rw [returned] at connects
    exact absurd connects
      ((conclude_conclusion _ id goal).call? (call?_dropCall { c with gate := c.gate.leave } id) _ _)
  | call | cancel | admitted | found | rested | linked | routed | sent =>
    cases about
    exact stays (by simp [Client.handle, advance, cancel, connect, found])
  | _ => cases about

/-! ## Calls that do not connect -/

section Sending

variable {serial : Serial} {generation : Nat}

/-- What an event does that is about a call which sends its request: nothing, or the call is gone,
and has returned its serial unless it was dropped. No request is entered. -/
structure Departs (c : Client κ α) (id : CallId) (serial : Serial) (generation : Nat)
    (effect : Effect κ α) : Prop where
  count : effect.1.outstanding.nextAge = c.outstanding.nextAge
  sends : collect send? effect.2 = []
  call : effect.1.call? id = some (.sending serial generation) ∨ effect.1.call? id = none
  answers : ∀ answer ∈ collect answer? effect.2, answer = (id, .request (.ok serial))

/-- A failed send returns its serial all the same, whether or not the session is still there. -/
theorem departs_sendFailed (c : Client κ α) (id : CallId) (serial : Serial) (generation : Nat) :
    Departs c id serial generation (c.sendFailed id serial generation) := by
  unfold sendFailed
  dsimp only
  split
  · rename_i current
    rw [teardown_of_current current]
    exact ⟨rfl, by simp, .inr (call?_dropCall c id), by simp⟩
  · split
    · exact ⟨rfl, rfl, .inr (call?_dropCall c id), by simp⟩
    · exact ⟨rfl, rfl, .inr (call?_dropCall c id), by simp⟩

/-- A call that sends its request waits for the return of the send, and for nothing else. -/
theorem advance_of_sending (sending : c.call? id = some (.sending serial generation))
    (other : ∀ id answer, event ≠ .sent id answer) : c.advance id event = (c, []) := by
  unfold advance
  split
  · rename_i found
    cases sending.symm.trans found
  · exact absurd rfl (other _ _)
  · rfl

/-- A call that sends its request can only depart. -/
theorem departs_of_sending (sending : c.call? id = some (.sending serial generation))
    (about : event.about? = some id) : Departs c id serial generation (c.handle event) := by
  have stays : Departs c id serial generation (c, []) := ⟨rfl, rfl, .inl sending, nofun⟩
  cases event with
  | call _ goal =>
    cases about
    have ignored : c.handle (.call id goal) = (c, []) := by simp [handle, sending]
    rw [ignored]
    exact stays
  | admitted | found | rested | linked | routed | proceeded =>
    cases about
    rw [handle, advance_of_sending sending (by rintro _ _ ⟨⟩)]
    exact stays
  | cancel =>
    cases about
    have dropped : c.handle (.cancel id) = (c.dropCall id, []) := by
      simp only [handle, cancel, sending]
    rw [dropped]
    exact ⟨rfl, rfl, .inr (call?_dropCall c id), by simp⟩
  | sent _ answer =>
    cases about
    cases answer with
    | ok =>
      have returned : c.handle (.sent id (.ok ())) =
          (c.dropCall id, [.finish id (.request (.ok serial))]) := by
        simp only [handle, advance, sending]
      rw [returned]
      exact ⟨rfl, rfl, .inr (call?_dropCall c id), by simp⟩
    | error why =>
      have failed : c.handle (.sent id (.error why)) = c.sendFailed id serial generation := by
        simp only [handle, advance, sending]
      rw [failed]
      exact departs_sendFailed c id serial generation
  | _ => cases about

end Sending

/-- An event about a call that is not under way does nothing, unless the call begins with it. -/
theorem handle_about_unused (unused : c.call? id = none) (about : event.about? = some id)
    (begins : ∀ goal, event ≠ .call id goal) : c.handle event = (c, []) := by
  cases event with
  | call =>
    cases about
    exact absurd rfl (begins _)
  | cancel | admitted | found | rested | linked | routed | proceeded | sent =>
    cases about
    simp [handle, advance, cancel, unused]
  | _ => cases about

/-! ## Any event about a call -/

inductive Takes (c : Client κ α) (id : CallId) (event : Event κ α) : Prop
  | begins {goal : Goal κ} (call : event = .call id goal) (unused : c.call? id = none)
      (course : Course c id goal (c.handle event).1 (c.handle event).2)
  | goesOn {goal : Goal κ} {stage : Stage α} (found : c.call? id = some (.connecting goal stage))
      (course : Course c id goal (c.handle event).1 (c.handle event).2)
  | departs {serial : Serial} {generation : Nat}
      (sending : c.call? id = some (.sending serial generation))
      (departs : Departs c id serial generation (c.handle event))
  | ignores (unused : c.call? id = none) (same : c.handle event = (c, []))

/-- Every event about a call is taken by it in one of the ways listed. -/
theorem Valid.takes (valid : c.Valid) (about : event.about? = some id) : c.Takes id event := by
  cases found : c.call? id with
  | none =>
    by_cases begins : ∃ goal, event = .call id goal
    · obtain ⟨goal, rfl⟩ := begins
      exact .begins rfl found (valid.course_of_call found)
    · exact .ignores found (handle_about_unused found about fun goal same => begins ⟨goal, same⟩)
  | some call =>
    cases call with
    | connecting goal stage => exact .goesOn found (valid.course found about)
    | sending serial generation => exact .departs found (departs_of_sending found about)

/-- The event takes the call no further. -/
structure Passes (c : Client κ α) (id : CallId) (event : Event κ α) : Prop where
  call : (c.handle event).1.call? id = c.call? id
  answers : ∀ answer, (id, answer) ∉ collect answer? (c.handle event).2
  sends : ∀ sending ∈ collect send? (c.handle event).2, sending.id ≠ id
  ignores : event.about? = some id → c.handle event = (c, [])

theorem passes_of_ignored (same : c.handle event = (c, [])) : c.Passes id event where
  call := by rw [same]
  answers := by simp [same]
  sends := by simp [same]
  ignores _ := same

/-- An event about another call, or about none, takes a call no further. -/
theorem Valid.passes_of_foreign (valid : c.Valid) (foreign : event.about? ≠ some id) :
    c.Passes id event where
  call := call?_handle_of_ne c foreign
  answers answer listed := foreign
    ((handle_move valid event).about (call?_handle_of_ne c) (.inl ⟨answer, listed⟩))
  sends sending listed own := foreign
    ((handle_move valid event).about (call?_handle_of_ne c) (.inr ⟨sending, listed, own⟩))
  ignores about := absurd about foreign

/-! ## Setting a session up -/

/-- A call that sets a session up did so before, or has just found it. -/
theorem Course.setsUp (course : Course c id goal c' commands) (setsUp : c'.SetsUp id) :
    c.SetsUp id ∨ c.session = none ∧ c'.outstanding = c.outstanding := by
  obtain ⟨goal', stage, session, connecting, settingUp⟩ := setsUp
  cases course with
  | ignores => exact .inl ⟨goal', stage, session, connecting, settingUp⟩
  | connects _ table before =>
    exact before.symm.imp (fun kept => kept.2) fun none => ⟨none, table⟩
  | givesUp _ _ call =>
    cases call.symm.trans connecting
    cases settingUp
  | concludes _ unused _ _ _ conclusion =>
    exact absurd connecting (conclusion.call? unused goal' stage)
  | vanishes call => cases call.symm.trans connecting

/-- A call begins to set a session up only when there is none, and leaves the table as it is. -/
theorem Takes.setsUp (takes : c.Takes id event) (setsUp : (c.handle event).1.SetsUp id) :
    c.SetsUp id ∨ c.session = none ∧ (c.handle event).1.outstanding = c.outstanding := by
  cases takes with
  | begins _ _ course => exact course.setsUp setsUp
  | goesOn _ course => exact course.setsUp setsUp
  | departs _ departs =>
    obtain ⟨goal, stage, session, connecting, -⟩ := setsUp
    rcases departs.call with call | call <;> cases call.symm.trans connecting
  | ignores unused same =>
    rw [same] at setsUp
    exact .inl setsUp

/-- While a call sets a session up, only calls that begin send anything. -/
theorem Move.call_of_send (move : Move c event c' commands) {sending : Sending α}
    (listed : sending ∈ collect send? commands) (before : c.SetsUp id) (after : c'.SetsUp id) :
    ∃ other goal, event = .call other goal := by
  cases move with
  | ignore | listen | answer | submit | take | startAt | queue | look | rest | install | route
  | abandonLost | sent | stranded | resolved | cancelSend => cases listed
  | lose | flush | abandon | breakOff | forsake | withdraw | unsent => simp at listed
  | conclude => exact ⟨_, _, rfl⟩
  | @leave _ own goal gate _ _ inside conclusion =>
    by_cases same : id = own
    · subst same
      obtain ⟨goal', stage, session, connecting, -⟩ := after
      exact absurd connecting (conclusion.call? (call?_dropCall _ _) goal' stage)
    · -- whoever is past the gate is alone there, and this call is past it
      obtain ⟨goal', stage, session, found, settingUp⟩ := before
      obtain rfl := inside.alone id goal' stage (mem_calls_of_call? found) same
      cases settingUp

/-- While a call sets a session up and no call begins, nothing is outstanding. -/
theorem Valid.toList_of_setsUp (valid : c.Valid) (setsUp : (c.handle event).1.SetsUp id)
    (bare : c.SetsUp id → c.outstanding.toList = [])
    (nothing : c.session = none → c.outstanding.toList = [])
    (calls : ∀ op completion attribution, event ≠ .submit op completion attribution)
    (alone : c.SetsUp id → ∀ other goal, event ≠ .call other goal) :
    (c.handle event).1.outstanding.toList = [] := by
  have since (before : c.SetsUp id) : (c.handle event).1.outstanding.toList = [] := by
    refine List.eq_nil_iff_forall_not_mem.2 fun request listed => ?_
    have move := handle_move valid event
    rcases move.table.origin calls listed with listed | ⟨sending, sent, -⟩
    · simp [bare before] at listed
    · obtain ⟨other, goal, begins⟩ := move.call_of_send sent before setsUp
      exact alone before other goal begins
  by_cases about : event.about? = some id
  · rcases (valid.takes about).setsUp setsUp with before | ⟨none, table⟩
    · exact since before
    · rw [table]
      exact nothing none
  · obtain ⟨goal, stage, session, found, settingUp⟩ := setsUp
    rw [call?_handle_of_ne c about] at found
    exact since ⟨goal, stage, session, found, settingUp⟩

end Baseband.Client
