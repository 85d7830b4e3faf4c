import Baseband.Proofs.Client.Calls

/-!
# What a client can do

A client handles an event by one of a few moves. A move says all that changes: the session, the
table of requests, the gate, one call, and the commands left behind. Whatever holds of every move
holds of every event, so that no invariant has to look into the handling of events again.

Which moves there are depends on an invariant of the client: at most one call is past the gate,
while that call looks for a service there is no session, and while it sets one up nobody else does.
-/

namespace Baseband

variable {κ α : Type}

def Event.handed : Event κ α → List κ
  | .call _ goal => goal.completion?.toList
  | .submit _ completion _ => [completion]
  | _ => []

def Event.call? : Event κ α → Option CallId
  | .admitted id | .found id _ | .rested id | .linked id _ | .routed id _ | .proceeded id
  | .sent id _ => some id
  | _ => none

theorem Event.handed_of_call? {event : Event κ α} {id : CallId} (own : event.call? = some id) :
    event.handed = [] := by
  cases event <;> simp_all [Event.call?, Event.handed]

/-- What a connecting call knows of the cached session, by how far it has come. -/
def Stage.Knows (cached : Option (Session α)) : Stage α → Prop
  | .queued => True
  | .probing .. | .resting _ | .abandoning => cached = none
  | .linking session | .routing session => cached = none ∨ cached = some session

namespace Client

/-! ## The invariant -/

/-- The invariant of a client. -/
structure Valid (c : Client κ α) : Prop where
  distinct : (c.calls.map Prod.fst).Nodup
  /-- Only the holder of the gate has passed it. -/
  inside : ∀ id goal stage, (id, .connecting goal stage) ∈ c.calls → stage.isInside = true →
    c.gate.holder = some id
  knows : ∀ id goal stage, (id, .connecting goal stage) ∈ c.calls →
    stage.Knows c.session
  /-- Whoever connects is at the gate, and nobody else is. -/
  lined : ∀ id, id ∈ c.gate.line ↔ ∃ goal stage, (id, .connecting goal stage) ∈ c.calls
  orderly : c.gate.line.Nodup
  /-- Nobody waits at an open gate. -/
  idle : c.gate.holder = none → c.gate.waiting = []
  /-- A session bears the latest number. -/
  numbered : ∀ session, c.session = some session → session.generation = c.generation
  /-- Without the service nothing is looked for. -/
  unsupported : c.supported = false →
    c.session = none ∧ ∀ id goal stage, (id, .connecting goal stage) ∉ c.calls

/-! ## Sessions -/

/-- What a call that needs a session gets at this moment, if it does not look for one. -/
def cached (c : Client κ α) : Except Error (Session α) :=
  match c.session with
  | some session => .ok session
  | none => .error .unavailable

def lost (c : Client κ α) : Client κ α :=
  { c with session := none, outstanding := c.outstanding.clear }

theorem isCurrent_iff {c : Client κ α} {generation : Nat} :
    c.isCurrent generation = true ↔
      ∃ session, c.session = some session ∧ session.generation = generation := by
  unfold isCurrent
  cases c.session <;> simp

/-- Tearing the current session down loses it, and fails all its requests. -/
theorem teardown_of_current {c : Client κ α} {generation : Nat}
    (current : c.isCurrent generation = true) :
    c.teardown generation = (c.lost, failAll c.outstanding.toList .unavailable) := by
  simp [teardown, current, lost]

/-- A session that has been superseded is not torn down again. -/
theorem teardown_of_not_current {c : Client κ α} {generation : Nat}
    (superseded : c.isCurrent generation = false) : c.teardown generation = (c, []) := by
  simp [teardown, superseded]

/-! ## Moves -/

/-- How a call ends that has its session or knows that there is none. -/
inductive Conclusion (c : Client κ α) (id : CallId) :
    Goal κ → Client κ α → List (Command κ α) → Prop
  | found : Conclusion c id .acquire c [.finish id (.session c.cached)]
  | told (op : Operation) : Conclusion c id (.supports op) c
      [.finish id (.supports (c.session.any (·.supports op)))]
  | unavailable {query : Query} {completion : κ} (none : c.session = none) :
      Conclusion c id (.request query completion) c
        [.complete completion (.error .unavailable), .finish id (.request (.error .unavailable))]
  | unsupported {query : Query} {completion : κ} {session : Session α}
      (cached : c.session = some session) (lacks : session.supports query.operation = false) :
      Conclusion c id (.request query completion) c
        [.complete completion (.error (.notSupported query.operation session.version)),
          .finish id (.request (.error (.notSupported query.operation session.version)))]
  /-- The request is registered and sent. -/
  | accepted {query : Query} {completion : κ} {session : Session α}
      (cached : c.session = some session) (supports : session.supports query.operation = true) :
      Conclusion c id (.request query completion)
        ({ c with outstanding :=
            (c.outstanding.submit query.operation completion c.attribution).2 }.putCall id
          (.sending c.outstanding.freeSerial session.generation))
        [.send id session.connection c.outstanding.freeSerial query.operation query.payload]

/-- The call is the one past the gate: it has just entered, or it goes on from where it has come. -/
structure Inside (c : Client κ α) (event : Event κ α) (id : CallId) (goal : Goal κ)
    (gate : Gate) : Prop where
  holder : gate.holder = some id
  supported : c.supported = true
  alone : ∀ other goal stage, (other, .connecting goal stage) ∈ c.calls → other ≠ id →
    stage = .queued
  origin :
    event = .call id goal ∧ c.call? id = none ∧ c.gate.holder = none ∧ gate = c.gate.enter id ∨
    event.handed = [] ∧ gate = c.gate ∧ ∃ stage, c.call? id = some (.connecting goal stage)

/-- The delays that a call has before it are those of a fresh discovery or those that it had. -/
def Inherits (c : Client κ α) (id : CallId) (goal : Goal κ) (backoff : Option Backoff) : Prop :=
  backoff = c.freshBackoff ∨
    (∃ version rest, c.call? id = some (.connecting goal (.probing version rest backoff))) ∨
    c.call? id = some (.connecting goal (.resting backoff))

/-- Everything that handling an event can do. -/
inductive Move (c : Client κ α) : Event κ α → Client κ α → List (Command κ α) → Prop
  | ignore (event : Event κ α)
      (stray : event.handed = [] ∨ ∃ id goal, event = .call id goal ∧ (c.call? id).isSome) :
      Move c event c []
  | listen (event : Event κ α) (nothing : event.handed = []) (indications : Indications) :
      Move c event { c with indications } []
  -- the session and the table
  | lose {event : Event κ α} {session : Session α} (nothing : event.handed = [])
      (cached : c.session = some session) :
      Move c event c.lost (failAll c.outstanding.toList .unavailable)
  | answer {header : ResponseHeader} {payload : Bytes} {request : Request κ}
      (found : c.outstanding.find? header.serial = some request) :
      Move c (.respond header payload)
        { c with outstanding := c.outstanding.erase header.serial }
        [.complete request.completion (Response.outcome request.operation header.status payload)]
  | submit (op : Operation) (completion : κ) (attribution : Attribution) :
      Move c (.submit op completion attribution)
        { c with outstanding := (c.outstanding.submit op completion attribution).2 } []
  | take (serial : Serial) :
      Move c (.take serial) { c with outstanding := c.outstanding.erase serial } []
  | flush (why : Error) :
      Move c (.flush why) { c with outstanding := c.outstanding.clear }
        (failAll c.outstanding.toList why)
  | startAt (serial : Serial) :
      Move c (.setNextSerial serial) { c with outstanding := c.outstanding.startAt serial } []
  -- a call begins
  | conclude {id : CallId} {goal : Goal κ} {c' : Client κ α} {commands : List (Command κ α)}
      (unused : c.call? id = none) (conclusion : Conclusion c id goal c' commands) :
      Move c (.call id goal) c' commands
  | queue {id : CallId} {goal : Goal κ} (supported : c.supported = true)
      (unused : c.call? id = none) (closed : c.gate.holder ≠ none) :
      Move c (.call id goal)
        ({ c with gate := c.gate.enter id }.putCall id (.connecting goal .queued)) []
  -- past the gate
  | look {event : Event κ α} {id : CallId} {goal : Goal κ} {gate : Gate}
      (inside : Inside c event id goal gate) (none : c.session = none) {backoff : Option Backoff}
      (inherits : Inherits c id goal backoff) (version : Version) (rest : List Version) :
      Move c event
        ({ c with gate }.putCall id (.connecting goal (.probing version rest backoff)))
        [.discover id version]
  | rest {id : CallId} {goal : Goal κ} {why : Error}
      (inside : Inside c (.found id (.error why)) id goal c.gate) (none : c.session = none)
      {version : Version} {versions : List Version} {before : Option Backoff}
      (stage : c.call? id = some (.connecting goal (.probing version versions before)))
      {delay : Duration} {after : Backoff}
      (again : Backoff.afterPass c.growth before why = .again delay after) :
      Move c (.found id (.error why))
        (c.putCall id (.connecting goal (.resting (some after)))) [.rest id delay]
  | install {id : CallId} {goal : Goal κ} {version : Version} {connection : α}
      (inside : Inside c (.found id (.ok (connection, version))) id goal c.gate)
      (none : c.session = none) :
      Move c (.found id (.ok (connection, version)))
        ({ c with
            generation := c.generation + 1
            session := some ⟨version, connection, c.generation + 1⟩ }.putCall id
          (.connecting goal (.linking ⟨version, connection, c.generation + 1⟩)))
        [.link id connection (c.generation + 1)]
  | route {id : CallId} {goal : Goal κ} {session : Session α}
      (inside : Inside c (.linked id (.ok ())) id goal c.gate)
      (current : c.session = none ∨ c.session = some session)
      (stage : c.call? id = some (.connecting goal (.linking session))) :
      Move c (.linked id (.ok ())) (c.putCall id (.connecting goal (.routing session)))
        [.route id session.connection]
  | abandon {event : Event κ α} {id : CallId} {goal : Goal κ}
      (inside : Inside c event id goal c.gate) {session : Session α}
      (cached : c.session = some session) :
      Move c event (c.lost.putCall id (.connecting goal .abandoning))
        (failAll c.outstanding.toList .unavailable ++ [.proceed id])
  | abandonLost {event : Event κ α} {id : CallId} {goal : Goal κ}
      (inside : Inside c event id goal c.gate) (none : c.session = none) :
      Move c event (c.putCall id (.connecting goal .abandoning)) [.proceed id]
  | leave {event : Event κ α} {id : CallId} {goal : Goal κ} {gate : Gate} {c' : Client κ α}
      {commands : List (Command κ α)} (inside : Inside c event id goal gate)
      (conclusion :
        Conclusion ({ c with gate := gate.leave }.dropCall id) id goal c' commands) :
      Move c event c' ((gate.leave.holder.map .letIn).toList ++ commands)
  | breakOff {id : CallId} {goal : Goal κ} {why : Error}
      (inside : Inside c (.found id (.error why)) id goal c.gate) {version : Version}
      {versions : List Version} {before : Option Backoff}
      (stage : c.call? id = some (.connecting goal (.probing version versions before)))
      {failure : Unrepresentable}
      (failed : Backoff.afterPass c.growth before why = .failed failure) :
      Move c (.found id (.error why)) ({ c with gate := c.gate.leave }.dropCall id)
        ((c.gate.leave.holder.map .letIn).toList ++ letGo goal ++ [.breakOff id failure])
  | forsake {id : CallId} {goal : Goal κ} (inside : Inside c (.cancel id) id goal c.gate) :
      Move c (.cancel id) ({ c with gate := c.gate.leave }.dropCall id)
        ((c.gate.leave.holder.map .letIn).toList ++ letGo goal)
  | withdraw {id : CallId} {goal : Goal κ}
      (queued : c.call? id = some (.connecting goal .queued)) (closed : c.gate.holder ≠ some id) :
      Move c (.cancel id) ({ c with gate := c.gate.withdraw id }.dropCall id) (letGo goal)
  -- a request is sent
  | sent {id : CallId} {serial : Serial} {generation : Nat}
      (sending : c.call? id = some (.sending serial generation)) :
      Move c (.sent id (.ok ())) (c.dropCall id) [.finish id (.request (.ok serial))]
  | unsent {id : CallId} {serial : Serial} {generation : Nat} (why : Error)
      (sending : c.call? id = some (.sending serial generation))
      (current : c.isCurrent generation = true) :
      Move c (.sent id (.error why)) (c.lost.dropCall id)
        (failAll c.outstanding.toList .unavailable ++ [.finish id (.request (.ok serial))])
  | stranded {id : CallId} {serial : Serial} {generation : Nat} {request : Request κ}
      (why : Error) (sending : c.call? id = some (.sending serial generation))
      (superseded : c.isCurrent generation = false)
      (found : c.outstanding.find? serial = some request) :
      Move c (.sent id (.error why))
        ({ c with outstanding := c.outstanding.erase serial }.dropCall id)
        [.complete request.completion (.error .unavailable), .finish id (.request (.ok serial))]
  | resolved {id : CallId} {serial : Serial} {generation : Nat} (why : Error)
      (sending : c.call? id = some (.sending serial generation))
      (superseded : c.isCurrent generation = false)
      (gone : c.outstanding.find? serial = none) :
      Move c (.sent id (.error why)) (c.dropCall id) [.finish id (.request (.ok serial))]
  | cancelSend {id : CallId} {serial : Serial} {generation : Nat}
      (sending : c.call? id = some (.sending serial generation)) :
      Move c (.cancel id) (c.dropCall id) []

/-! ## Every event is handled by a move -/

theorem conclude_conclusion (c : Client κ α) (id : CallId) (goal : Goal κ) :
    Conclusion c id goal (c.conclude id goal c.cached).1 (c.conclude id goal c.cached).2 := by
  cases goal with
  | acquire => exact .found
  | supports op =>
    cases none : c.session <;> simpa [conclude, cached, none] using Conclusion.told (c := c) op
  | request query completion =>
    cases cached : c.session with
    | none => simpa [conclude, Client.cached, cached, refuse] using Conclusion.unavailable cached
    | some session =>
      cases supports : session.supports query.operation with
      | true =>
        simpa [conclude, Client.cached, cached, supports, Outstanding.submit] using
          Conclusion.accepted cached supports
      | false =>
        simpa [conclude, Client.cached, cached, supports, refuse] using
          Conclusion.unsupported cached supports

theorem leaveGate_move {c : Client κ α} {event : Event κ α} {id : CallId} {goal : Goal κ}
    {gate : Gate} (inside : Inside c event id goal gate) {found : Except Error (Session α)}
    (cached : found = c.cached) :
    Move c event ({ c with gate }.leaveGate id goal found).1
      ({ c with gate }.leaveGate id goal found).2 := by
  subst cached
  exact .leave inside (conclude_conclusion ({ c with gate := gate.leave }.dropCall id) id goal)

/-- No call connects where the deployment supports no service. -/
theorem Valid.supported {c : Client κ α} (valid : c.Valid) {id : CallId} {goal : Goal κ}
    {stage : Stage α} (found : c.call? id = some (.connecting goal stage)) :
    c.supported = true := by
  by_contra unsupported
  rw [Bool.not_eq_true] at unsupported
  exact (valid.unsupported unsupported).2 id goal stage (mem_calls_of_call? found)

/-- A call that holds the gate goes on alone. -/
theorem Valid.insideOfHolder {c : Client κ α} (valid : c.Valid) {event : Event κ α}
    (nothing : event.handed = []) {id : CallId} {goal : Goal κ} {stage : Stage α}
    (found : c.call? id = some (.connecting goal stage)) (holder : c.gate.holder = some id) :
    Inside c event id goal c.gate where
  holder
  supported := valid.supported found
  alone other goal' stage' listed differ := by
    by_contra past
    have : stage'.isInside = true := by cases stage' <;> simp_all [Stage.isInside]
    have := valid.inside other goal' stage' listed this
    exact differ (Option.some.inj (this.symm.trans holder))
  origin := .inr ⟨nothing, rfl, stage, found⟩

/-- A call that is further than the line is the one past the gate. -/
theorem Valid.insideOfStage {c : Client κ α} (valid : c.Valid) {event : Event κ α}
    (nothing : event.handed = []) {id : CallId} {goal : Goal κ} {stage : Stage α}
    (found : c.call? id = some (.connecting goal stage)) (past : stage.isInside = true) :
    Inside c event id goal c.gate :=
  valid.insideOfHolder nothing found (valid.inside id goal stage (mem_calls_of_call? found) past)

/-- What a connecting call knows of the session by its stage is so. -/
theorem Valid.knowsOf {c : Client κ α} (valid : c.Valid) {id : CallId} {goal : Goal κ}
    {stage : Stage α} (found : c.call? id = some (.connecting goal stage)) :
    stage.Knows c.session :=
  valid.knows id goal stage (mem_calls_of_call? found)

/-- With no session to be had, a call leaves the gate empty-handed. -/
theorem cached_of_none {c : Client κ α} (none : c.session = none) :
    .error .unavailable = c.cached := by
  simp [cached, none]

theorem probe_move {c : Client κ α} {event : Event κ α} {id : CallId} {goal : Goal κ}
    {gate : Gate} (inside : Inside c event id goal gate) (none : c.session = none)
    {backoff : Option Backoff} (inherits : Inherits c id goal backoff) (versions : List Version) :
    Move c event ({ c with gate }.probe id goal backoff versions).1
      ({ c with gate }.probe id goal backoff versions).2 := by
  cases versions with
  | nil => exact leaveGate_move inside (cached_of_none none)
  | cons version rest => exact .look inside none inherits version rest

theorem search_move {c : Client κ α} {event : Event κ α} {id : CallId} {goal : Goal κ}
    {gate : Gate} (inside : Inside c event id goal gate) :
    Move c event ({ c with gate }.search id goal).1 ({ c with gate }.search id goal).2 := by
  unfold search
  split
  · rename_i session cached
    change c.session = some session at cached
    exact leaveGate_move inside (by simp only [Client.cached, cached])
  · rename_i none
    exact probe_move inside none (.inl rfl) c.candidates

theorem begin_move {c : Client κ α} (valid : c.Valid) {id : CallId} (goal : Goal κ)
    (unused : c.call? id = none) :
    Move c (.call id goal) (c.begin id goal).1 (c.begin id goal).2 := by
  have conclusion := conclude_conclusion c id goal
  unfold begin
  split
  · rename_i unsupported
    rw [← cached_of_none (valid.unsupported (by simpa using unsupported)).1] at conclusion
    exact .conclude unused conclusion
  · rename_i supported
    have supported : c.supported = true := by simpa using supported
    split
    · rename_i session cached
      rw [show c.cached = .ok session by simp only [Client.cached, cached]] at conclusion
      exact .conclude unused conclusion
    · rename_i noSession
      have notHolder : c.gate.holder ≠ some id := by
        intro holder
        obtain ⟨goal', stage, listed⟩ :=
          (valid.lined id).1 (by simp [Gate.line_of_holder holder])
        exact not_mem_calls_of_call? unused _ listed
      dsimp only
      split
      · rename_i entered
        have free : c.gate.holder = none := by
          by_contra closed
          obtain ⟨other, holder⟩ := Option.ne_none_iff_exists'.1 closed
          simp only [Gate.enter, holder, Option.isNone_some, Bool.false_eq_true, if_false]
            at entered
          exact notHolder (holder.trans entered)
        refine search_move ⟨entered, supported, ?_, .inl ⟨rfl, unused, free, rfl⟩⟩
        intro other goal' stage listed differ
        by_contra past
        have : stage.isInside = true := by cases stage <;> simp_all [Stage.isInside]
        have := valid.inside other goal' stage listed this
        simp [free] at this
      · rename_i waits
        refine .queue supported unused ?_
        intro free
        simp [Gate.enter, free] at waits

/-- The end of a pass is a move: a rest, a return without a session, or a broken discovery. -/
theorem endPass_move {c : Client κ α} (valid : c.Valid) {id : CallId} {goal : Goal κ}
    {version : Version} {versions : List Version} {backoff : Option Backoff}
    (stage : c.call? id = some (.connecting goal (.probing version versions backoff)))
    (why : Error) :
    Move c (.found id (.error why)) (c.endPass id goal backoff why).1
      (c.endPass id goal backoff why).2 := by
  have none : c.session = none := valid.knowsOf stage
  have inside : Inside c (.found id (.error why)) id goal c.gate :=
    valid.insideOfStage rfl stage rfl
  unfold endPass
  split
  · exact leaveGate_move inside (cached_of_none none)
  · rename_i again
    exact .rest inside none stage again
  · rename_i failed
    exact .breakOff inside stage failed

theorem abandon_move {c : Client κ α} {event : Event κ α} {id : CallId} {goal : Goal κ}
    (inside : Inside c event id goal c.gate) {session : Session α}
    (knows : c.session = none ∨ c.session = some session) :
    Move c event (c.abandon id goal session).1 (c.abandon id goal session).2 := by
  rcases knows with none | cached
  · have superseded : c.isCurrent session.generation = false := by simp [isCurrent, none]
    rw [abandon, teardown_of_not_current superseded]
    exact .abandonLost inside none
  · have current : c.isCurrent session.generation = true :=
      isCurrent_iff.2 ⟨session, cached, rfl⟩
    rw [abandon, teardown_of_current current]
    exact .abandon inside cached

theorem install_move {c : Client κ α} (valid : c.Valid) {id : CallId} {goal : Goal κ}
    {version : Version} {versions : List Version} {backoff : Option Backoff}
    (stage : c.call? id = some (.connecting goal (.probing version versions backoff)))
    (connection : α) :
    Move c (.found id (.ok (connection, version))) (c.install id goal version connection).1
      (c.install id goal version connection).2 :=
  .install (valid.insideOfStage rfl stage rfl) (valid.knowsOf stage)

theorem connect_move {c : Client κ α} (valid : c.Valid) {event : Event κ α} {id : CallId}
    (own : event.call? = some id) {goal : Goal κ} {stage : Stage α}
    (found : c.call? id = some (.connecting goal stage)) :
    Move c event (c.connect id goal stage event).1 (c.connect id goal stage event).2 := by
  have nothing := Event.handed_of_call? own
  have knows := valid.knowsOf found
  unfold connect
  split
  · split
    · rename_i holder
      exact search_move (valid.insideOfHolder nothing found holder)
    · exact .ignore _ (.inl nothing)
  · rename_i version rest backoff other answer
    obtain rfl : other = id := Option.some.inj own
    split
    · rename_i connection verdict
      cases answer with
      | error why => cases why <;> simp [Probe.judge] at verdict
      | ok reply =>
        obtain ⟨connection', speaks⟩ := reply
        simp only [Probe.judge] at verdict
        split at verdict
        · rename_i speaks
          cases verdict
          subst speaks
          exact install_move valid found connection
        · cases verdict
    · exact probe_move (valid.insideOfStage nothing found rfl) knows
        (.inr (.inl ⟨version, rest, found⟩)) rest
    · rename_i why verdict
      cases answer with
      | ok reply =>
        simp only [Probe.judge] at verdict
        split at verdict <;> cases verdict
      | error cause =>
        have : cause = why := by cases cause <;> simp_all [Probe.judge]
        subst this
        exact endPass_move valid found cause
  · exact probe_move (valid.insideOfStage nothing found rfl) knows (.inr (.inr found)) _
  · rename_i session other answer
    obtain rfl : other = id := Option.some.inj own
    split
    · exact .route (valid.insideOfStage rfl found rfl) knows found
    · exact abandon_move (valid.insideOfStage nothing found rfl) knows
  · rename_i session other answer
    split
    · refine leaveGate_move (valid.insideOfStage nothing found rfl) ?_
      rcases knows with none | cached
      · simp [isCurrent, none, Client.cached]
      · simp [isCurrent, cached, Client.cached]
    · exact abandon_move (valid.insideOfStage nothing found rfl) knows
  · exact leaveGate_move (valid.insideOfStage nothing found rfl) (cached_of_none knows)
  · exact .ignore _ (.inl nothing)

/-- A failed send is a move, whether or not its session is still the cached one. -/
theorem sendFailed_move {c : Client κ α} {id : CallId} {serial : Serial} {generation : Nat}
    (sending : c.call? id = some (.sending serial generation)) (why : Error) :
    Move c (.sent id (.error why)) (c.sendFailed id serial generation).1
      (c.sendFailed id serial generation).2 := by
  unfold sendFailed
  dsimp only
  split
  · rename_i current
    rw [teardown_of_current current]
    exact .unsent why sending current
  · rename_i superseded
    have superseded : c.isCurrent generation = false := Bool.eq_false_iff.2 superseded
    split
    · rename_i request found
      exact .stranded why sending superseded found
    · rename_i gone
      exact .resolved why sending superseded gone

/-- A call that goes on makes one of the moves, or none if the event is not the one it waits for. -/
theorem advance_move {c : Client κ α} (valid : c.Valid) {event : Event κ α} {id : CallId}
    (own : event.call? = some id) :
    Move c event (c.advance id event).1 (c.advance id event).2 := by
  unfold advance
  split
  · rename_i found
    exact connect_move valid own found
  · rename_i serial generation other answer sending
    obtain rfl : other = id := Option.some.inj own
    split
    · exact .sent sending
    · exact sendFailed_move sending _
  · exact .ignore _ (.inl (Event.handed_of_call? own))

/-- A cancellation is a move at any stage of the call. -/
theorem cancel_move {c : Client κ α} (valid : c.Valid) (id : CallId) :
    Move c (.cancel id) (c.cancel id).1 (c.cancel id).2 := by
  unfold cancel
  split
  · rename_i goal stage found
    split
    · split
      · rename_i holder
        exact .forsake (valid.insideOfHolder rfl found holder)
      · rename_i closed
        exact .withdraw found closed
    · exact .forsake (valid.insideOfStage rfl found rfl)
    · exact .forsake (valid.insideOfStage rfl found rfl)
    all_goals exact .ignore _ (.inl rfl)
  · rename_i serial generation sending
    exact .cancelSend sending
  · exact .ignore _ (.inl rfl)

theorem teardown_move (c : Client κ α) {event : Event κ α} (nothing : event.handed = [])
    (generation : Nat) :
    Move c event (c.teardown generation).1 (c.teardown generation).2 := by
  cases current : c.isCurrent generation with
  | true =>
    obtain ⟨session, cached, -⟩ := isCurrent_iff.1 current
    rw [teardown_of_current current]
    exact .lose nothing cached
  | false =>
    rw [teardown_of_not_current current]
    exact .ignore _ (.inl nothing)

/-- Every event is handled by a move. -/
theorem handle_move {c : Client κ α} (valid : c.Valid) (event : Event κ α) :
    Move c event (c.handle event).1 (c.handle event).2 := by
  cases event with
  | call id goal =>
    cases unused : c.call? id with
    | none => simpa [handle, unused] using begin_move valid goal unused
    | some call =>
      simpa [handle, unused] using
        Move.ignore (c := c) (.call id goal) (.inr ⟨id, goal, rfl, by simp [unused]⟩)
  | admitted id | found id _ | rested id | linked id _ | routed id _ | proceeded id | sent id _ =>
    exact advance_move valid rfl
  | cancel id => exact cancel_move valid id
  | died generation | invalidate generation => exact teardown_move c rfl generation
  | respond header payload =>
    change Move c _ (c.respond header payload).1 (c.respond header payload).2
    unfold respond
    split
    · exact .ignore _ (.inl rfl)
    · rename_i request found
      exact .answer found
  | register =>
    change Move c _ c.register.1 c.register.2
    unfold register
    split
    · exact .listen _ rfl _
    · exact .ignore _ (.inl rfl)
  | indicate _ | unregister | read _ | abandon _ => exact .listen _ rfl _
  | submit op completion attribution => exact .submit op completion attribution
  | take serial => exact .take serial
  | flush why => exact .flush why
  | setNextSerial serial => exact .startAt serial

end Client

end Baseband
