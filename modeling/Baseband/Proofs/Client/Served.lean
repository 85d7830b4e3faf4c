import Baseband.Proofs.Client.Search

/-!
# The course of a search

Whoever answers the lookups of a call, and whatever happens meanwhile, what the call asks for is what
the rounds of passes and delays say, in the same order, and with their outcome it goes on. The events
that can come between are no matter of the search: a call looks for the service only while there is
no session, and nobody else installs one.
-/

namespace Baseband

variable {κ α σ : Type}

namespace Client

open Command (collect seeks?)
open Probe (Provider Rounds follow rounds)

variable {c : Client κ α} {id : CallId} {goal : Goal κ} {start event : Event κ α}
  {events earlier : List (Event κ α)} {p : Provider σ α} {first state : σ}
  {backoff : Option Backoff} {whole : Rounds σ α}

/-! ## Answers and rests -/

/-- The lookups of a call are answered by the provider in the course of events. The call has started
a pass with the first event; since then, only answers and rests have moved it on. The events are
listed with the latest first. -/
inductive Served (p : Provider σ α) (c : Client κ α) (id : CallId) (start : Event κ α) (first : σ) :
    List (Event κ α) → σ → Prop
  | start : Served p c id start first [start] first
  | found {earlier : List (Event κ α)} {state : σ} {goal : Goal κ} {version : Version}
      {rest : List Version} {backoff : Option Backoff}
      (served : Served p c id start first earlier state)
      (asked : (c.after earlier).call? id =
        some (.connecting goal (.probing version rest backoff))) :
      Served p c id start first (.found id (p state version).1 :: earlier) (p state version).2
  | rested {earlier : List (Event κ α)} {state : σ}
      (served : Served p c id start first earlier state) :
      Served p c id start first (.rested id :: earlier) state
  | other {earlier : List (Event κ α)} {state : σ} {event : Event κ α}
      (served : Served p c id start first earlier state) (foreign : event.about? ≠ some id) :
      Served p c id start first (event :: earlier) state

def sought (c : Client κ α) (id : CallId) (events : List (Event κ α)) :
    List (Version ⊕ Duration) :=
  collect (seeks? id) (c.left events)

def pass (c : Client κ α) (p : Provider σ α) (state : σ) : Probe.Pass σ α :=
  Probe.pass p state c.candidates

/-- With one of the events, the search is over and the call goes on with this outcome. -/
def Settles (c : Client κ α) (id : CallId) (goal : Goal κ) (events : List (Event κ α))
    (ending : Except Unrepresentable (Except Error (Version × α))) : Prop :=
  ∃ later last earlier gate, events = later ++ last :: earlier ∧
    (c.after earlier).handle last = { c.after earlier with gate }.settle id goal ending

theorem sought_cons (c : Client κ α) (id : CallId) (event : Event κ α)
    (earlier : List (Event κ α)) :
    c.sought id (event :: earlier) =
      c.sought id earlier ++ collect (seeks? id) ((c.after earlier).handle event).2 := by
  rw [sought, left_cons, Command.collect_append, sought]

theorem Settles.later {ending : Except Unrepresentable (Except Error (Version × α))}
    (settles : c.Settles id goal earlier ending) : c.Settles id goal (event :: earlier) ending := by
  obtain ⟨later, last, before, gate, split, same⟩ := settles
  exact ⟨event :: later, last, before, gate, congrArg (event :: ·) split, same⟩

/-- No move changes the retry policy. -/
theorem Move.retry {c c' : Client κ α} {commands : List (Command κ α)}
    (move : Move c event c' commands) : c'.retry = c.retry := by
  cases move with
  | conclude _ conclusion => cases conclusion <;> rfl
  | leave _ conclusion => cases conclusion <;> rfl
  | _ => rfl

/-- The candidates and the growth of delays are those that the client was made with. -/
theorem Valid.after_settings (valid : c.Valid) (events : List (Event κ α)) :
    (c.after events).candidates = c.candidates ∧ (c.after events).growth = c.growth := by
  induction events with
  | nil => exact ⟨rfl, rfl⟩
  | cons event earlier ih =>
    have move := handle_move (valid.after earlier) event
    refine ⟨move.candidates.trans ih.1, ?_⟩
    rw [← ih.2, growth, growth, after_cons, move.retry]

/-! ## Where a search stands -/

/-- Where a search stands after events, if these are the rounds of passes and delays that it makes.
What it has asked for is the first part of them; what is left depends on the stage of the call and on
the provider. -/
inductive Stands (p : Provider σ α) (c : Client κ α) (id : CallId) (goal : Goal κ)
    (whole : Rounds σ α) (events : List (Event κ α)) (state : σ) : Prop
  | looks {version : Version} {rest : List Version} {backoff : Option Backoff}
      {asked : List (Version ⊕ Duration)}
      (call : (c.after events).call? id = some (.connecting goal (.probing version rest backoff)))
      (sought : c.sought id events = asked ++ [.inl version])
      (ahead : whole.Ahead asked
        (follow c.growth (c.pass p) backoff (Probe.pass p state (version :: rest))))
  | rests {backoff : Option Backoff}
      (call : (c.after events).call? id = some (.connecting goal (.resting backoff)))
      (ahead : whole.Ahead (c.sought id events) (rounds c.growth (c.pass p) backoff state))
  | ended (still : ¬(c.after events).Seeks id) (sought : c.sought id events = whole.acts)
      (same : state = whole.provider) (settles : c.Settles id goal events whole.ending)

section Step

/-- An event that settles the search with the ending of the rounds ends them there. -/
theorem stands_of_settle (gate : Gate)
    (handled : (c.after earlier).handle event =
      { c.after earlier with gate }.settle id goal whole.ending)
    (sought : c.sought id earlier = whole.acts) (same : state = whole.provider) :
    Stands p c id goal whole (event :: earlier) state := by
  refine .ended ?_ ?_ same ⟨[], event, earlier, gate, rfl, handled⟩
  · rw [after_cons, handled]
    exact not_seeks_settle _ id goal _
  · rw [sought_cons, handled, seeks_settle, List.append_nil, sought]

/-- A pass comes to an end without a connection. -/
theorem Valid.stands_of_endPass (valid : c.Valid) (gate : Gate) {made : Probe.Pass σ α} {why : Error}
    {asked : List (Version ⊕ Duration)}
    (handled : (c.after earlier).handle event =
      { c.after earlier with gate }.endPass id goal backoff why)
    (outcome : made.outcome = .error why) (sought : c.sought id earlier = asked ++ made.acts)
    (ahead : whole.Ahead asked (follow c.growth (c.pass p) backoff made)) :
    Stands p c id goal whole (event :: earlier) made.provider := by
  have growth : { c.after earlier with gate }.growth = c.growth := (valid.after_settings earlier).2
  rcases demands : Backoff.afterPass c.growth backoff why with _ | ⟨delay, later⟩ | failure
  · rw [Probe.follow_of_over outcome demands] at ahead
    have ending : whole.ending = .ok (.error why) := by rw [ahead.ending, Rounds.ending, outcome]
    rw [endPass_of_over (by rw [growth, demands]), ← ending] at handled
    exact stands_of_settle gate handled (sought.trans ahead.acts.symm) ahead.provider.symm
  · rw [Probe.follow_of_again outcome demands] at ahead
    rw [endPass_of_again (by rw [growth, demands])] at handled
    refine .rests (by rw [after_cons, handled]; exact call?_putCall _ _ _) ?_
    have next : (Rounds.again made delay (rounds c.growth (c.pass p) (some later) made.provider)).Ahead
        (made.acts ++ [.inr delay]) (rounds c.growth (c.pass p) (some later) made.provider) :=
      ⟨by simp [Rounds.acts], rfl, rfl⟩
    rw [sought_cons, handled, sought]
    simpa using ahead.trans next
  · rw [Probe.follow_of_failed outcome demands] at ahead
    have ending : whole.ending = .error failure := ahead.ending
    rw [endPass_of_failed (by rw [growth, demands]), ← ending] at handled
    exact stands_of_settle gate handled (sought.trans ahead.acts.symm) ahead.provider.symm

/-- A pass goes on with these versions, or comes to an end if there are none. -/
theorem Valid.stands_of_probe (valid : c.Valid) (gate : Gate) {versions : List Version}
    (handled : (c.after earlier).handle event =
      { c.after earlier with gate }.probe id goal backoff versions)
    (ahead : whole.Ahead (c.sought id earlier)
      (follow c.growth (c.pass p) backoff (Probe.pass p state versions))) :
    Stands p c id goal whole (event :: earlier) state := by
  cases versions with
  | nil => exact valid.stands_of_endPass gate handled rfl (List.append_nil _).symm ahead
  | cons version rest =>
    refine .looks (by rw [after_cons, handled]; exact call?_putCall _ _ _) ?_ ahead
    rw [sought_cons, handled]
    simp [probe]

/-- An event that neither moves the call on nor makes it ask for anything. -/
theorem Stands.other (stands : Stands p c id goal whole earlier state)
    (same : ((c.after earlier).handle event).1.call? id = (c.after earlier).call? id)
    (nothing : collect (seeks? id) ((c.after earlier).handle event).2 = []) :
    Stands p c id goal whole (event :: earlier) state := by
  have kept : c.sought id (event :: earlier) = c.sought id earlier := by
    rw [sought_cons, nothing, List.append_nil]
  cases stands with
  | looks call sought ahead => exact .looks (same.trans call) (kept.trans sought) ahead
  | rests call ahead => exact .rests (same.trans call) (kept ▸ ahead)
  | ended still sought now settles =>
    refine .ended ?_ (kept.trans sought) now settles.later
    rwa [Seeks, after_cons, same]

/-- A rest is over, if the call rests. -/
theorem Valid.stands_of_rested (valid : c.Valid)
    (stands : Stands p c id goal whole earlier state) :
    Stands p c id goal whole (.rested id :: earlier) state := by
  have ignored (awake : ∀ goal backoff,
      (c.after earlier).call? id ≠ some (.connecting goal (.resting backoff))) :
      Stands p c id goal whole (.rested id :: earlier) state := by
    have same := handle_rested_of_ne awake
    exact stands.other (by rw [same]) (by rw [same]; rfl)
  cases stands with
  | looks call =>
    refine ignored fun goal' backoff resting => ?_
    cases call.symm.trans resting
  | rests call ahead =>
    obtain ⟨gate, handled⟩ := (Starts.rested call).handle_eq
    refine valid.stands_of_probe gate handled ?_
    rw [(valid.after_settings earlier).1]
    exact ahead
  | ended still => exact ignored fun goal' backoff resting => still ⟨_, _, resting, rfl⟩

/-- The lookup is answered that the call waits for. -/
theorem Valid.stands_of_found (valid : c.Valid) {version : Version} {rest : List Version}
    {asked : List (Version ⊕ Duration)}
    (call : (c.after earlier).call? id = some (.connecting goal (.probing version rest backoff)))
    (sought : c.sought id earlier = asked ++ [.inl version])
    (ahead : whole.Ahead asked
      (follow c.growth (c.pass p) backoff (Probe.pass p state (version :: rest)))) :
    Stands p c id goal whole (.found id (p state version).1 :: earlier) (p state version).2 := by
  cases verdict : Probe.judge version (p state version).1 with
  | found connection =>
    rw [Probe.pass_of_found verdict, Probe.follow_of_ok rfl] at ahead
    have ending : whole.ending = .ok (.ok (version, connection)) := ahead.ending
    refine stands_of_settle (c.after earlier).gate ?_ (sought.trans ahead.acts.symm)
      ahead.provider.symm
    rw [ending]
    exact handle_found_of_found call verdict
  | next =>
    rw [Probe.pass_of_next verdict] at ahead
    refine valid.stands_of_probe (c.after earlier).gate (handle_found_of_next call verdict) ?_
    rw [sought]
    exact ahead.trans (Probe.ahead_of_after version _)
  | stop why =>
    rw [Probe.pass_of_stop verdict] at ahead
    exact valid.stands_of_endPass (c.after earlier).gate (handle_found_of_stop call verdict) rfl
      sought ahead

end Step

/-- A search stands where the rounds say that it does, as long as its lookups are answered by the
provider. -/
theorem Valid.stands (valid : c.Valid) (starts : c.Starts id goal start backoff)
    (served : Served p c id start first events state) :
    Stands p c id goal (rounds c.growth (c.pass p) backoff first) events state := by
  induction served with
  | start =>
    obtain ⟨gate, handled⟩ := starts.handle_eq
    exact valid.stands_of_probe gate handled ⟨rfl, rfl, rfl⟩
  | @found earlier state _ _ _ _ served asked ih =>
    cases ih with
    | looks call sought ahead =>
      cases call.symm.trans asked
      exact valid.stands_of_found call sought ahead
    | rests call => cases call.symm.trans asked
    | ended still => exact absurd ⟨_, _, asked, rfl⟩ still
  | rested served ih => exact valid.stands_of_rested ih
  | other served foreign ih =>
    exact ih.other (call?_handle_of_ne _ foreign) (seeks_handle_of_ne _ foreign)

/-! ## Where a pass stands -/

def closePass (c : Client κ α) (id : CallId) (goal : Goal κ) (backoff : Option Backoff) :
    Except Error (Version × α) → Effect κ α
  | .ok (version, connection) => c.install id goal version connection
  | .error why => c.endPass id goal backoff why

/-- With one of the events, the pass is over after just its lookups, and the call goes on with its
outcome. -/
def Closes (c : Client κ α) (id : CallId) (goal : Goal κ) (backoff : Option Backoff)
    (made : Probe.Pass σ α) (events : List (Event κ α)) : Prop :=
  ∃ later last earlier gate, events = later ++ last :: earlier ∧ c.sought id earlier = made.acts ∧
    (c.after earlier).handle last =
      { c.after earlier with gate }.closePass id goal backoff made.outcome

/-- Where a pass stands after events: it still goes on, and has looked up the first part of what it
looks up, or it is over. -/
inductive Passing (p : Provider σ α) (c : Client κ α) (id : CallId) (goal : Goal κ)
    (backoff : Option Backoff) (made : Probe.Pass σ α) (events : List (Event κ α)) (state : σ) :
    Prop
  | looks {version : Version} {rest : List Version} {asked : List (Version ⊕ Duration)}
      (call : (c.after events).call? id = some (.connecting goal (.probing version rest backoff)))
      (sought : c.sought id events = asked ++ [.inl version])
      (acts : made.acts = asked ++ (Probe.pass p state (version :: rest)).acts)
      (outcome : made.outcome = (Probe.pass p state (version :: rest)).outcome)
  | ended (closes : c.Closes id goal backoff made events)

section Pass

variable {made : Probe.Pass σ α}

theorem Closes.now (gate : Gate) (sought : c.sought id earlier = made.acts)
    (handled : (c.after earlier).handle event =
      { c.after earlier with gate }.closePass id goal backoff made.outcome) :
    c.Closes id goal backoff made (event :: earlier) :=
  ⟨[], event, earlier, gate, rfl, sought, handled⟩

theorem Closes.later (closes : c.Closes id goal backoff made earlier) (event : Event κ α) :
    c.Closes id goal backoff made (event :: earlier) := by
  obtain ⟨later, last, before, gate, split, sought, handled⟩ := closes
  exact ⟨event :: later, last, before, gate, congrArg (event :: ·) split, sought, handled⟩

/-- An event that neither touches the call nor asks for anything leaves the pass where it is. -/
theorem Passing.other (passing : Passing p c id goal backoff made earlier state)
    (same : ((c.after earlier).handle event).1.call? id = (c.after earlier).call? id)
    (nothing : collect (seeks? id) ((c.after earlier).handle event).2 = []) :
    Passing p c id goal backoff made (event :: earlier) state := by
  cases passing with
  | looks call sought acts outcome =>
    refine .looks (same.trans call) ?_ acts outcome
    rw [sought_cons, nothing, List.append_nil, sought]
  | ended closes => exact .ended (closes.later event)

/-- A call that looks versions up is where a pass over these versions begins. -/
theorem passing_of_probe (gate : Gate) {versions : List Version}
    (handled : (c.after earlier).handle event =
      { c.after earlier with gate }.probe id goal backoff versions)
    (acts : made.acts = c.sought id earlier ++ (Probe.pass p state versions).acts)
    (outcome : made.outcome = (Probe.pass p state versions).outcome) :
    Passing p c id goal backoff made (event :: earlier) state := by
  cases versions with
  | nil =>
    refine .ended (.now gate (acts.trans (List.append_nil _)).symm ?_)
    rw [outcome]
    exact handled
  | cons version rest =>
    refine .looks (by rw [after_cons, handled]; exact call?_putCall _ _ _) ?_ acts outcome
    rw [sought_cons, handled]
    simp [probe]

/-- The lookup is answered that the pass waits for. -/
theorem Passing.found (passing : Passing p c id goal backoff made earlier state) {goal' : Goal κ}
    {version : Version} {rest : List Version} {backoff' : Option Backoff}
    (asked : (c.after earlier).call? id =
      some (.connecting goal' (.probing version rest backoff'))) :
    Passing p c id goal backoff made (.found id (p state version).1 :: earlier)
      (p state version).2 := by
  cases passing with
  | ended closes => exact .ended (closes.later _)
  | looks call sought acts outcome =>
    cases call.symm.trans asked
    cases verdict : Probe.judge version (p state version).1 with
    | found connection =>
      rw [Probe.pass_of_found verdict] at acts outcome
      refine .ended (.now (c.after earlier).gate (sought.trans acts.symm) ?_)
      rw [outcome]
      exact handle_found_of_found asked verdict
    | next =>
      rw [Probe.pass_of_next verdict] at acts outcome
      refine passing_of_probe (c.after earlier).gate (handle_found_of_next asked verdict) ?_ outcome
      rw [sought, acts]
      simp [Probe.Pass.acts, Probe.Pass.after]
    | stop why =>
      rw [Probe.pass_of_stop verdict] at acts outcome
      refine .ended (.now (c.after earlier).gate (sought.trans acts.symm) ?_)
      rw [outcome]
      exact handle_found_of_stop asked verdict

end Pass

/-- A pass stands where its lookups say that it does, as long as they are answered by the
provider. -/
theorem Starts.passing (starts : c.Starts id goal start backoff)
    (served : Served p c id start first events state) :
    Passing p c id goal backoff (c.pass p first) events state := by
  induction served with
  | start =>
    obtain ⟨gate, handled⟩ := starts.handle_eq
    exact passing_of_probe gate handled rfl rfl
  | found served asked ih => exact ih.found asked
  | @rested earlier state served ih =>
    cases ih with
    | looks call sought acts outcome =>
      have same : (c.after earlier).handle (.rested id) = (c.after earlier, []) :=
        handle_rested_of_ne fun goal' backoff resting => by cases call.symm.trans resting
      exact (Passing.looks call sought acts outcome).other (by rw [same]) (by rw [same]; rfl)
    | ended closes => exact .ended (closes.later _)
  | other served foreign ih =>
    exact ih.other (call?_handle_of_ne _ foreign) (seeks_handle_of_ne _ foreign)

end Client

end Baseband
