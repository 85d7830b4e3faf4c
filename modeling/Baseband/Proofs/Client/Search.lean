import Baseband.Proofs.Client.Lookups
import Baseband.Proofs.Discovery.Rounds

/-!
# How a call looks for the service

A call that looks for the service asks for one lookup after another, and between passes for a rest.
Only events that are about it make it ask, and each of its steps is either the next lookup, or a
rest, or the end of its search, with which it goes on.
-/

namespace Baseband

variable {κ α : Type}

def Stage.isSeeking : Stage α → Bool
  | .probing .. | .resting _ => true
  | .queued | .linking _ | .routing _ | .abandoning => false

@[simp] def Command.seeks? (id : CallId) : Command κ α → Option (Version ⊕ Duration)
  | .discover other version => if other = id then some (.inl version) else none
  | .rest other delay => if other = id then some (.inr delay) else none
  | _ => none

namespace Client

open Command (collect seeks?)

variable {c : Client κ α} {id : CallId}

/-! ## Who looks for the service -/

theorem seeks_conclude (c : Client κ α) (other : CallId) (goal : Goal κ)
    (found : Except Error (Session α)) : collect (seeks? id) (c.conclude other goal found).2 = [] := by
  unfold conclude
  split
  · rfl
  · rfl
  · split
    · rfl
    · dsimp only
      split <;> rfl

theorem seeks_leaveGate (c : Client κ α) (other : CallId) (goal : Goal κ)
    (found : Except Error (Session α)) :
    collect (seeks? id) (c.leaveGate other goal found).2 = [] := by
  simp [leaveGate, seeks_conclude]

theorem seeks_forsake (c : Client κ α) (other : CallId) (goal : Goal κ) :
    collect (seeks? id) (c.forsake other goal).2 = [] := by
  simp [forsake]

theorem seeks_breakOff (c : Client κ α) (other : CallId) (goal : Goal κ) (why : Unrepresentable) :
    collect (seeks? id) (c.breakOff other goal why).2 = [] := by
  simp [breakOff, seeks_forsake]

theorem seeks_teardown (c : Client κ α) (generation : Nat) :
    collect (seeks? id) (c.teardown generation).2 = [] := by
  unfold teardown
  split <;> simp

theorem seeks_abandon (c : Client κ α) (other : CallId) (goal : Goal κ) (session : Session α) :
    collect (seeks? id) (c.abandon other goal session).2 = [] := by
  simp [abandon, seeks_teardown]

theorem seeks_sendFailed (c : Client κ α) (other : CallId) (serial : Serial) (generation : Nat) :
    collect (seeks? id) (c.sendFailed other serial generation).2 = [] := by
  unfold sendFailed
  dsimp only
  split
  · simp [seeks_teardown]
  · split <;> rfl

theorem seeks_cancel (c : Client κ α) (other : CallId) :
    collect (seeks? id) (c.cancel other).2 = [] := by
  unfold cancel
  split
  · split
    · split
      · exact seeks_forsake c other _
      · simp
    · exact seeks_forsake c other _
    · exact seeks_forsake c other _
    all_goals rfl
  · rfl
  · rfl

section Others

variable {other : CallId} (differ : other ≠ id)
include differ

theorem seeks_endPass_of_ne (c : Client κ α) (goal : Goal κ) (backoff : Option Backoff)
    (why : Error) : collect (seeks? id) (c.endPass other goal backoff why).2 = [] := by
  unfold endPass
  split
  · exact seeks_leaveGate c other goal _
  · simp [differ]
  · exact seeks_breakOff c other goal _

theorem seeks_probe_of_ne (c : Client κ α) (goal : Goal κ) (backoff : Option Backoff)
    (versions : List Version) : collect (seeks? id) (c.probe other goal backoff versions).2 = [] := by
  cases versions with
  | nil => exact seeks_endPass_of_ne differ c goal backoff _
  | cons version rest => simp [probe, differ]

theorem seeks_search_of_ne (c : Client κ α) (goal : Goal κ) :
    collect (seeks? id) (c.search other goal).2 = [] := by
  unfold search
  split
  · exact seeks_leaveGate c other goal _
  · exact seeks_probe_of_ne differ c goal _ _

theorem seeks_begin_of_ne (c : Client κ α) (goal : Goal κ) :
    collect (seeks? id) (c.begin other goal).2 = [] := by
  unfold begin
  split
  · exact seeks_conclude c other goal _
  · split
    · exact seeks_conclude c other goal _
    · dsimp only
      split
      · exact seeks_search_of_ne differ _ goal
      · rfl

theorem seeks_connect_of_ne (c : Client κ α) (goal : Goal κ) (stage : Stage α)
    (event : Event κ α) : collect (seeks? id) (c.connect other goal stage event).2 = [] := by
  unfold connect
  split
  · split
    · exact seeks_search_of_ne differ c goal
    · rfl
  · split
    · rfl
    · exact seeks_probe_of_ne differ c goal _ _
    · exact seeks_endPass_of_ne differ c goal _ _
  · exact seeks_probe_of_ne differ c goal _ _
  · split
    · rfl
    · exact seeks_abandon c other goal _
  · split
    · exact seeks_leaveGate c other goal _
    · exact seeks_abandon c other goal _
  · exact seeks_leaveGate c other goal _
  · rfl

/-- Whatever a call does when it goes on, it asks for nothing on behalf of another. -/
theorem seeks_advance_of_ne (c : Client κ α) (event : Event κ α) :
    collect (seeks? id) (c.advance other event).2 = [] := by
  unfold advance
  split
  · exact seeks_connect_of_ne differ c _ _ _
  · split
    · rfl
    · exact seeks_sendFailed c other _ _
  · rfl

end Others

/-- An event asks for no lookup and no rest but for the call that it is about. -/
theorem seeks_handle_of_ne (c : Client κ α) {event : Event κ α} (foreign : event.about? ≠ some id) :
    collect (seeks? id) (c.handle event).2 = [] := by
  have differ {other : CallId} (about : event.about? = some other) : other ≠ id :=
    fun same => foreign (same ▸ about)
  cases event with
  | call other goal =>
    rw [handle]
    split
    · rfl
    · exact seeks_begin_of_ne (differ rfl) c goal
  | admitted other | found other _ | rested other | linked other _ | routed other _
  | proceeded other | sent other _ => exact seeks_advance_of_ne (differ rfl) c _
  | cancel other => exact seeks_cancel c other
  | died generation | invalidate generation => exact seeks_teardown c generation
  | respond header payload =>
    change collect _ (c.respond header payload).2 = []
    unfold respond
    split <;> rfl
  | register =>
    change collect _ c.register.2 = []
    unfold register
    split <;> rfl
  | flush => simp [handle]
  | indicate | unregister | read | abandon | submit | take | setNextSerial => rfl

/-! ## What a call has been before -/

section Before

variable (c : Client κ α) (id : CallId) (before : Call κ α)

theorem dropCall_putCall_self : (c.putCall id before).dropCall id = c.dropCall id := by
  simp [putCall, dropCall, List.filter_append]

theorem putCall_putCall (call : Call κ α) :
    (c.putCall id before).putCall id call = c.putCall id call := by
  rw [putCall, dropCall_putCall_self]
  rfl

theorem leaveGate_putCall (goal : Goal κ) (found : Except Error (Session α)) :
    (c.putCall id before).leaveGate id goal found = c.leaveGate id goal found := by
  have dropped : { c.putCall id before with gate := c.gate.leave }.dropCall id = _ :=
    dropCall_putCall_self { c with gate := c.gate.leave } id before
  simp only [leaveGate, putCall_gate, dropped]

theorem breakOff_putCall (goal : Goal κ) (why : Unrepresentable) :
    (c.putCall id before).breakOff id goal why = c.breakOff id goal why := by
  have dropped : { c.putCall id before with gate := c.gate.leave }.dropCall id = _ :=
    dropCall_putCall_self { c with gate := c.gate.leave } id before
  simp only [breakOff, forsake, putCall_gate, dropped]

theorem endPass_putCall (goal : Goal κ) (backoff : Option Backoff) (why : Error) :
    (c.putCall id before).endPass id goal backoff why = c.endPass id goal backoff why := by
  have same : (c.putCall id before).growth = c.growth := rfl
  simp only [endPass, same, leaveGate_putCall, putCall_putCall, breakOff_putCall]

theorem probe_putCall (goal : Goal κ) (backoff : Option Backoff) (versions : List Version) :
    (c.putCall id before).probe id goal backoff versions = c.probe id goal backoff versions := by
  cases versions with
  | nil => exact endPass_putCall c id before goal backoff .unavailable
  | cons version rest => simp only [probe, putCall_putCall]

theorem install_putCall (goal : Goal κ) (version : Version) (connection : α) :
    (c.putCall id before).install id goal version connection =
      c.install id goal version connection := by
  let session : Session α := ⟨version, connection, c.generation + 1⟩
  exact Prod.ext (putCall_putCall { c with generation := c.generation + 1, session := some session }
    id before (.connecting goal (.linking session))) rfl

end Before

/-! ## One step of a search -/

section Steps

variable {goal : Goal κ} {version : Version} {rest : List Version} {backoff : Option Backoff}

/-- With the event, the call starts a pass over the candidates, and has these delays before it: it
begins or is let in while there is no session, or it has rested. -/
inductive Starts (c : Client κ α) (id : CallId) (goal : Goal κ) :
    Event κ α → Option Backoff → Prop
  | called (supported : c.supported = true) (noSession : c.session = none)
      (unused : c.call? id = none) (free : c.gate.holder = none) :
      Starts c id goal (.call id goal) c.freshBackoff
  | admitted (noSession : c.session = none)
      (queued : c.call? id = some (.connecting goal .queued)) (holder : c.gate.holder = some id) :
      Starts c id goal (.admitted id) c.freshBackoff
  | rested {backoff : Option Backoff}
      (resting : c.call? id = some (.connecting goal (.resting backoff))) :
      Starts c id goal (.rested id) backoff

/-- A call that finds the gate free and no session looks all candidates up. -/
theorem handle_call_of_free (supported : c.supported = true) (noSession : c.session = none)
    (unused : c.call? id = none) (free : c.gate.holder = none) (goal : Goal κ) :
    c.handle (.call id goal) =
      { c with gate := c.gate.enter id }.probe id goal c.freshBackoff c.candidates := by
  have entered : (c.gate.enter id).holder = some id := by simp [Gate.enter, free]
  simp only [handle, unused, Option.isSome_none, Bool.false_eq_true, if_false, begin, supported,
    Bool.not_true, noSession, entered, if_true, search]
  rfl

/-- A call that has begun at an empty gate leaves it as it was. -/
theorem leaveGate_of_entered (empty : c.gate = .empty) (unused : c.call? id = none)
    (found : Except Error (Session α)) :
    { c with gate := c.gate.enter id }.leaveGate id .acquire found =
      (c, [.finish id (.session found)]) := by
  have left : (c.gate.enter id).leave = c.gate := by
    rw [empty]
    rfl
  have dropped : c.dropCall id = c :=
    congrArg (fun calls => { c with calls }) (dropCall_calls_of_unused unused)
  simp only [leaveGate, conclude, left]
  exact Prod.ext dropped (by rw [empty]; rfl)

theorem handle_rested (resting : c.call? id = some (.connecting goal (.resting backoff))) :
    c.handle (.rested id) = c.probe id goal backoff c.candidates := by
  simp only [handle, advance, resting, connect]

/-- However a pass starts, it looks all candidates up, apart from who is at the gate. -/
theorem Starts.handle_eq {event : Event κ α} (starts : c.Starts id goal event backoff) :
    ∃ gate, c.handle event = { c with gate }.probe id goal backoff c.candidates := by
  cases starts with
  | called supported noSession unused free =>
    exact ⟨_, handle_call_of_free supported noSession unused free goal⟩
  | admitted noSession queued holder =>
    refine ⟨c.gate, ?_⟩
    change _ = c.probe id goal c.freshBackoff c.candidates
    simp only [handle, advance, queued, connect, holder, if_true, search, noSession]
  | rested resting => exact ⟨c.gate, handle_rested resting⟩

section Found

variable {answer : Lookup α}
  (probing : c.call? id = some (.connecting goal (.probing version rest backoff)))
include probing

theorem handle_found_of_found {connection : α}
    (verdict : Probe.judge version answer = .found connection) :
    c.handle (.found id answer) = c.install id goal version connection := by
  simp only [handle, advance, probing, connect, verdict]

theorem handle_found_of_next (verdict : Probe.judge version answer = .next) :
    c.handle (.found id answer) = c.probe id goal backoff rest := by
  simp only [handle, advance, probing, connect, verdict]

/-- An interruption ends the pass, whatever candidates are left. -/
theorem handle_found_of_stop {why : Error} (verdict : Probe.judge version answer = .stop why) :
    c.handle (.found id answer) = c.endPass id goal backoff why := by
  simp only [handle, advance, probing, connect, verdict]

end Found

/-- The end of a rest is ignored unless the call rests. -/
theorem handle_rested_of_ne (awake : ∀ goal backoff,
    c.call? id ≠ some (.connecting goal (.resting backoff))) : c.handle (.rested id) = (c, []) := by
  simp only [handle, advance]
  split
  · rename_i goal stage found
    cases stage with
    | resting backoff => exact absurd found (awake goal backoff)
    | _ => rfl
  · rename_i same
    cases same
  · rfl

def settle (c : Client κ α) (id : CallId) (goal : Goal κ) :
    Except Unrepresentable (Except Error (Version × α)) → Effect κ α
  | .ok (.ok (version, connection)) => c.install id goal version connection
  | .ok (.error _) => c.leaveGate id goal (.error .unavailable)
  | .error why => c.breakOff id goal why

theorem seeks_settle (c : Client κ α) (id : CallId) (goal : Goal κ)
    (ending : Except Unrepresentable (Except Error (Version × α))) :
    collect (seeks? id) (c.settle id goal ending).2 = [] := by
  unfold settle
  split
  · rfl
  · exact seeks_leaveGate c id goal _
  · exact seeks_breakOff c id goal _

def Seeks (c : Client κ α) (id : CallId) : Prop :=
  ∃ goal stage, c.call? id = some (.connecting goal stage) ∧ stage.isSeeking = true

/-- With the outcome, the search is over. -/
theorem not_seeks_settle (c : Client κ α) (id : CallId) (goal : Goal κ)
    (ending : Except Unrepresentable (Except Error (Version × α))) :
    ¬(c.settle id goal ending).1.Seeks id := by
  rintro ⟨goal', stage, found, seeking⟩
  unfold settle at found
  split at found
  · cases (call?_putCall _ id _).symm.trans found
    cases seeking
  · have gone : (c.leaveGate id goal (.error .unavailable)).1.call? id = none := by
      cases goal <;> exact call?_dropCall { c with gate := c.gate.leave } id
    cases gone.symm.trans found
  · cases (call?_dropCall { c with gate := c.gate.leave } id).symm.trans found

section EndPass

variable {why : Error}

/-- Without another delay the search settles on the outcome of the pass. -/
theorem endPass_of_over (ends : Backoff.afterPass c.growth backoff why = .over) :
    c.endPass id goal backoff why = c.settle id goal (.ok (.error why)) := by
  simp only [endPass, ends, settle]

/-- With another delay the call rests, and keeps the later delays before it. -/
theorem endPass_of_again {delay : Duration} {later : Backoff}
    (again : Backoff.afterPass c.growth backoff why = .again delay later) :
    c.endPass id goal backoff why =
      (c.putCall id (.connecting goal (.resting (some later))), [.rest id delay]) := by
  simp only [endPass, again]

/-- A delay that cannot be computed breaks the search off. -/
theorem endPass_of_failed {failure : Unrepresentable}
    (failed : Backoff.afterPass c.growth backoff why = .failed failure) :
    c.endPass id goal backoff why = c.settle id goal (.error failure) := by
  simp only [endPass, failed, settle]

end EndPass

end Steps

end Client

end Baseband
