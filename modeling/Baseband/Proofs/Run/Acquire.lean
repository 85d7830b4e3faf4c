import Baseband.Proofs.Client.Returns
import Baseband.Proofs.Run.Basic

/-!
# What is acquired is what is cached

However calls, deaths and failures come in a run, a call that acquires a session returns the one
that is cached at that moment, and an error only if there is none. So the sessions that a run has
returned are in the order of their numbers, and once a session has ended it is not returned again.
-/

namespace Baseband.Run

open scoped List
open Command (collect acquired?)

variable {κ α : Type} {settings : Settings} {allowed : State κ α → Event κ α → Prop}
  {s : State κ α} {past : List (State κ α)}

/-- The client of a run is a fresh one after the events of the run. -/
theorem client_eq_after (run : Run settings allowed s past) :
    s.client = (Client.ofSettings settings).after s.events := by
  induction run with
  | start => rfl
  | step run step ih =>
    cases step with
    | raise event => rw [State.client_raise, State.events_raise, Client.after_cons, ← ih]
    | carryOut => exact ih

/-- The commands that the events of a run leave are those that have been carried out, and those
still to be. -/
theorem left_perm (run : Run settings allowed s past) :
    (Client.ofSettings settings).left s.events ~ s.agenda ++ s.done := by
  induction run with
  | start => exact .nil
  | step run step ih =>
    cases step with
    | raise event =>
      rw [State.events_raise, Client.left_cons, ← run.client_eq_after, State.agenda_raise,
        State.done_raise, List.append_assoc]
      exact (ih.append_right _).trans List.perm_append_comm
    | @carryOut command rest next =>
      rw [State.agenda_carryOut, State.done_carryOut, State.events_carryOut]
      rw [next] at ih
      exact ih.trans List.perm_middle.symm

def acquired (settings : Settings) (s : State κ α) : List (Session α) :=
  collect acquired? ((Client.ofSettings settings).left s.events)

/-- When an acquiring call returns, it returns a session if and only if that is the one cached, and
otherwise it returns that the service is unavailable and no session is cached. What other calls are
told, and over which connection they send, is as well that of the session cached then. The sessions
that a run has returned are in the order of their numbers. After a session has ended, only sessions
with greater numbers are returned. -/
theorem acquired_is_cached (run : Run settings allowed s past) :
    (∀ event id found, .finish id (.session found) ∈ (s.client.handle event).2 →
      (∀ session, found = .ok session ↔ (s.raise event).client.session = some session) ∧
      ∀ why, found = .error why ↔
        why = .unavailable ∧ (s.raise event).client.session = none) ∧
    (∀ event id answer, .finish id answer ∈ (s.client.handle event).2 →
      (∃ serial, answer = .request (.ok serial)) ∨
        ∃ goal, s.client.Asks event id goal ∧ (s.raise event).client.Tells goal answer) ∧
    (∀ event id connection serial op payload,
      .send id connection serial op payload ∈ (s.client.handle event).2 →
      ∃ session, (s.raise event).client.session = some session ∧
        session.connection = connection) ∧
    acquired settings s ~ s.issued acquired? ∧
    (acquired settings s).Pairwise (fun session later => session.generation ≤ later.generation) ∧
    ∀ later event earlier lost, s.events = later ++ event :: earlier →
      ((Client.ofSettings settings).after earlier).session = some lost →
      ((Client.ofSettings settings).after (event :: earlier)).session = none →
      ∃ since,
        acquired settings s =
          collect acquired? ((Client.ofSettings settings).left (event :: earlier)) ++ since ∧
        ∀ session ∈ since, lost.generation < session.generation := by
  have fresh : (Client.ofSettings settings : Client κ α).Valid := Client.valid_ofSettings settings
  refine ⟨fun event id found returned => ?_, fun event id answer returned => ?_,
    fun event id connection serial op payload sent => ?_, ?_,
    (fresh.acquired_ordered s.events).2, ?_⟩
  · obtain rfl := (Client.handle_move run.valid event).cached_of_returned returned
    exact ⟨fun _ => Client.cached_eq_ok, fun _ => Client.cached_eq_error⟩
  · exact (Client.handle_move run.valid event).tells returned
  · have listed := Command.mem_collect_send.2
      (show (⟨id, connection, serial, op, payload⟩ : Sending α).command ∈ _ from sent)
    exact (Client.handle_move run.valid event).table.over_cached listed
  · rw [State.issued, ← Command.collect_append]
    exact run.left_perm.filterMap _
  · intro later event earlier lost split cached ended
    have valid := fresh.after earlier
    have numbered := valid.numbered lost cached
    have grown := (Client.handle_move valid event).session.generation_le
    refine ⟨_, by rw [acquired, split, Client.left_append, Command.collect_append], ?_⟩
    intro session listed
    have anew := ((fresh.after (event :: earlier)).acquired_anew ended later).2.2 session listed
    rw [numbered]
    exact Nat.lt_of_le_of_lt grown anew

/-- A call that is about to return the first session. -/
theorem acquired_is_cached_of_first :
    ∃ (s : State Nat Nat) (past : List (State Nat Nat)) (session : Session Nat),
      Run { Settings.standard with candidates := [⟨1, 3⟩] } (fun _ _ => True) s past ∧
        .finish 0 (.session (.ok session)) ∈ (s.client.handle (.routed 0 (.ok ()))).2 ∧
        (s.raise (.routed 0 (.ok ()))).client.session = some session := by
  have run : Run (κ := Nat) (α := Nat) { Settings.standard with candidates := [⟨1, 3⟩] }
      (fun _ _ => True) _ _ :=
    start_of_candidates [⟨1, 3⟩] (by decide +kernel)
      |>.step (.raise (.call 0 .acquire) trivial fun _ => by decide)
      |>.step (.carryOut rfl)
      |>.step (.raise (.found 0 (.ok (3, ⟨1, 3⟩))) trivial fun _ => by decide)
      |>.step (.carryOut rfl)
      |>.step (.raise (.linked 0 (.ok ())) trivial fun _ => by decide)
      |>.step (.carryOut rfl)
  have returned := List.mem_singleton_self
    (.finish 0 (.session (.ok ⟨⟨1, 3⟩, 3, 1⟩)) : Command Nat Nat)
  exact ⟨_, _, _, run, returned,
    (((acquired_is_cached run).1 (.routed 0 (.ok ())) 0 _ returned).1 _).1 rfl⟩

end Baseband.Run
