import Baseband.Bench.Perform
import Baseband.Proofs.Run.Nesting
import Baseband.Proofs.Run.Routing
import Baseband.Proofs.Run.Sessions

/-!
# A session ends once, and as a whole

A session is given up by its number, when its connection dies or a send over it has failed. If it is
not the cached one, nothing happens. If it is, then the session and all requests are gone before the
first completion runs, so that completions find a client that may connect anew.
-/

namespace Baseband

open Run (State)

variable {κ α : Type}

inductive Event.GivesUp (generation : Nat) : Event κ α → Prop
  | died : GivesUp generation (.died generation)
  | invalidate : GivesUp generation (.invalidate generation)

namespace Client

variable {c c' : Client κ α} {event : Event κ α} {generation : Nat}

theorem handle_of_givesUp (c : Client κ α) (gives : event.GivesUp generation) :
    c.handle event = c.teardown generation := by
  cases gives <;> rfl

/-- A session that is not cached, and is not yet to come, does not come back. -/
theorem SessionChange.superseded {links : List (α × Nat)} (change : SessionChange c c' links)
    (superseded : c.isCurrent generation = false) (known : generation ≤ c.generation) :
    c'.isCurrent generation = false := by
  cases change with
  | kept session =>
    rw [isCurrent, session]
    exact superseded
  | installed session _ cached next =>
    rw [isCurrent, cached]
    exact decide_eq_false (by omega)
  | ended _ none => rw [isCurrent, none]

/-- A number that has been superseded never becomes current again. -/
theorem Valid.superseded_after (valid : c.Valid) (superseded : c.isCurrent generation = false)
    (known : generation ≤ c.generation) (later : List (Event κ α)) :
    (c.after later).isCurrent generation = false ∧ generation ≤ (c.after later).generation := by
  induction later with
  | nil => exact ⟨superseded, known⟩
  | cons event earlier ih =>
    have change := (handle_move (valid.after earlier) event).session
    exact ⟨change.superseded ih.1 ih.2, ih.2.trans change.generation_le⟩

/-- Once the cached session has been given up, it does not come back. -/
theorem Valid.superseded_of_lost (valid : c.Valid) (current : c.isCurrent generation = true)
    (later : List (Event κ α)) : (c.lost.after later).isCurrent generation = false := by
  obtain ⟨session, cached, rfl⟩ := isCurrent_iff.1 current
  have known : session.generation ≤ c.lost.generation := (valid.numbered session cached).le
  exact (valid.lose.superseded_after rfl known later).1

end Client

namespace Run

open scoped List

variable {settings : Settings} {allowed : State κ α → Event κ α → Prop} {s : State κ α}
  {past : List (State κ α)} {event : Event κ α} {generation : Nat}

/-! ## Sessions that have ended -/

def ended (s : State κ α) : List (State κ α) → List Nat
  | [] => []
  | before :: past =>
    match before.client.session, s.client.session with
    | some session, none => session.generation :: ended before past
    | _, _ => ended before past

theorem ended_of_kept {before : State κ α} (kept : s.client.session = before.client.session) :
    ended s (before :: past) = ended before past := by
  rw [ended, kept]
  cases before.client.session <;> rfl

theorem ended_of_installed {before : State κ α} (none : before.client.session = none) :
    ended s (before :: past) = ended before past := by
  rw [ended, none]

/-- A step from a session to none ends it. -/
theorem ended_of_ended {before : State κ α} {session : Session α}
    (cached : before.client.session = some session) (none : s.client.session = none) :
    ended s (before :: past) = session.generation :: ended before past := by
  rw [ended, cached, none]

/-- No session ends twice, since whatever comes after it has a greater number. -/
theorem ended_nodup (run : Run settings allowed s past) :
    (ended s past).Nodup ∧ ∀ generation ∈ ended s past, generation ≤ s.client.generation ∧
      ∀ session, s.client.session = some session → generation < session.generation := by
  induction run with
  | start => exact ⟨.nil, nofun⟩
  | @step s t past run step ih =>
    obtain ⟨distinct, older⟩ := ih
    obtain ⟨links, change, -⟩ := step.session run.valid
    cases change with
    | kept session count =>
      rw [ended_of_kept session, session, count]
      exact ⟨distinct, older⟩
    | installed session none cached next count =>
      rw [ended_of_installed none, count, cached]
      refine ⟨distinct, fun generation listed => ?_⟩
      have known := (older generation listed).1
      refine ⟨by omega, ?_⟩
      rintro _ ⟨⟩
      omega
    | @ended session cached none count =>
      have numbered := run.valid.numbered session cached
      rw [ended_of_ended cached none, count, none]
      refine ⟨List.nodup_cons.2 ⟨fun listed => ?_, distinct⟩, ?_⟩
      · exact Nat.lt_irrefl _ ((older _ listed).2 session cached)
      · rintro generation (_ | ⟨_, listed⟩)
        · exact ⟨numbered.le, nofun⟩
        · exact ⟨(older generation listed).1, nofun⟩

/-! ## Giving a session up -/

/-- On a bench as well, whether a session is given up is whether it is the cached one, and otherwise
nothing at all happens. -/
theorem perform_invalidate (b : Bench.State) (generation : Nat) :
    (b.perform (.invalidate generation)).2.1 = .flag (b.client.isCurrent generation) ∧
      (b.client.isCurrent generation = false →
        b.perform (.invalidate generation) = (b, .flag false, []) ∧
          b.perform (.serviceDied generation) = (b, .nothing, [])) := by
  refine ⟨rfl, fun superseded => ?_⟩
  have same (event : Event Bench.Reaction Bench.Line) (gives : event.GivesUp generation) :
      b.client.handle event = (b.client, []) :=
    (Client.handle_of_givesUp _ gives).trans (Client.teardown_of_not_current superseded)
  simp only [Bench.State.perform, Bench.State.performClient, Bench.State.act, Bench.State.handle,
    same _ .died, same _ .invalidate, superseded, List.map_nil, and_self]

/-- A session is given up if and only if it is the cached one; otherwise nothing changes. When it is
given up, then before any completion runs the session is gone and the table empty, and neither the
number of sessions nor the next serial changes; exactly the requests that were outstanding are
completed, each once, as unavailable, in the order of their submission, whatever is set off
meanwhile; and from then on the session is gone, and to give it up again does nothing. However a run
goes, no session ends twice. -/
theorem teardown_guarded (run : Run settings allowed s past) (gives : event.GivesUp generation) :
    (s.client.isCurrent generation = true ↔
      ∃ session, s.client.session = some session ∧ session.generation = generation) ∧
    (s.client.isCurrent generation = false → s.client.handle event = (s.client, [])) ∧
    (s.client.isCurrent generation = true →
      s.client.handle event =
        ({ s.client with
            session := none
            outstanding := { s.client.outstanding with table := ∅ } },
          s.client.outstanding.toList.map fun request =>
            .complete request.completion (.error .unavailable)) ∧
      (∀ request serial, s.client.outstanding.find? serial = some request ↔
        request ∈ s.client.outstanding.toList ∧ request.serial = serial) ∧
      (s.client.outstanding.toList.Pairwise fun request later => request.age < later.age) ∧
      ended (s.raise event) (s :: past) = generation :: ended s past ∧
      ∀ t since, Above allowed s.agenda (s.raise event) t since →
        (t.client.isCurrent generation = false ∧
          ∀ again, again.GivesUp generation → t.client.handle again = (t.client, [])) ∧
        ∃ did left front, Above.Progress s.agenda
            (s.client.outstanding.toList.map fun request =>
              .complete request.completion (.error .unavailable))
            (s.raise event) t since did left front ∧
          (t.agenda = s.agenda → front = [] ∧ left = [])) ∧
    (ended s past).Nodup ∧
    ∀ b : Bench.State,
      (b.perform (.invalidate generation)).2.1 = .flag (b.client.isCurrent generation) ∧
        (b.client.isCurrent generation = false →
          b.perform (.invalidate generation) = (b, .flag false, []) ∧
            b.perform (.serviceDied generation) = (b, .nothing, [])) := by
  have acts := Client.handle_of_givesUp s.client gives
  refine ⟨Client.isCurrent_iff, fun superseded => ?_, fun current => ?_, run.ended_nodup.1,
    fun b => perform_invalidate b generation⟩
  · rw [acts, Client.teardown_of_not_current superseded]
  · have lost := acts.trans (Client.teardown_of_current current)
    obtain ⟨session, cached, rfl⟩ := Client.isCurrent_iff.1 current
    refine ⟨lost, fun _ _ => run.sound.find?_eq_some, run.sound.pairwise_age run.agesApart,
      ended_of_ended cached (congrArg (·.1.session) lost), fun t since above => ⟨?_, ?_⟩⟩
    · have gone : t.client.isCurrent session.generation = false := by
        rw [above.client_eq, State.client_raise, lost]
        exact run.valid.superseded_of_lost current _
      refine ⟨gone, fun again gives => ?_⟩
      rw [Client.handle_of_givesUp _ gives, Client.teardown_of_not_current gone]
    · obtain ⟨did, left, front, progress⟩ := above.progress (by rw [State.agenda_raise, lost])
      exact ⟨did, left, front, progress, progress.left_eq_nil⟩

/-- A death that comes while the first request is outstanding, which then fails. -/
theorem teardown_guarded_of_first :
    ∃ (s t : State Nat Nat) (past : List (State Nat Nat)) (since : List (Happening Nat Nat)),
      Run { Settings.standard with candidates := [⟨1, 3⟩] } (fun _ _ => True) s past ∧
        (.died 1 : Event Nat Nat).GivesUp 1 ∧ s.client.isCurrent 1 = true ∧
        s.client.outstanding.toList = [⟨.first, .getSlotStatus, 7, .standard, 0⟩] ∧
        (s.client.handle (.died 1)).2 = [.complete 7 (.error .unavailable)] ∧
        (s.raise (.died 1)).client.session = none ∧
        ended (s.raise (.died 1)) (s :: past) = 1 :: ended s past ∧
        Above (fun _ _ => True) s.agenda (s.raise (.died 1)) t since ∧
        t.agenda = s.agenda ∧ .complete 7 (.error .unavailable) ∈ Happening.done since := by
  obtain ⟨s, past, run, first⟩ :=
    exists_firstRequest (fun _ _ => True) (fun _ _ _ _ => trivial) (fun _ _ _ _ => trivial)
  have current : s.client.isCurrent 1 = true := Client.isCurrent_iff.2 ⟨_, first.session, rfl⟩
  have gives : (.died 1 : Event Nat Nat).GivesUp 1 := .died
  obtain ⟨acts, -, -, new, later⟩ := (teardown_guarded run gives).2.2.1 current
  have fails : (s.client.handle (.died 1)).2 = [.complete 7 (.error .unavailable)] := by
    rw [acts, first.requests]
    rfl
  have next : (s.raise (.died 1)).agenda =
      .complete 7 (.error .unavailable) :: ([] ++ s.agenda) := by
    rw [State.agenda_raise, fails]
    rfl
  have above : Above (fun _ _ => True) s.agenda (s.raise (.died 1)) _ _ :=
    .carryOut (.start (show _ = [_] ++ s.agenda from next)) next
  obtain ⟨did, left, front, progress, whole⟩ := (later _ _ above).2
  obtain ⟨-, rfl⟩ := whole rfl
  have same : did = [.complete 7 (.error .unavailable)] := by
    rw [← List.append_nil did, ← progress.whole, first.requests]
    rfl
  subst same
  have ran := List.mem_reverse.1 (progress.order.subset (.head _))
  exact ⟨s, _, past, _, run, gives, current, first.requests, fails,
    congrArg (·.1.session) acts, new, above, rfl, ran⟩

end Run

end Baseband
