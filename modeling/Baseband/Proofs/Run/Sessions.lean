import Baseband.Loopback
import Baseband.Proofs.Client.Changes
import Baseband.Proofs.Run.Basic

/-!
# Sessions are counted

The sessions that a run installs are numbered from one, and for each of them one death registration
is made, under its number. So no cookie comes twice, and a service that is linked by one client only
never takes a registration for a second one of the same recipient.
-/

namespace Baseband.Run

open scoped List
open Command (collect link?)

variable {κ α : Type} {settings : Settings} {allowed : State κ α → Event κ α → Prop}
  {s : State κ α} {past : List (State κ α)}

/-- The sessions that a run has installed, the latest first. -/
def installed (s : State κ α) : List (State κ α) → List (Session α)
  | [] => []
  | before :: past =>
    match before.client.session with
    | none => s.client.session.toList ++ installed before past
    | some _ => installed before past

def State.links (s : State κ α) : List (α × Nat) :=
  s.issued link?

theorem installed_of_kept {before : State κ α} (kept : s.client.session = before.client.session) :
    installed s (before :: past) = installed before past := by
  cases cached : before.client.session with
  | none => simp only [installed, cached, kept, Option.toList_none, List.nil_append]
  | some session => simp only [installed, cached]

theorem installed_of_ended {before : State κ α} {session : Session α}
    (cached : before.client.session = some session) :
    installed s (before :: past) = installed before past := by
  simp only [installed, cached]

/-- A step from no session to one installs it. -/
theorem installed_of_installed {before : State κ α} {session : Session α}
    (none : before.client.session = none) (cached : s.client.session = some session) :
    installed s (before :: past) = session :: installed before past := by
  simp only [installed, none, cached, Option.toList_some, List.singleton_append]

/-- A step changes the session as a move does, and registers for what it installs. -/
theorem Step.session {t : State κ α} (step : Step allowed s t) (valid : s.client.Valid) :
    ∃ links, Client.SessionChange s.client t.client links ∧ t.links ~ links ++ s.links := by
  cases step with
  | raise =>
    refine ⟨_, (Client.handle_move valid _).session, ?_⟩
    rw [State.links, State.issued_raise, State.links]
  | carryOut next => exact ⟨[], .kept rfl rfl, State.issued_carryOut link? next⟩

/-- The sessions installed are numbered as they come, and the latest number is the count. -/
theorem installed_generations (run : Run settings allowed s past) :
    (installed s past).map (·.generation) = (List.range' 1 s.client.generation).reverse := by
  induction run with
  | start => rfl
  | @step s t past run step ih =>
    obtain ⟨links, change, -⟩ := step.session run.valid
    cases change with
    | kept session generation => rw [installed_of_kept session, generation, ih]
    | installed session none cached next generation =>
      rw [installed_of_installed none cached, List.map_cons, ih, next, generation,
        List.range'_1_concat, List.reverse_append, Nat.add_comm]
      rfl
    | ended cached none generation => rw [installed_of_ended cached, generation, ih]

/-- For each session installed, one registration is made: over its connection, under its number. -/
theorem links_perm_installed (run : Run settings allowed s past) :
    s.links ~ (installed s past).map fun session => (session.connection, session.generation) := by
  induction run with
  | start => exact .nil
  | @step s t past run step ih =>
    obtain ⟨links, change, made⟩ := step.session run.valid
    cases change with
    | kept session =>
      rw [installed_of_kept session]
      exact made.trans ih
    | installed session none cached =>
      rw [installed_of_installed none cached, List.map_cons]
      exact made.trans (ih.cons _)
    | ended cached =>
      rw [installed_of_ended cached]
      exact made.trans ih

/-- No two registrations of a run are made under one cookie. -/
theorem cookies_nodup (run : Run settings allowed s past) : (s.links.map Prod.snd).Nodup := by
  have cookies : s.links.map Prod.snd ~ (installed s past).map (·.generation) := by
    simpa [Function.comp_def] using run.links_perm_installed.map Prod.snd
  rw [cookies.nodup_iff, run.installed_generations, List.nodup_reverse]
  exact List.nodup_range'

/-! ## A service linked by one client -/

/-- What a service has become after a history, if registrations of one client over its connections
reach it, and nothing else adds a recipient. -/
inductive Serves {ω σ : Type} (reaches : α → Prop) :
    List (Happening κ α) → Loopback.Service ω σ → Prop
  | new (version : Version) : Serves reaches [] (.new version)
  | linked {history : List (Happening κ α)} {service after : Loopback.Service ω σ} {id : CallId}
      {connection : α} {cookie : Nat} {observer : ω} (serves : Serves reaches history service)
      (own : reaches connection) (accepted : service.link ⟨cookie, observer⟩ = .ok after) :
      Serves reaches (.command (.link id connection cookie) :: history) after
  | refused {history : List (Happening κ α)} {service : Loopback.Service ω σ} {id : CallId}
      {connection : α} {cookie : Nat} {observer : ω} {why : Error}
      (serves : Serves reaches history service) (own : reaches connection)
      (refused : service.link ⟨cookie, observer⟩ = .error why) :
      Serves reaches (.command (.link id connection cookie) :: history) service
  /-- The happening is none of its business. -/
  | elsewhere {history : List (Happening κ α)} {service : Loopback.Service ω σ}
      {happening : Happening κ α} (serves : Serves reaches history service)
      (foreign : ∀ id connection cookie, happening = .command (.link id connection cookie) →
        ¬reaches connection) :
      Serves reaches (happening :: history) service
  /-- It dies, is sent a request, is given a sink: whatever adds no recipient. -/
  | otherwise {history : List (Happening κ α)} {service after : Loopback.Service ω σ}
      (serves : Serves reaches history service)
      (fewer : after.recipients.Sublist service.recipients) :
      Serves reaches history after

/-- A registration that a service accepts adds one recipient at the end. -/
theorem recipients_of_link {ω σ : Type} {service after : Loopback.Service ω σ}
    {recipient : Loopback.Recipient ω} (accepted : service.link recipient = .ok after) :
    after.recipients = service.recipients ++ [recipient] := by
  unfold Loopback.Service.link at accepted
  split at accepted
  · cases accepted
  · split at accepted
    · cases accepted
    · cases accepted
      rfl

/-- A registration is refused as a second one only if there is a first one. -/
theorem cookie_of_alreadyLinked {ω σ : Type} {service : Loopback.Service ω σ}
    {recipient : Loopback.Recipient ω} {cookie : Nat} {version : Version}
    (refused : service.link recipient = .error (.transport (.alreadyLinked cookie version))) :
    ∃ first ∈ service.recipients, first.cookie = recipient.cookie := by
  unfold Loopback.Service.link at refused
  split at refused
  · cases refused
  · split at refused
    · rename_i taken
      simpa using taken
    · cases refused

/-- The service knows no cookie but of registrations that were made. -/
theorem Serves.cookies {ω σ : Type} {reaches : α → Prop} {history : List (Happening κ α)}
    {service : Loopback.Service ω σ} (serves : Serves reaches history service) :
    ∀ recipient ∈ service.recipients,
      recipient.cookie ∈ (collect link? (Happening.done history)).map Prod.snd := by
  induction serves with
  | new => simp [Loopback.Service.new]
  | @linked history service after id connection cookie observer serves own accepted ih =>
    intro recipient listed
    rw [recipients_of_link accepted, List.mem_append, List.mem_singleton] at listed
    rw [Happening.done_command, Command.collect_cons, List.map_append]
    rcases listed with listed | rfl
    · exact List.mem_append_right _ (ih recipient listed)
    · exact List.mem_append_left _ (List.mem_singleton.2 rfl)
  | refused serves own refused ih =>
    intro recipient listed
    exact .tail _ (ih recipient listed)
  | @elsewhere history service happening serves foreign ih =>
    intro recipient listed
    have known := ih recipient listed
    cases happening with
    | event => exact known
    | command command =>
      rw [Happening.done_command, Command.collect_cons, List.map_append]
      exact List.mem_append_right _ known
  | otherwise serves fewer ih =>
    intro recipient listed
    exact ih recipient (fewer.subset listed)

/-- However a run goes, a session is only ever installed where there was none, under the next
number, or ended; the sessions installed are numbered from one in their order; for each of them one
registration is made, over its connection and under its number; no cookie comes twice, and a service
that this client alone links never refuses a registration as a second one. -/
theorem sessions_numbered (run : Run settings allowed s past) :
    (∀ t, Step allowed s t →
      t.client.session = s.client.session ∧ t.client.generation = s.client.generation ∨
      s.client.session = none ∧ t.client.generation = s.client.generation + 1 ∧
        (∃ session, t.client.session = some session ∧
          session.generation = t.client.generation) ∨
      s.client.session ≠ none ∧ t.client.session = none ∧
        t.client.generation = s.client.generation) ∧
    (∀ session, s.client.session = some session → session.generation = s.client.generation) ∧
    (installed s past).map (·.generation) = (List.range' 1 s.client.generation).reverse ∧
    s.links ~ (installed s past).map (fun session => (session.connection, session.generation)) ∧
    (s.links.map Prod.snd).Nodup ∧
    ∀ (ω σ : Type) (reaches : α → Prop) (service : Loopback.Service ω σ),
      Serves reaches s.history service → ∀ id connection cookie,
        .link id connection cookie ∈ s.agenda → ∀ observer taken version,
          service.link ⟨cookie, observer⟩ ≠
            .error (.transport (.alreadyLinked taken version)) := by
  refine ⟨?_, run.valid.numbered, run.installed_generations, run.links_perm_installed,
    run.cookies_nodup, ?_⟩
  · intro t step
    obtain ⟨links, change, -⟩ := step.session run.valid
    cases change with
    | kept session generation => exact .inl ⟨session, generation⟩
    | installed session none cached next generation =>
      exact .inr (.inl ⟨none, generation, session, cached, next.trans generation.symm⟩)
    | ended cached none generation =>
      exact .inr (.inr ⟨by simp [cached], none, generation⟩)
  · intro ω σ reaches service serves id connection cookie due observer taken version refused
    obtain ⟨first, known, same⟩ := cookie_of_alreadyLinked refused
    have made := serves.cookies first known
    rw [same] at made
    have cookies := run.cookies_nodup
    rw [State.links, State.issued, List.map_append, List.nodup_append'] at cookies
    refine cookies.2.2 ?_ made
    exact List.mem_map.2 ⟨(connection, cookie), List.mem_filterMap.2 ⟨_, due, rfl⟩, rfl⟩

/-- A fresh service that is about to be linked under the first number. -/
theorem sessions_numbered_of_first_link :
    ∃ (s : State Nat Nat) (past : List (State Nat Nat)),
      Run { Settings.standard with candidates := [⟨1, 3⟩] } (fun _ _ => True) s past ∧
        s.client.generation = 1 ∧ .link 0 3 1 ∈ s.agenda ∧
        ∀ observer taken version,
          (.new ⟨1, 3⟩ : Loopback.Service Nat Nat).link ⟨1, observer⟩ ≠
            .error (.transport (.alreadyLinked taken version)) := by
  have run : Run (κ := Nat) (α := Nat) { Settings.standard with candidates := [⟨1, 3⟩] }
      (fun _ _ => True) _ _ :=
    start_of_candidates [⟨1, 3⟩] (by decide +kernel)
      |>.step (.raise (.call 0 (.request .getSlotStatus 7)) trivial fun _ => by decide)
      |>.step (.carryOut rfl)
      |>.step (.raise (.found 0 (.ok (3, ⟨1, 3⟩))) trivial fun _ => by decide)
  refine ⟨_, _, run, rfl, .head _, ?_⟩
  exact (sessions_numbered run).2.2.2.2.2 Nat Nat (fun connection => connection = 3) _
    (.elsewhere (.elsewhere (.elsewhere (.new ⟨1, 3⟩) nofun) nofun) nofun) 0 3 1 (.head _)

end Baseband.Run
