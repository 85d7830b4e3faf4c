import Baseband.Proofs.Client.Delays
import Baseband.Proofs.Run.Basic

/-!
# Every completion runs once

A completion that has been handed over is held by a call, waits in the table, is about to run or has
run. In which of these places a completion is, is stated for completions that can be told apart; of
completions that cannot be, as many are in these places as have been handed over.
-/

namespace Baseband.Run

open scoped List
open Command (collect completion? discarded?)

variable {κ α : Type}

namespace State

def handed (s : State κ α) : List κ :=
  s.events.flatMap Event.handed

/-- The completions that are about to run: of responses, of lost sessions, of sends that failed and
of refused calls. -/
def due (s : State κ α) : List κ :=
  collect completion? s.agenda

def invoked (s : State κ α) : List κ :=
  collect completion? s.done

/-- The completions that are dropped or have been: of calls that are dropped themselves or broken
off. -/
def dropped (s : State κ α) : List κ :=
  s.issued discarded?

end State

inductive Place
  /-- In a call that has not registered its request. -/
  | held (id : CallId)
  /-- In the table. -/
  | outstanding (serial : Serial)
  /-- With the code that is about to run it. -/
  | due
  | invoked

def State.Holds (s : State κ α) (completion : κ) : Place → Prop
  | .held id => ∃ call, s.client.call? id = some call ∧ call.completion? = some completion
  | .outstanding serial =>
    ∃ request, s.client.outstanding.find? serial = some request ∧ request.completion = completion
  | .due => completion ∈ s.due
  | .invoked => completion ∈ s.invoked

/-- Calls begin under numbers of their own and run to their end, and only responses and losses take
requests out of the table. -/
def Faithful (s : State κ α) : Event κ α → Prop
  | .call id _ => s.client.call? id = none
  | .cancel _ | .take _ => False
  | _ => True

variable {settings : Settings} {allowed : State κ α → Event κ α → Prop} {s : State κ α}
  {past : List (State κ α)}

/-- All delays can be computed throughout a run if those of the settings can. -/
theorem patient
    (computable : ∀ policy, settings.retry = some policy →
      (Backoff.ofPolicy policy).Computable policy.growth)
    (run : Run settings allowed s past) : s.client.Patient := by
  refine run.invariant (P := fun s => s.client.Patient) ⟨?_, ?_⟩ ?_ ?_
  · intro backoff fresh
    obtain ⟨policy, chosen, rfl⟩ := Option.map_eq_some_iff.1 fresh
    have chosen : settings.retry = some policy := chosen
    simpa [State.initial, Client.growth, Client.ofSettings, chosen] using computable policy chosen
  · intro id goal stage backoff listed
    cases listed
  · intro s event valid patient _ _
    exact (Client.handle_move valid event).patient patient
  · intro s command rest patient _
    exact patient

/-- As many completions are kept by the client, due, invoked and dropped as have been handed over,
if no call begins under the number of another and no request is taken out of the table. -/
theorem handed_perm
    (careful : ∀ s past event, Run settings allowed s past → allowed s event →
      (∀ id goal, event = .call id goal → s.client.call? id = none) ∧
        ∀ serial, event ≠ .take serial)
    (run : Run settings allowed s past) :
    s.handed ~ s.client.kept ++ (s.due ++ (s.invoked ++ s.dropped)) := by
  classical
  induction run with
  | start =>
    simp [State.handed, State.events, State.initial, Client.kept, Client.held, Client.registered,
      Client.ofSettings, State.due, State.invoked, State.dropped, State.issued, State.done]
  | @step s t past run step ih =>
    refine List.perm_iff_count.2 fun completion => ?_
    have before := ih.count_eq completion
    cases step with
    | raise event admitted room =>
      obtain ⟨fresh, stays⟩ := careful s past event run admitted
      have move := Client.handle_move run.valid event
      have conserved := (move.conserved run.valid room fresh stays).count_eq completion
      simp only [State.handed, State.events_raise, List.flatMap_cons, State.client_raise, State.due,
        State.agenda_raise, State.invoked, State.done_raise, State.dropped, State.issued_raise,
        Command.collect_append, List.count_append] at before conserved ⊢
      omega
    | carryOut next =>
      have dropped := (State.issued_carryOut discarded? next).count_eq completion
      simp only [State.handed, State.events_carryOut, State.client_carryOut, State.due, next,
        State.agenda_carryOut, State.invoked, State.done_carryOut, State.dropped, dropped,
        Command.collect_cons, List.count_append] at before ⊢
      omega

/-- If completions can be told apart, then one that has been run is nowhere else, and has been run
once. -/
theorem invoked_once
    (careful : ∀ s past event, Run settings allowed s past → allowed s event →
      (∀ id goal, event = .call id goal → s.client.call? id = none) ∧
        ∀ serial, event ≠ .take serial)
    (run : Run settings allowed s past) (distinct : s.handed.Nodup) :
    s.invoked.Nodup ∧ ∀ completion ∈ s.invoked,
      completion ∉ s.client.held ++ s.client.registered ++ s.due := by
  have apart := (run.handed_perm careful).nodup distinct
  rw [Client.kept, ← List.append_assoc (_ ++ _), List.nodup_append'] at apart
  obtain ⟨-, invoked, disjoint⟩ := apart
  exact ⟨(List.nodup_append'.1 invoked).1, fun completion once elsewhere =>
    disjoint elsewhere (List.mem_append_left _ once)⟩

/-- Calls that are run faithfully meet what the conservation of completions needs. -/
theorem Faithful.careful (s : State κ α) (past : List (State κ α)) (event : Event κ α)
    (_ : Run settings Faithful s past) (faithful : Faithful s event) :
    (∀ id goal, event = .call id goal → s.client.call? id = none) ∧
      ∀ serial, event ≠ .take serial := by
  constructor
  · rintro id goal rfl
    exact faithful
  · rintro serial rfl
    exact faithful

/-- While delays can be computed and calls run to their end, nothing is dropped. -/
theorem dropped_eq_nil
    (computable : ∀ policy, settings.retry = some policy →
      (Backoff.ofPolicy policy).Computable policy.growth)
    (run : Run settings Faithful s past) : s.dropped = [] := by
  induction run with
  | start => rfl
  | @step s t past run step ih =>
    cases step with
    | raise event faithful =>
      have move := Client.handle_move run.valid event
      have none := move.discarded_eq_nil (run.patient computable) (by rintro id rfl; exact faithful)
      rw [State.dropped, State.issued_raise, none]
      exact ih
    | carryOut next =>
      have kept := State.issued_carryOut discarded? next
      rw [show s.issued discarded? = [] from ih] at kept
      exact kept.eq_nil

/-- A completion has a place exactly if it is in one of the four lists. -/
theorem holds_place (run : Run settings allowed s past) {completion : κ} :
    (∃ place, s.Holds completion place) ↔
      completion ∈ s.client.held ++ s.client.registered ++ s.due ++ s.invoked := by
  simp only [List.mem_append, Client.mem_held run.valid.distinct, Client.mem_registered]
  constructor
  · rintro ⟨place, holds⟩
    cases place with
    | held id => exact .inl (.inl (.inl ⟨id, holds⟩))
    | outstanding serial => exact .inl (.inl (.inr ⟨serial, holds⟩))
    | due => exact .inl (.inr holds)
    | invoked => exact .inr holds
  · rintro (((⟨id, holds⟩ | ⟨serial, holds⟩) | holds) | holds)
    · exact ⟨.held id, holds⟩
    · exact ⟨.outstanding serial, holds⟩
    · exact ⟨.due, holds⟩
    · exact ⟨.invoked, holds⟩

/-- A completion that is there but once is in one place only. -/
theorem place_unique (run : Run settings allowed s past)
    (apart : (s.client.held ++ s.client.registered ++ s.due ++ s.invoked).Nodup) {completion : κ}
    {place other : Place} (first : s.Holds completion place) (second : s.Holds completion other) :
    place = other := by
  simp only [List.nodup_append', List.disjoint_append_left] at apart
  obtain ⟨⟨⟨held, registered, heldRegistered⟩, -, heldDue, registeredDue⟩, -,
    ⟨heldInvoked, registeredInvoked⟩, dueInvoked⟩ := apart
  have inCall {id : CallId} (holds : s.Holds completion (.held id)) :
      completion ∈ s.client.held :=
    (Client.mem_held run.valid.distinct).2 ⟨id, holds⟩
  have inTable {serial : Serial} (holds : s.Holds completion (.outstanding serial)) :
      completion ∈ s.client.registered :=
    Client.mem_registered.2 ⟨serial, holds⟩
  cases place with
  | held id =>
    cases other with
    | held id' =>
      obtain ⟨call, found, holds⟩ := first
      obtain ⟨call', found', holds'⟩ := second
      rw [Client.holder_unique run.valid.distinct held found holds found' holds']
    | outstanding serial => exact absurd (inTable second) (heldRegistered (inCall first))
    | due => exact absurd second (heldDue (inCall first))
    | invoked => exact absurd second (heldInvoked (inCall first))
  | outstanding serial =>
    cases other with
    | held id => exact absurd (inTable first) (heldRegistered (inCall second))
    | outstanding serial' =>
      obtain ⟨request, found, rfl⟩ := first
      obtain ⟨request', found', same⟩ := second
      rw [Outstanding.serial_unique registered found found' same.symm]
    | due => exact absurd second (registeredDue (inTable first))
    | invoked => exact absurd second (registeredInvoked (inTable first))
  | due =>
    cases other with
    | held id => exact absurd first (heldDue (inCall second))
    | outstanding serial => exact absurd first (registeredDue (inTable second))
    | due => rfl
    | invoked => exact absurd second (dueInvoked first)
  | invoked =>
    cases other with
    | held id => exact absurd first (heldInvoked (inCall second))
    | outstanding serial => exact absurd first (registeredInvoked (inTable second))
    | due => exact absurd first (dueInvoked second)
    | invoked => rfl

/-- Every completion that has been handed over is in exactly one place: held by one call, in the
table under one serial, about to run, or run once. -/
theorem completion_in_one_place
    (computable : ∀ policy, settings.retry = some policy →
      (Backoff.ofPolicy policy).Computable policy.growth)
    (run : Run settings Faithful s past) :
    s.handed ~ s.client.held ++ s.client.registered ++ s.due ++ s.invoked ∧
      (s.handed.Nodup → s.due.Nodup ∧ s.invoked.Nodup ∧
        ∀ completion ∈ s.handed, ∃! place, s.Holds completion place) := by
  have conserved := run.handed_perm Faithful.careful
  rw [run.dropped_eq_nil computable, List.append_nil, Client.kept, ← List.append_assoc]
    at conserved
  refine ⟨conserved, fun distinct => ?_⟩
  have apart := conserved.nodup distinct
  refine ⟨?_, ?_, fun completion handed => ?_⟩
  · exact (List.nodup_append'.1 (List.nodup_append'.1 apart).1).2.1
  · exact (List.nodup_append'.1 apart).2.1
  · obtain ⟨place, holds⟩ := (holds_place run).2 (conserved.mem_iff.1 handed)
    exact ⟨place, holds, fun other also => place_unique run apart also holds⟩

/-- The completion of a request whose session is lost before its response comes. -/
theorem completion_in_one_place_of_loss :
    ∃ (s : State Nat Nat) (past : List (State Nat Nat)),
      Run { Settings.standard with candidates := [⟨1, 3⟩] } Faithful s past ∧ s.handed = [7] ∧
        s.client.session = none ∧ ∃! place, s.Holds 7 place := by
  obtain ⟨s, past, run, session, -, -, -, handed⟩ :=
    exists_request_sent Faithful
      (fun s none _ => by simp [Faithful, Client.call?, none])
      (fun s event goes => by cases event <;> trivial)
  have lost := run.step (.raise (.died 1) trivial (State.hasRoom_died s 1))
  have current : s.client.isCurrent 1 = true := Client.isCurrent_iff.2 ⟨_, session, rfl⟩
  have none : (s.raise (.died 1)).client.session = none :=
    congrArg (·.1.session) (Client.teardown_of_current current)
  have same : (s.raise (.died 1)).handed = [7] := handed
  refine ⟨_, _, lost, same, none, ?_⟩
  have placed := (completion_in_one_place (by rintro policy ⟨⟩) lost).2
  rw [same] at placed
  exact (placed (by decide)).2.2 7 (by decide)

end Baseband.Run
