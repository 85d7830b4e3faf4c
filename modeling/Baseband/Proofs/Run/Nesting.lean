import Baseband.Proofs.Run.Acquire

/-!
# What comes before the rest

What an event leaves to be done comes before all that was to be done already, and whatever is set
off while it is done comes before what is left of it. So the commands of one event are carried out
in their order, with other things in between, and only then is the rest gone on with.
-/

namespace Baseband.Run

open scoped List

variable {κ α : Type} {settings : Settings} {allowed other : State κ α → Event κ α → Prop}
  {s t : State κ α} {past : List (State κ α)} {base own : List (Command κ α)}
  {since : List (Happening κ α)}

/-- A part of a run in which this rest stays to be done: where it has come from a state, and what
has happened since, the latest first. -/
inductive Above (allowed : State κ α → Event κ α → Prop) (base : List (Command κ α))
    (s : State κ α) : State κ α → List (Happening κ α) → Prop
  | start {front : List (Command κ α)} (waits : s.agenda = front ++ base) :
      Above allowed base s s []
  | raise {t : State κ α} {since : List (Happening κ α)} (above : Above allowed base s t since)
      (event : Event κ α) (admitted : allowed t event) (room : t.HasRoom event) :
      Above allowed base s (t.raise event) (.event event :: since)
  | carryOut {t : State κ α} {since : List (Happening κ α)} {command : Command κ α}
      {front : List (Command κ α)} (above : Above allowed base s t since)
      (next : t.agenda = command :: (front ++ base)) :
      Above allowed base s (t.carryOut command (front ++ base)) (.command command :: since)

namespace Above

theorem mono (weaker : ∀ s event, allowed s event → other s event)
    (above : Above allowed base s t since) : Above other base s t since := by
  induction above with
  | start waits => exact .start waits
  | raise above event admitted room ih => exact ih.raise event (weaker _ _ admitted) room
  | carryOut above next ih => exact ih.carryOut next

/-- It is a part of a run indeed. -/
theorem run (above : Above allowed base s t since) (run : Run settings allowed s past) :
    ∃ past', Run settings allowed t past' := by
  induction above with
  | start => exact ⟨past, run⟩
  | raise above event admitted room ih =>
    obtain ⟨past', run⟩ := ih
    exact ⟨_, run.step (.raise event admitted room)⟩
  | carryOut above next ih =>
    obtain ⟨past', run⟩ := ih
    exact ⟨_, run.step (.carryOut next)⟩

theorem history (above : Above allowed base s t since) : t.history = since ++ s.history := by
  induction above with
  | start => rfl
  | raise above event _ _ ih => exact congrArg (.event event :: ·) ih
  | @carryOut _ _ command _ above _ ih => exact congrArg (.command command :: ·) ih

theorem done_eq (above : Above allowed base s t since) :
    t.done = Happening.done since ++ s.done := by
  rw [State.done, above.history, Happening.done, List.filterMap_append, ← Happening.done,
    ← Happening.done, State.done]

theorem client_eq (above : Above allowed base s t since) :
    t.client = s.client.after (Happening.events since) := by
  induction above with
  | start => rfl
  | raise above event _ _ ih => rw [State.client_raise, ih, Happening.events_event,
      Client.after_cons]
  | carryOut above _ ih => exact ih

/-- These commands have been carried out so far, of those that are to be done before the rest; the
others follow behind what has been set off meanwhile. -/
structure Progress (base own : List (Command κ α)) (s t : State κ α)
    (since : List (Happening κ α)) (did left front : List (Command κ α)) : Prop where
  whole : own = did ++ left
  agenda : t.agenda = front ++ (left ++ base)
  order : did <+ (Happening.done since).reverse
  /-- All else that has been done or is to be done first has been set off meanwhile. -/
  others : Happening.done since ++ front ~ did ++ s.client.left (Happening.events since)

/-- What was to be done before the base is carried out in its order, whatever it sets off. -/
theorem progress (above : Above allowed base s t since) (waits : s.agenda = own ++ base) :
    ∃ did left front, Progress base own s t since did left front := by
  induction above with
  | start => exact ⟨[], own, [], rfl, waits, .slnil, .nil⟩
  | @raise t since above event _ _ ih =>
    obtain ⟨did, left, front, progress⟩ := ih
    refine ⟨did, left, (t.client.handle event).2 ++ front, progress.whole, ?_, progress.order, ?_⟩
    · rw [State.agenda_raise, progress.agenda, List.append_assoc]
    · rw [Happening.done_event, Happening.events_event, Client.left_cons, ← above.client_eq,
        ← List.append_assoc did]
      refine .trans ?_ (progress.others.append_right _)
      rw [List.append_assoc]
      exact List.perm_append_comm.append_left _
  | @carryOut t since command rest above next ih =>
    obtain ⟨did, left, front, progress⟩ := ih
    have agenda : command :: rest = front ++ left := by
      have same := next.symm.trans progress.agenda
      rw [← List.cons_append, ← List.append_assoc] at same
      exact List.append_cancel_right same
    cases front with
    | nil =>
      -- nothing has been set off that is still to be done, so the next command is one of the own
      obtain rfl : left = command :: rest := agenda.symm
      refine ⟨did ++ [command], rest, [], ?_, rfl, ?_, ?_⟩
      · rw [progress.whole, List.append_assoc, List.singleton_append]
      · rw [Happening.done_command, List.reverse_cons]
        exact progress.order.append_right _
      · rw [Happening.done_command, Happening.events_command, List.append_nil]
        have others := progress.others
        rw [List.append_nil] at others
        rw [List.append_assoc, List.singleton_append]
        exact (others.cons command).trans List.perm_middle.symm
    | cons first front =>
      obtain ⟨rfl, rfl⟩ := List.cons.inj agenda
      refine ⟨did, left, front, progress.whole, ?_, ?_, ?_⟩
      · exact List.append_assoc front left base
      · rw [Happening.done_command, List.reverse_cons]
        exact progress.order.trans (List.sublist_append_left _ _)
      · rw [Happening.done_command, Happening.events_command, List.cons_append]
        exact List.perm_middle.symm.trans progress.others

/-- When only the rest is to be done, all else has been carried out. -/
theorem Progress.left_eq_nil {did left front : List (Command κ α)}
    (progress : Progress base own s t since did left front) (returned : t.agenda = base) :
    front = [] ∧ left = [] := by
  have same := progress.agenda
  rw [returned, ← List.append_assoc] at same
  exact List.append_eq_nil_iff.1 (List.self_eq_append_left.1 same)

/-- When only the last command and the rest are to be done, the others have been carried out. -/
theorem Progress.sublist_done {last : Command κ α} {did left front : List (Command κ α)}
    (progress : Progress base (own ++ [last]) s t since did left front)
    (returns : t.agenda = last :: base) : own <+ (Happening.done since).reverse := by
  have one : front ++ left = [last] := by
    have same := progress.agenda
    rw [returns, ← List.append_assoc, ← List.singleton_append] at same
    exact (List.append_cancel_right same).symm
  refine List.Sublist.trans ?_ progress.order
  rcases List.append_eq_singleton_iff.1 one with ⟨-, rfl⟩ | ⟨-, rfl⟩
  · rw [(List.append_inj_left' progress.whole rfl)]
  · rw [← List.append_nil did, ← progress.whole]
    exact List.sublist_append_left own [last]

end Above

end Baseband.Run
