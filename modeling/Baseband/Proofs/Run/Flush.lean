import Baseband.Proofs.Run.Nesting
import Baseband.Proofs.Run.Routing

/-!
# Flushing while completions go on

All requests are taken out of the table before the first of their completions runs. So whatever the
completions do to the table, those requests fail, each once and in their order, and nothing else
does.
-/

namespace Baseband

open Run (State)

variable {κ α : Type}

def Event.removes (serial : Serial) : Event κ α → Bool
  | .take taken => taken = serial
  | .respond header _ => header.serial = serial
  | .flush _ => true
  | _ => false

/-- One of these events, the latest of which comes first, has entered the request into the table,
and no later one has taken it out. -/
def Client.EnteredBy (c : Client κ α) (events : List (Event κ α)) (request : Request κ) : Prop :=
  ∃ later op completion attribution earlier,
    events = later ++ .submit op completion attribution :: earlier ∧
      request = ⟨(c.after earlier).outstanding.freeSerial, op, completion, attribution,
        (c.after earlier).outstanding.nextAge⟩ ∧
      ∀ event ∈ later, event.removes request.serial = false

namespace Run

open scoped List

variable {settings : Settings} {allowed : State κ α → Event κ α → Prop} {s t : State κ α}
  {past : List (State κ α)} {event : Event κ α} {since : List (Happening κ α)}

/-- What completions may do to the table of requests. -/
def Tracking (_ : State κ α) : Event κ α → Prop
  | .submit .. | .take _ | .respond .. | .flush _ => True
  | _ => False

/-! ## One event -/

/-- A request is in the table if it was there before and has been spared, or has just been
entered. -/
theorem Tracking.mem_toList (tracking : Tracking s event) (sound : s.client.outstanding.Sound)
    (room : s.HasRoom event) (request : Request κ) :
    request ∈ (s.raise event).client.outstanding.toList ↔
      (request ∈ s.client.outstanding.toList ∧ event.removes request.serial = false) ∨
        ∃ op completion attribution, event = .submit op completion attribution ∧
          request = ⟨s.client.outstanding.freeSerial, op, completion, attribution,
            s.client.outstanding.nextAge⟩ := by
  cases event with
  | submit op completion attribution =>
    have free := Outstanding.contains_freeSerial (room (Nat.succ_ne_self _))
    have table := (Outstanding.toList_submit_perm free op completion attribution).mem_iff
      (a := request)
    simp only [State.client_raise, Client.handle, table, List.mem_cons, Event.removes, and_true,
      Event.submit.injEq]
    constructor
    · rintro (rfl | before)
      · exact .inr ⟨_, _, _, ⟨rfl, rfl, rfl⟩, rfl⟩
      · exact .inl before
    · rintro (before | ⟨_, _, _, ⟨rfl, rfl, rfl⟩, rfl⟩)
      · exact .inr before
      · exact .inl rfl
  | take serial =>
    simp [Client.handle, sound.mem_toList_erase, Event.removes, eq_comm]
  | respond header payload =>
    simp only [State.client_raise, Client.handle, Client.respond, Event.removes, reduceCtorEq,
      false_and, exists_false, or_false, decide_eq_false_iff_not]
    split
    · rename_i unknown
      have others := sound.find?_eq_none.1 unknown request
      exact ⟨fun listed => ⟨listed, Ne.symm (others listed)⟩, And.left⟩
    · rw [sound.mem_toList_erase, ne_comm]
  | flush why => simp [Client.handle, Event.removes]
  | _ => exact tracking.elim

/-- Only completions of requests in the table are run. -/
theorem Tracking.completes (tracking : Tracking s event) {completion : κ} {outcome : Outcome}
    (listed : .complete completion outcome ∈ (s.client.handle event).2) :
    ∃ request ∈ s.client.outstanding.toList, request.completion = completion := by
  cases event with
  | submit | take => cases listed
  | respond header payload =>
    simp only [Client.handle, Client.respond] at listed
    split at listed
    · cases listed
    · rename_i request found
      obtain ⟨rfl, -⟩ := Command.complete.inj (List.mem_singleton.1 listed)
      exact ⟨request, Outstanding.mem_toList.2 ⟨_, found⟩, rfl⟩
  | flush why =>
    obtain ⟨request, known, same⟩ := List.mem_map.1 listed
    exact ⟨request, known, (Command.complete.inj same).1⟩
  | _ => exact tracking.elim

/-! ## Many events -/

/-- An event more: a request was entered before and is left there, or it is entered now. -/
theorem enteredBy_cons {c : Client κ α} {events : List (Event κ α)} {request : Request κ} :
    c.EnteredBy (event :: events) request ↔
      (c.EnteredBy events request ∧ event.removes request.serial = false) ∨
        ∃ op completion attribution, event = .submit op completion attribution ∧
          request = ⟨(c.after events).outstanding.freeSerial, op, completion, attribution,
            (c.after events).outstanding.nextAge⟩ := by
  constructor
  · rintro ⟨later, op, completion, attribution, earlier, split, new, spared⟩
    cases later with
    | nil =>
      obtain ⟨rfl, rfl⟩ := List.cons.inj split
      exact .inr ⟨op, completion, attribution, rfl, new⟩
    | cons last later =>
      obtain ⟨rfl, rfl⟩ := List.cons.inj split
      rw [List.forall_mem_cons] at spared
      exact .inl ⟨⟨later, op, completion, attribution, earlier, rfl, new, spared.2⟩, spared.1⟩
  · rintro (⟨⟨later, op, completion, attribution, earlier, rfl, new, spared⟩, last⟩ |
      ⟨op, completion, attribution, rfl, new⟩)
    · exact ⟨event :: later, op, completion, attribution, earlier, rfl, new,
        List.forall_mem_cons.2 ⟨last, spared⟩⟩
    · exact ⟨[], op, completion, attribution, events, rfl, new, nofun⟩

/-- A request that has been entered was not there before. -/
theorem age_of_enteredBy {c : Client κ α} (valid : c.Valid) {events : List (Event κ α)}
    {request : Request κ} (entered : c.EnteredBy events request) :
    c.outstanding.nextAge ≤ request.age := by
  obtain ⟨later, op, completion, attribution, earlier, -, rfl, -⟩ := entered
  exact valid.nextAge_le_after earlier

variable {base : List (Command κ α)}

/-- From an empty table on, the table holds what has been entered and not been taken out. -/
theorem Above.mem_toList (above : Above Tracking base s t since)
    (run : Run settings (fun _ _ => True) s past) (empty : s.client.outstanding.toList = [])
    (request : Request κ) :
    request ∈ t.client.outstanding.toList ↔
      s.client.EnteredBy (Happening.events since) request := by
  induction above with
  | start =>
    rw [empty]
    refine ⟨nofun, ?_⟩
    rintro ⟨later, _, _, _, _, split, -⟩
    cases later <;> cases split
  | @raise t since above event tracking room ih =>
    obtain ⟨past', before⟩ := (above.mono fun _ _ _ => trivial).run run
    rw [tracking.mem_toList before.sound room, ih, Happening.events_event, enteredBy_cons,
      ← above.client_eq]
  | carryOut above next ih => exact ih

/-- Meanwhile only completions of requests run that have been entered meanwhile. -/
theorem Above.completes (above : Above Tracking base s t since)
    (run : Run settings (fun _ _ => True) s past) (empty : s.client.outstanding.toList = [])
    {completion : κ} {outcome : Outcome}
    (listed : .complete completion outcome ∈ s.client.left (Happening.events since)) :
    ∃ op attribution, .submit op completion attribution ∈ Happening.events since := by
  induction above with
  | start => cases listed
  | @raise t since above event tracking room ih =>
    rw [Happening.events_event, Client.left_cons, ← above.client_eq, List.mem_append] at listed
    rw [Happening.events_event]
    rcases listed with before | now
    · obtain ⟨op, attribution, entered⟩ := ih before
      exact ⟨op, attribution, .tail _ entered⟩
    · obtain ⟨request, known, rfl⟩ := tracking.completes now
      obtain ⟨later, op, completion, attribution, earlier, split, rfl, -⟩ :=
        (above.mem_toList run empty request).1 known
      refine ⟨op, attribution, .tail _ ?_⟩
      rw [split]
      exact List.mem_append_right _ (.head _)
  | carryOut above next ih => exact ih listed

/-! ## The whole flush -/

/-- Whatever completions do to the table while a flush goes on, also by other flushes: exactly the
requests that were outstanding when it began fail, each once, with its error, in the order of their
submission. Meanwhile and afterwards the table holds exactly what has been entered since and not
been taken out; these requests are all later than those that fail; and no other completion runs but
of such requests. -/
theorem flush_fails_outstanding (run : Run settings allowed s past) (why : Error)
    (above : Above Tracking s.agenda (s.raise (.flush why)) t since) :
    (∀ serial request, s.client.outstanding.find? serial = some request ↔
      request ∈ s.client.outstanding.toList ∧ request.serial = serial) ∧
    (s.client.outstanding.toList.Pairwise fun request later => request.age < later.age) ∧
    (∃ did left front, Above.Progress s.agenda
        (s.client.outstanding.toList.map fun request => .complete request.completion (.error why))
        (s.raise (.flush why)) t since did left front ∧
      (t.agenda = s.agenda → front = [] ∧ left = [])) ∧
    (∀ completion outcome,
      .complete completion outcome ∈
          (s.raise (.flush why)).client.left (Happening.events since) →
        ∃ op attribution, .submit op completion attribution ∈ Happening.events since) ∧
    (∀ serial request, t.client.outstanding.find? serial = some request ↔
      (s.raise (.flush why)).client.EnteredBy (Happening.events since) request ∧
        request.serial = serial) ∧
    ∀ request ∈ s.client.outstanding.toList, ∀ entered,
      (s.raise (.flush why)).client.EnteredBy (Happening.events since) entered →
        request.age < entered.age := by
  have began : Run settings (fun _ _ => True) (s.raise (.flush why)) (s :: past) :=
    (run.mono fun _ _ _ => trivial).step (.raise _ trivial fun changed => absurd rfl changed)
  have empty : (s.raise (.flush why)).client.outstanding.toList = [] := Outstanding.toList_clear _
  obtain ⟨did, left, front, progress⟩ := above.progress
    (show _ = Client.failAll s.client.outstanding.toList why ++ s.agenda from rfl)
  obtain ⟨past', now⟩ := (above.mono fun _ _ _ => trivial).run began
  refine ⟨fun _ _ => run.sound.find?_eq_some, run.sound.pairwise_age run.agesApart,
    ⟨did, left, front, progress, progress.left_eq_nil⟩,
    fun completion outcome listed => above.completes began empty listed, ?_, ?_⟩
  · intro serial request
    rw [now.sound.find?_eq_some, above.mem_toList began empty]
  · intro request listed entered since
    have before := (run.sound _ _ (run.sound.find?_eq_some.2 ⟨listed, rfl⟩)).2
    exact Nat.lt_of_lt_of_le before (age_of_enteredBy began.valid since)

/-- A completion that submits anew while its request fails. -/
theorem flush_fails_outstanding_of_one :
    ∃ (s t : State Nat Nat) (past : List (State Nat Nat)) (since : List (Happening Nat Nat)),
      Run Settings.standard (fun _ _ => True) s past ∧
        Above Tracking s.agenda (s.raise (.flush .unavailable)) t since ∧
        t.agenda = s.agenda ∧ .complete 7 (.error .unavailable) ∈ Happening.done since ∧
        ∃ serial request, t.client.outstanding.find? serial = some request ∧
          request.completion = 8 := by
  let s : State Nat Nat :=
    (State.initial Settings.standard).raise (.submit .getSlotStatus 7 .standard)
  have run : Run Settings.standard (fun _ _ => True) s [.initial _] :=
    Run.start.step (.raise _ trivial fun _ => by decide)
  have one : s.client.outstanding.toList = [⟨.first, .getSlotStatus, 7, .standard, 0⟩] :=
    Outstanding.toList_submit_empty _ _ _
  have next : (s.raise (.flush .unavailable)).agenda =
      .complete 7 (.error .unavailable) :: ([] ++ s.agenda) := by
    simp only [State.agenda_raise, Client.handle, one]
    rfl
  have above : Above Tracking s.agenda (s.raise (.flush .unavailable)) _ _ :=
    .raise (.carryOut (.start (show _ = [_] ++ s.agenda from next)) next)
      (.submit .getSlotStatus 8 .standard) trivial fun _ => by decide
  have entered : (s.raise (.flush .unavailable)).client.EnteredBy
      [.submit .getSlotStatus 8 .standard] _ := ⟨[], _, _, _, [], rfl, rfl, List.forall_mem_nil _⟩
  have found := ((flush_fails_outstanding run .unavailable above).2.2.2.2.1 _ _).2 ⟨entered, rfl⟩
  exact ⟨s, _, _, _, run, above, rfl, .head _, _, _, found, rfl⟩

end Run

end Baseband
