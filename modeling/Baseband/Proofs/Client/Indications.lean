import Baseband.Proofs.Client.Returns

/-!
# What inboxes yield

Whatever befalls a client, each inbox yields the indications that it has taken, one after another
and in the order of their arrival. It takes those that arrive while its registration is the latest
one and stands, while nobody has dropped it, and while it has room; this can be read off the events
alone. Nothing that arrives otherwise changes the client at all.

## Main definitions

* `Client.meant`: the indications that are meant for an inbox.
* `Client.yielded`: the indications that reads of an inbox have found.

## Main statements

* `Client.tracks`: the inboxes are those that the events have opened, with what was meant for them.
* `Client.indications_delivered`: which indications an inbox yields, and in which order.
-/

namespace Baseband

variable {κ α : Type}

/-! ## Events of inboxes -/

def Event.indication? : Event κ α → Option (List SlotStatus)
  | .indicate slots => some slots
  | _ => none

def Event.arrived (events : List (Event κ α)) : List (List SlotStatus) :=
  (events.filterMap Event.indication?).reverse

def Event.reads (inbox : Nat) : Event κ α → Bool
  | .read number => number = inbox
  | _ => false

/-- The event opens, closes, fills or empties an inbox. -/
def Event.listens : Event κ α → Bool
  | .indicate _ | .register | .unregister | .read _ | .abandon _ => true
  | _ => false

def Reading.slots? : Reading → Option (List SlotStatus)
  | .slots found => some found
  | .empty | .closed => none

theorem Reading.slots?_of_nothing (listens : Prop) [Decidable listens] :
    (if listens then empty else closed).slots? = none := by
  split <;> rfl

/-- An inbox takes an indication or not. Nothing else about it changes. -/
theorem Inbox.push_eq (box : Inbox) (slots : List SlotStatus) :
    box.push slots = { box with unread := (box.push slots).unread } := by
  unfold push
  split <;> rfl

namespace Client

/-- The number of inboxes that events have opened. The events are listed with the latest first. -/
def opened (c : Client κ α) : List (Event κ α) → Nat
  | [] => 0
  | .register :: earlier =>
    if c.inboxCapacity ≤ Inbox.maxCapacity then c.opened earlier + 1 else c.opened earlier
  | _ :: earlier => c.opened earlier

/-- The inbox of the latest registration, unless somebody has unregistered since. -/
def listening (c : Client κ α) : List (Event κ α) → Option Nat
  | [] => none
  | .register :: earlier =>
    if c.inboxCapacity ≤ Inbox.maxCapacity then some (c.opened earlier) else c.listening earlier
  | .unregister :: _ => none
  | _ :: earlier => c.listening earlier

def dropped (c : Client κ α) (inbox : Nat) : List (Event κ α) → Bool
  | [] => false
  | .abandon number :: earlier =>
    number = inbox && inbox < c.opened earlier || c.dropped inbox earlier
  | _ :: earlier => c.dropped inbox earlier

/-- The indications that reads of an inbox have found, the first one first. -/
def yielded (c : Client κ α) (inbox : Nat) : List (Event κ α) → List (List SlotStatus)
  | [] => []
  | .read number :: earlier =>
    if number = inbox then
      c.yielded inbox earlier ++ ((c.after earlier).indications.peek inbox).slots?.toList
    else c.yielded inbox earlier
  | _ :: earlier => c.yielded inbox earlier

/-- The indications that are meant for an inbox, the first one first: those that arrive while it
listens, while nobody has dropped it, and while it holds less than its capacity. -/
def meant (c : Client κ α) (inbox : Nat) : List (Event κ α) → List (List SlotStatus)
  | [] => []
  | .indicate slots :: earlier =>
    if c.listening earlier = some inbox ∧ c.dropped inbox earlier = false ∧
        (c.meant inbox earlier).length < (c.yielded inbox earlier).length + c.inboxCapacity then
      c.meant inbox earlier ++ [slots]
    else c.meant inbox earlier
  | _ :: earlier => c.meant inbox earlier

/-! ## Events of something else -/

section Frame

variable (c : Client κ α) (id : CallId) (goal : Goal κ)

theorem indications_conclude (found : Except Error (Session α)) :
    (c.conclude id goal found).1.indications = c.indications := by
  unfold conclude
  split
  · rfl
  · rfl
  · split
    · rfl
    · dsimp only
      split <;> rfl

theorem indications_leaveGate (found : Except Error (Session α)) :
    (c.leaveGate id goal found).1.indications = c.indications :=
  indications_conclude _ id goal found

theorem indications_endPass (backoff : Option Backoff) (why : Error) :
    (c.endPass id goal backoff why).1.indications = c.indications := by
  unfold endPass
  split
  · exact indications_leaveGate c id goal _
  · rfl
  · rfl

theorem indications_probe (backoff : Option Backoff) (versions : List Version) :
    (c.probe id goal backoff versions).1.indications = c.indications := by
  cases versions with
  | nil => exact indications_endPass c id goal backoff _
  | cons => rfl

theorem indications_search : (c.search id goal).1.indications = c.indications := by
  unfold search
  split
  · exact indications_leaveGate c id goal _
  · exact indications_probe c id goal _ _

theorem indications_begin : (c.begin id goal).1.indications = c.indications := by
  unfold begin
  split
  · exact indications_conclude c id goal _
  · split
    · exact indications_conclude c id goal _
    · dsimp only
      split
      · exact indications_search _ id goal
      · rfl

theorem indications_teardown (generation : Nat) :
    (c.teardown generation).1.indications = c.indications := by
  unfold teardown
  split <;> rfl

theorem indications_connect (stage : Stage α) (event : Event κ α) :
    (c.connect id goal stage event).1.indications = c.indications := by
  unfold connect
  split
  · split
    · exact indications_search c id goal
    · rfl
  · split
    · rfl
    · exact indications_probe c id goal _ _
    · exact indications_endPass c id goal _ _
  · exact indications_probe c id goal _ _
  · split
    · rfl
    · exact indications_teardown c _
  · split
    · exact indications_leaveGate c id goal _
    · exact indications_teardown c _
  · exact indications_leaveGate c id goal _
  · rfl

theorem indications_advance (event : Event κ α) :
    (c.advance id event).1.indications = c.indications := by
  unfold advance
  split
  · exact indications_connect c id _ _ _
  · split
    · rfl
    · unfold sendFailed
      dsimp only
      split
      · exact indications_teardown _ _
      · split <;> rfl
  · rfl

theorem indications_cancel : (c.cancel id).1.indications = c.indications := by
  unfold cancel
  split
  · split
    · split <;> rfl
    all_goals rfl
  · rfl
  · rfl

end Frame

/-- Only events about inboxes change them. -/
theorem indications_handle_of_not_listens (c : Client κ α) {event : Event κ α}
    (other : event.listens = false) : (c.handle event).1.indications = c.indications := by
  cases event with
  | indicate | register | unregister | read | abandon => cases other
  | call id goal =>
    simp only [handle]
    split
    · rfl
    · exact indications_begin c id goal
  | admitted id | found id | rested id | linked id | routed id | proceeded id | sent id =>
    exact indications_advance c id _
  | cancel id => exact indications_cancel c id
  | died generation | invalidate generation => exact indications_teardown c generation
  | respond header payload =>
    simp only [handle, respond]
    split <;> rfl
  | submit | take | flush | setNextSerial => rfl

/-- No event changes how large the inboxes of a client are. -/
theorem Move.inboxCapacity {c c' : Client κ α} {event : Event κ α} {commands : List (Command κ α)}
    (move : Move c event c' commands) : c'.inboxCapacity = c.inboxCapacity := by
  cases move with
  | conclude _ conclusion => cases conclusion <;> rfl
  | leave _ conclusion => cases conclusion <;> rfl
  | _ => rfl

/-! ## Inboxes and events -/

/-- The inboxes of a client after events are those that the events have opened. -/
structure Tracks (c : Client κ α) (events : List (Event κ α)) : Prop where
  capacity : (c.after events).inboxCapacity = c.inboxCapacity
  count : (c.after events).indications.inboxes.length = c.opened events
  registered : (c.after events).indications.registered = c.listening events
  inbox : ∀ (inbox : Nat) (box : Inbox), (c.after events).indications.inboxes[inbox]? = some box →
    box.capacity = c.inboxCapacity ∧ box.abandoned = c.dropped inbox events ∧
      c.yielded inbox events ++ box.unread = c.meant inbox events
  unopened : ∀ inbox, c.opened events ≤ inbox →
    c.listening events ≠ some inbox ∧ c.dropped inbox events = false ∧
      c.yielded inbox events = [] ∧ c.meant inbox events = []

section Tracks

variable {c : Client κ α} {earlier : List (Event κ α)}

theorem tracks_nil (fresh : c.indications = .empty) : c.Tracks [] where
  capacity := rfl
  count := by rw [after_nil, fresh]; rfl
  registered := by rw [after_nil, fresh]; rfl
  inbox inbox box found := by
    rw [after_nil, fresh] at found
    cases found
  unopened _ _ := ⟨nofun, rfl, rfl, rfl⟩

/-- An event that nobody who listens takes notice of. -/
theorem Tracks.unnoticed (tracks : c.Tracks earlier) {event : Event κ α}
    (capacity : (c.after (event :: earlier)).inboxCapacity = (c.after earlier).inboxCapacity)
    (indications : (c.after (event :: earlier)).indications = (c.after earlier).indications)
    (opened : c.opened (event :: earlier) = c.opened earlier)
    (listening : c.listening (event :: earlier) = c.listening earlier)
    (dropped : ∀ inbox, c.dropped inbox (event :: earlier) = c.dropped inbox earlier)
    (yielded : ∀ inbox, c.yielded inbox (event :: earlier) = c.yielded inbox earlier)
    (meant : ∀ inbox, c.meant inbox (event :: earlier) = c.meant inbox earlier) :
    c.Tracks (event :: earlier) where
  capacity := capacity.trans tracks.capacity
  count := by rw [indications, opened, tracks.count]
  registered := by rw [indications, listening, tracks.registered]
  inbox inbox box found := by
    rw [indications] at found
    rw [dropped, yielded, meant]
    exact tracks.inbox inbox box found
  unopened inbox := by
    rw [opened, listening, dropped, yielded, meant]
    exact tracks.unopened inbox

theorem exists_of_modify {boxes : List Inbox} {number inbox : Nat} {f : Inbox → Inbox} {box : Inbox}
    (found : (boxes.modify number f)[inbox]? = some box) :
    ∃ before, boxes[inbox]? = some before ∧ box = if number = inbox then f before else before := by
  rw [List.getElem?_modify] at found
  obtain ⟨before, was, rfl⟩ := Option.map_eq_some_iff.1 found
  exact ⟨before, was, rfl⟩

/-- What a look into an inbox finds is the next indication that was meant for it. -/
theorem Tracks.peek (tracks : c.Tracks earlier) (inbox : Nat) :
    (c.after earlier).indications.peek inbox =
      match (c.meant inbox earlier).drop (c.yielded inbox earlier).length with
      | next :: _ => .slots next
      | [] => if c.listening earlier = some inbox then .empty else .closed := by
  unfold Indications.peek
  split
  · rename_i missing
    rw [List.getElem?_eq_none_iff, tracks.count] at missing
    obtain ⟨silent, -, -, nothing⟩ := tracks.unopened inbox missing
    rw [nothing, List.drop_nil]
    simp [silent]
  · rename_i box found
    obtain ⟨-, -, all⟩ := tracks.inbox inbox box found
    have left : (c.meant inbox earlier).drop (c.yielded inbox earlier).length = box.unread := by
      rw [← all, List.drop_left]
    cases unread : box.unread with
    | nil => simp only [left, unread, tracks.registered]
    | cons next others => simp only [left, unread]

/-- A registration opens a new inbox, empty, and lets the one that listened drain. -/
theorem Tracks.register (tracks : c.Tracks earlier) : c.Tracks (.register :: earlier) := by
  by_cases fits : c.inboxCapacity ≤ Inbox.maxCapacity
  · have now : (c.after (.register :: earlier)).indications =
        ⟨(c.after earlier).indications.inboxes ++ [⟨c.inboxCapacity, [], false⟩],
          some (c.opened earlier)⟩ := by
      simp [handle, Client.register, Indications.register, tracks.capacity, fits, tracks.count]
    have capacity : (c.after (.register :: earlier)).inboxCapacity = c.inboxCapacity := by
      simp [handle, Client.register, Indications.register, tracks.capacity, fits]
    refine ⟨capacity, ?_, ?_, fun inbox box found => ?_, fun inbox unopened => ?_⟩
    · rw [now, List.length_append, tracks.count]
      exact (if_pos fits).symm
    · rw [now]
      exact (if_pos fits).symm
    · rw [now, List.getElem?_append] at found
      split at found
      · exact tracks.inbox inbox box found
      · rename_i past
        rw [tracks.count, Nat.not_lt] at past
        obtain ⟨-, dropped, yielded, meant⟩ := tracks.unopened inbox past
        obtain rfl := List.mem_singleton.1 (List.mem_of_getElem? found)
        refine ⟨rfl, dropped.symm, ?_⟩
        rw [List.append_nil]
        exact yielded.trans meant.symm
    · simp only [opened, fits, if_true] at unopened
      obtain ⟨-, rest⟩ := tracks.unopened inbox (Nat.le_of_succ_le unopened)
      refine ⟨?_, rest⟩
      simp only [listening, fits, if_true, ne_eq, Option.some.injEq]
      omega
  · have refused : (c.after (.register :: earlier)) = c.after earlier := by
      simp [handle, Client.register, Indications.register, tracks.capacity, fits]
    exact tracks.unnoticed (by rw [refused]) (by rw [refused]) (by simp [opened, fits])
      (by simp [listening, fits]) (fun _ => rfl) (fun _ => rfl) (fun _ => rfl)

/-- After the registration is taken back no inbox listens. -/
theorem Tracks.unregister (tracks : c.Tracks earlier) : c.Tracks (.unregister :: earlier) where
  capacity := tracks.capacity
  count := tracks.count
  registered := rfl
  inbox := tracks.inbox
  unopened inbox unopened := ⟨nofun, (tracks.unopened inbox unopened).2⟩

/-- An inbox has room as long as less was meant for it than it has yielded and can hold. -/
theorem Tracks.push (tracks : c.Tracks earlier) {inbox : Nat} {box : Inbox}
    (found : (c.after earlier).indications.inboxes[inbox]? = some box)
    (listens : c.listening earlier = some inbox) (slots : List SlotStatus) :
    c.yielded inbox earlier ++ (box.push slots).unread =
      c.meant inbox (.indicate slots :: earlier) := by
  obtain ⟨capacity, abandoned, all⟩ := tracks.inbox inbox box found
  have room : (c.meant inbox earlier).length < (c.yielded inbox earlier).length + c.inboxCapacity ↔
      ¬box.capacity ≤ box.unread.length := by
    rw [← all, List.length_append, capacity]
    omega
  unfold Inbox.push
  split
  · rename_i refuses
    refine all.trans (if_neg ?_).symm
    rw [← abandoned, room]
    rintro ⟨-, kept, fits⟩
    simp [kept, fits] at refuses
  · rename_i takes
    rw [not_or, Bool.not_eq_true] at takes
    refine Eq.trans ?_ (if_pos ?_).symm
    · rw [← List.append_assoc, all]
    · rw [← abandoned, room]
      exact ⟨listens, takes⟩

/-- An indication goes to the inbox that listens, if there is room, and to no other. -/
theorem Tracks.indicate (tracks : c.Tracks earlier) (slots : List SlotStatus) :
    c.Tracks (.indicate slots :: earlier) := by
  have deaf {inbox : Nat} (silent : c.listening earlier ≠ some inbox) :
      c.meant inbox (.indicate slots :: earlier) = c.meant inbox earlier :=
    if_neg fun takes => silent takes.1
  have delivered : (c.after (.indicate slots :: earlier)).indications =
      (c.after earlier).indications.deliver slots := rfl
  unfold Indications.deliver at delivered
  rw [tracks.registered] at delivered
  cases listens : c.listening earlier with
  | none =>
    rw [listens] at delivered
    exact tracks.unnoticed rfl delivered rfl rfl (fun _ => rfl) (fun _ => rfl)
      fun _ => deaf (by rw [listens]; nofun)
  | some number =>
    rw [listens] at delivered
    refine ⟨tracks.capacity, ?_, ?_, fun inbox box found => ?_, fun inbox unopened => ?_⟩
    · rw [delivered]
      exact (List.length_modify ..).trans tracks.count
    · rw [delivered]
      exact listens.symm
    · rw [delivered] at found
      obtain ⟨before, was, rfl⟩ := exists_of_modify found
      obtain ⟨capacity, abandoned, all⟩ := tracks.inbox inbox before was
      by_cases same : number = inbox
      · subst same
        have all' := tracks.push was listens slots
        rw [if_pos rfl, Inbox.push_eq]
        exact ⟨capacity, abandoned, all'⟩
      · rw [if_neg same, deaf (by rw [listens]; exact fun eq => same (Option.some.inj eq))]
        exact ⟨capacity, abandoned, all⟩
    · obtain ⟨silent, dropped, yielded, meant⟩ := tracks.unopened inbox unopened
      exact ⟨silent, dropped, yielded, (deaf silent).trans meant⟩

/-- A read takes the first indication that is left, and from this inbox only. -/
theorem Tracks.read (tracks : c.Tracks earlier) (number : Nat) :
    c.Tracks (.read number :: earlier) where
  capacity := tracks.capacity
  count := (List.length_modify ..).trans tracks.count
  registered := tracks.registered
  inbox inbox box found := by
    obtain ⟨before, was, rfl⟩ := exists_of_modify found
    obtain ⟨capacity, abandoned, all⟩ := tracks.inbox inbox before was
    by_cases same : number = inbox
    · subst same
      rw [if_pos rfl]
      refine ⟨capacity, abandoned, Eq.trans ?_ all⟩
      simp only [yielded, if_true, Indications.peek, was]
      cases unread : before.unread with
      | nil => simp [Reading.slots?_of_nothing]
      | cons next rest => simp [Reading.slots?]
    · rw [if_neg same]
      refine ⟨capacity, abandoned, ?_⟩
      simpa only [yielded, meant, if_neg same] using all
  unopened inbox unopened := by
    obtain ⟨silent, dropped, nothing, meant⟩ := tracks.unopened inbox unopened
    have missing : (c.after earlier).indications.inboxes[inbox]? = none :=
      List.getElem?_eq_none_iff.2 (tracks.count ▸ unopened)
    refine ⟨silent, dropped, ?_, meant⟩
    simp [yielded, Indications.peek, missing, nothing, Reading.slots?]

/-- An inbox that is dropped stays in the count, and nothing more is meant for it. -/
theorem Tracks.abandon (tracks : c.Tracks earlier) (number : Nat) :
    c.Tracks (.abandon number :: earlier) where
  capacity := tracks.capacity
  count := (List.length_modify ..).trans tracks.count
  registered := tracks.registered
  inbox inbox box found := by
    obtain ⟨before, was, rfl⟩ := exists_of_modify found
    obtain ⟨capacity, abandoned, all⟩ := tracks.inbox inbox before was
    have known : inbox < c.opened earlier := tracks.count ▸ (List.getElem?_eq_some_iff.1 was).1
    split
    · rename_i same
      exact ⟨capacity, by simp [dropped, same, known], all⟩
    · rename_i other
      exact ⟨capacity, by simp [dropped, other, abandoned], all⟩
  unopened inbox unopened := by
    obtain ⟨silent, kept, yielded, meant⟩ := tracks.unopened inbox unopened
    refine ⟨silent, ?_, yielded, meant⟩
    have late : ¬inbox < c.opened earlier := Nat.not_lt.2 unopened
    simp [dropped, kept, late]

/-- The inboxes are tracked through any event. -/
theorem Tracks.cons (tracks : c.Tracks earlier) (valid : (c.after earlier).Valid)
    (event : Event κ α) : c.Tracks (event :: earlier) := by
  have capacity := (handle_move valid event).inboxCapacity
  cases event with
  | indicate slots => exact tracks.indicate slots
  | register => exact tracks.register
  | unregister => exact tracks.unregister
  | read number => exact tracks.read number
  | abandon number => exact tracks.abandon number
  | _ =>
    exact tracks.unnoticed capacity (indications_handle_of_not_listens _ rfl) rfl rfl
      (fun _ => rfl) (fun _ => rfl) (fun _ => rfl)

end Tracks

theorem tracks (settings : Settings) (events : List (Event κ α)) :
    (ofSettings settings).Tracks events := by
  induction events with
  | nil => exact tracks_nil rfl
  | cons event earlier ih => exact ih.cons ((valid_ofSettings settings).after earlier) event

/-! ## What is meant for an inbox -/

variable (c : Client κ α) {inbox : Nat} {events : List (Event κ α)}

/-- What is meant for an inbox has arrived, in the same order. -/
theorem meant_sublist_arrived (inbox : Nat) (events : List (Event κ α)) :
    (c.meant inbox events).Sublist (Event.arrived events) := by
  induction events with
  | nil => exact List.Sublist.refl _
  | cons event earlier ih =>
    cases event with
    | indicate slots =>
      simp only [meant, Event.arrived, List.filterMap_cons, Event.indication?, List.reverse_cons]
      split
      · exact ih.append (List.Sublist.refl _)
      · exact ih.trans (List.sublist_append_left _ _)
    | _ => exact ih

/-- An inbox whose registration has ended is meant nothing any more. -/
theorem silent_cons (known : inbox < c.opened events) (silent : c.listening events ≠ some inbox)
    (event : Event κ α) :
    inbox < c.opened (event :: events) ∧ c.listening (event :: events) ≠ some inbox ∧
      c.meant inbox (event :: events) = c.meant inbox events := by
  cases event with
  | register =>
    simp only [opened, listening, meant]
    split
    · refine ⟨Nat.lt_succ_of_lt known, fun same => ?_, trivial⟩
      exact Nat.ne_of_gt known (Option.some.inj same)
    · exact ⟨known, silent, trivial⟩
  | unregister => exact ⟨known, nofun, rfl⟩
  | indicate slots => exact ⟨known, silent, if_neg fun takes => silent takes.1⟩
  | _ => exact ⟨known, silent, rfl⟩

/-- An inbox that no longer listens never does so again, and nothing more is meant for it. -/
theorem silent_append (known : inbox < c.opened events)
    (silent : c.listening events ≠ some inbox) (later : List (Event κ α)) :
    inbox < c.opened (later ++ events) ∧ c.listening (later ++ events) ≠ some inbox ∧
      c.meant inbox (later ++ events) = c.meant inbox events := by
  induction later with
  | nil => exact ⟨known, silent, rfl⟩
  | cons event later ih =>
    obtain ⟨known, silent, same⟩ := ih
    obtain ⟨known, silent, same'⟩ := c.silent_cons known silent event
    exact ⟨known, silent, same'.trans same⟩

/-! ## What an inbox yields -/

section Yielded

variable {c}

/-- Reads find what is meant for an inbox from the first indication on, with none left out. -/
theorem Tracks.meant_extends_yielded (tracks : c.Tracks events) (inbox : Nat) :
    c.yielded inbox events <+: c.meant inbox events := by
  cases found : (c.after events).indications.inboxes[inbox]? with
  | none =>
    rw [List.getElem?_eq_none_iff, tracks.count] at found
    rw [(tracks.unopened inbox found).2.2.1]
    exact List.nil_prefix
  | some box => exact ⟨box.unread, (tracks.inbox inbox box found).2.2⟩

/-- A read takes one more of what is meant for the inbox. -/
theorem Tracks.yielded_read (tracks : c.Tracks events) (inbox : Nat) :
    c.yielded inbox (.read inbox :: events) =
      (c.meant inbox events).take ((c.yielded inbox events).length + 1) := by
  obtain ⟨rest, all⟩ := tracks.meant_extends_yielded inbox
  simp only [yielded, if_true, tracks.peek]
  rw [← all, List.drop_left, List.take_length_add_append]
  cases rest with
  | nil => simp [Reading.slots?_of_nothing]
  | cons => rfl

/-- Reads take what is meant for an inbox in order, until nothing is left. -/
theorem yielded_append (tracks : ∀ events, c.Tracks events) (known : inbox < c.opened events)
    (silent : c.listening events ≠ some inbox) (later : List (Event κ α)) :
    c.yielded inbox (later ++ events) = (c.meant inbox events).take
      ((c.yielded inbox events).length + later.countP (Event.reads inbox)) := by
  induction later with
  | nil => exact List.prefix_iff_eq_take.1 ((tracks events).meant_extends_yielded inbox)
  | cons event later ih =>
    obtain ⟨-, -, same⟩ := c.silent_append known silent later
    have other (foreign : event.reads inbox = false) :
        c.yielded inbox (event :: (later ++ events)) = c.yielded inbox (later ++ events) := by
      cases event with
      | read number => exact if_neg (of_decide_eq_false foreign)
      | _ => rfl
    rw [List.cons_append, List.countP_cons]
    cases reads : event.reads inbox with
    | false => rw [other reads, ih]; rfl
    | true =>
      obtain rfl : event = .read inbox := by
        cases event with
        | read number => rw [of_decide_eq_true reads]
        | _ => cases reads
      rw [(tracks _).yielded_read, same, ih, List.length_take, if_pos rfl]
      rcases Nat.le_total ((c.yielded inbox events).length + later.countP (Event.reads inbox))
        (c.meant inbox events).length with below | above
      · rw [Nat.min_eq_left below, Nat.add_assoc]
      · rw [Nat.min_eq_right above, List.take_of_length_le (Nat.le_succ _),
          List.take_of_length_le (by omega)]

/-- An indication that is meant for no inbox changes nothing. -/
theorem Tracks.indicate_eq (tracks : c.Tracks events) {slots : List SlotStatus}
    (discarded : ∀ inbox, c.meant inbox (.indicate slots :: events) = c.meant inbox events) :
    (c.after events).indications.deliver slots = (c.after events).indications := by
  unfold Indications.deliver
  split
  · rfl
  · rename_i inbox registered
    rw [tracks.registered] at registered
    have unchanged : (c.after events).indications.inboxes.modify inbox (·.push slots) =
        (c.after events).indications.inboxes := by
      refine List.ext_getElem? fun number => ?_
      rw [List.getElem?_modify]
      cases found : (c.after events).indications.inboxes[number]? with
      | none => rfl
      | some box =>
        by_cases same : inbox = number
        · subst same
          obtain ⟨-, -, all⟩ := tracks.inbox inbox box found
          have all' := tracks.push found registered slots
          rw [discarded, ← all, List.append_cancel_left_eq] at all'
          have kept : box.push slots = box := (box.push_eq slots).trans (by rw [all'])
          simp [kept]
        · simp [same]
    rw [unchanged]

end Yielded

/-! ## Everything together -/

/-- Whatever befalls a client: what is meant for an inbox has arrived in this order, the inbox
yields it one after another, and a look into it finds what comes next. An indication changes nothing
but inboxes, and nothing at all if it is meant for none. Once a registration has ended, nothing more
is meant for its inbox; each read still takes one of the rest, and then the end is reported. -/
theorem indications_delivered (settings : Settings) (events : List (Event κ α)) (inbox : Nat) :
    let c : Client κ α := ofSettings settings
    (c.meant inbox events).Sublist (Event.arrived events) ∧
    c.yielded inbox events <+: c.meant inbox events ∧
    (c.after events).indications.peek inbox =
      (match (c.meant inbox events).drop (c.yielded inbox events).length with
      | next :: _ => .slots next
      | [] => if c.listening events = some inbox then .empty else .closed) ∧
    (∀ slots, ∃ indications,
      (c.after events).handle (.indicate slots) = ({ c.after events with indications }, []) ∧
        ((∀ other, c.meant other (.indicate slots :: events) = c.meant other events) →
          indications = (c.after events).indications)) ∧
    (inbox < c.opened events → c.listening events ≠ some inbox → ∀ later,
      c.meant inbox (later ++ events) = c.meant inbox events ∧
      c.yielded inbox (later ++ events) = (c.meant inbox events).take
        ((c.yielded inbox events).length + later.countP (Event.reads inbox)) ∧
      (c.after (later ++ events)).indications.peek inbox =
        match (c.meant inbox events).drop (c.yielded inbox (later ++ events)).length with
        | next :: _ => .slots next
        | [] => .closed) := by
  intro c
  have follows (events : List (Event κ α)) : c.Tracks events := tracks settings events
  refine ⟨c.meant_sublist_arrived inbox events, (follows events).meant_extends_yielded inbox,
    (follows events).peek inbox, fun slots => ⟨_, rfl, (follows events).indicate_eq⟩,
    fun known silent later => ?_⟩
  obtain ⟨-, silent', same⟩ := c.silent_append known silent later
  refine ⟨same, yielded_append follows known silent later, ?_⟩
  rw [(follows (later ++ events)).peek, same]
  simp [silent']

/-- An inbox that has been replaced yields what it holds, and then ends; what comes after its
replacement goes to the other one. -/
theorem indications_delivered_of_replaced (first second : List SlotStatus) :
    let c : Client Nat Nat := ofSettings .standard
    let events : List (Event Nat Nat) :=
      [.indicate second, .register, .indicate first, .register]
    (c.after events).indications.peek 0 = .slots first ∧
      (c.after (.read 0 :: events)).indications.peek 0 = .closed ∧
      (c.after events).indications.peek 1 = .slots second := by
  intro c events
  obtain ⟨-, -, holds, -, ends⟩ := indications_delivered .standard events 0
  have fits : c.inboxCapacity ≤ Inbox.maxCapacity := by decide
  have known : 0 < c.opened events := by simp [events, opened, fits]
  have silent : c.listening events ≠ some 0 := by simp [events, opened, listening, fits]
  obtain ⟨-, -, closed⟩ := ends known silent [.read 0]
  exact ⟨holds, closed, (indications_delivered .standard events 1).2.2.1⟩

end Client

end Baseband
