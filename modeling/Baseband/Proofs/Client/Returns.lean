import Baseband.Proofs.Client.Changes

/-!
# What calls return

A call that acquires a session returns in the very move in which it has its session or knows that
there is none, so what it returns is what is cached then. Over any events, the sessions returned
come in the order of their numbers, and a session that has ended is not returned any more.
-/

namespace Baseband

variable {κ α : Type}

namespace Command

@[simp] def answer? : Command κ α → Option (CallId × Answer α)
  | .finish id answer => some (id, answer)
  | _ => none

@[simp] def returned? : Command κ α → Option (CallId × Except Error (Session α))
  | .finish id (.session found) => some (id, found)
  | _ => none

@[simp] def acquired? : Command κ α → Option (Session α)
  | .finish _ (.session (.ok session)) => some session
  | _ => none

theorem mem_collect_returned {commands : List (Command κ α)} {id : CallId}
    {found : Except Error (Session α)} :
    (id, found) ∈ collect returned? commands ↔ .finish id (.session found) ∈ commands := by
  simp only [collect, List.mem_filterMap]
  constructor
  · rintro ⟨command, listed, same⟩
    unfold returned? at same
    split at same <;> cases same
    exact listed
  · intro listed
    exact ⟨_, listed, rfl⟩

theorem mem_collect_acquired {commands : List (Command κ α)} {session : Session α} :
    session ∈ collect acquired? commands ↔
      ∃ id, .finish id (.session (.ok session)) ∈ commands := by
  simp only [collect, List.mem_filterMap]
  constructor
  · rintro ⟨command, listed, same⟩
    unfold acquired? at same
    split at same <;> cases same
    exact ⟨_, listed⟩
  · rintro ⟨id, listed⟩
    exact ⟨_, listed, rfl⟩

end Command

namespace Client

open Command (collect answer? returned? acquired?)

/-! ## Histories -/

/-- The client after events, the latest first. -/
def after (c : Client κ α) : List (Event κ α) → Client κ α
  | [] => c
  | event :: earlier => ((c.after earlier).handle event).1

/-- The commands that events leave, in order. The events are listed with the latest first. -/
def left (c : Client κ α) : List (Event κ α) → List (Command κ α)
  | [] => []
  | event :: earlier => c.left earlier ++ ((c.after earlier).handle event).2

@[simp] theorem after_nil (c : Client κ α) : c.after [] = c :=
  rfl

@[simp] theorem after_cons (c : Client κ α) (event : Event κ α) (earlier : List (Event κ α)) :
    c.after (event :: earlier) = ((c.after earlier).handle event).1 :=
  rfl

@[simp] theorem left_nil (c : Client κ α) : c.left [] = [] :=
  rfl

@[simp] theorem left_cons (c : Client κ α) (event : Event κ α) (earlier : List (Event κ α)) :
    c.left (event :: earlier) = c.left earlier ++ ((c.after earlier).handle event).2 :=
  rfl

theorem after_append (c : Client κ α) (later earlier : List (Event κ α)) :
    c.after (later ++ earlier) = (c.after earlier).after later := by
  induction later with
  | nil => rfl
  | cons event later ih => rw [List.cons_append, after_cons, after_cons, ih]

theorem left_append (c : Client κ α) (later earlier : List (Event κ α)) :
    c.left (later ++ earlier) = c.left earlier ++ (c.after earlier).left later := by
  induction later with
  | nil => rw [List.nil_append, left_nil, List.append_nil]
  | cons event later ih =>
    rw [List.cons_append, left_cons, left_cons, ih, after_append, List.append_assoc]

theorem Valid.after {c : Client κ α} (valid : c.Valid) (events : List (Event κ α)) :
    (c.after events).Valid := by
  induction events with
  | nil => exact valid
  | cons event earlier ih => exact ih.handle event

/-- The count of requests never goes back. -/
theorem Valid.nextAge_le_after {c : Client κ α} (valid : c.Valid) (events : List (Event κ α)) :
    c.outstanding.nextAge ≤ (c.after events).outstanding.nextAge := by
  induction events with
  | nil => exact Nat.le_refl _
  | cons event earlier ih =>
    exact Nat.le_trans ih (handle_move (valid.after earlier) event).table.age_le

/-! ## Returns -/

def NobodyInside (c : Client κ α) : Prop :=
  ∀ id goal stage, (id, .connecting goal stage) ∈ c.calls → stage = .queued

theorem cached_eq_ok {c : Client κ α} {session : Session α} :
    c.cached = .ok session ↔ c.session = some session := by
  unfold cached
  cases c.session <;> simp

/-- The only error for a call that does not look for a session is that there is none. -/
theorem cached_eq_error {c : Client κ α} {why : Error} :
    c.cached = .error why ↔ why = .unavailable ∧ c.session = none := by
  unfold cached
  cases c.session <;> simp [eq_comm]

/-- An acquiring call that ends returns what is cached, and nobody else returns a session. -/
theorem Conclusion.returned {c c' : Client κ α} {id : CallId} {goal : Goal κ}
    {commands : List (Command κ α)} (conclusion : Conclusion c id goal c' commands) :
    collect returned? commands = [] ∨
      goal = .acquire ∧ c' = c ∧ collect returned? commands = [(id, c.cached)] := by
  cases conclusion with
  | found => exact .inr ⟨rfl, rfl, rfl⟩
  | told | unavailable | unsupported | accepted => exact .inl rfl

/-- A move in which a call returns is that of the call, which returns what is cached then. It has
just begun, or it leaves nobody past the gate. -/
theorem Move.returned {c c' : Client κ α} {event : Event κ α} {commands : List (Command κ α)}
    (move : Move c event c' commands) :
    collect returned? commands = [] ∨
      ∃ id, c.Asks event id .acquire ∧ collect returned? commands = [(id, c'.cached)] ∧
        (c.call? id = none ∨ c'.NobodyInside) := by
  cases move with
  | ignore | listen | answer | submit | take | startAt | queue | look | rest | install | route
  | abandonLost | sent | stranded | resolved | cancelSend => exact .inl rfl
  | lose | flush | abandon | breakOff | forsake | withdraw | unsent => exact .inl (by simp)
  | conclude unused conclusion =>
    rcases conclusion.returned with none | ⟨rfl, rfl, one⟩
    · exact .inl none
    · exact .inr ⟨_, .inl rfl, one, .inl unused⟩
  | leave inside conclusion =>
    rcases conclusion.returned with none | ⟨rfl, rfl, one⟩
    · exact .inl (by simp [none])
    · refine .inr ⟨_, inside.asks, by simp [one], .inr fun other goal stage listed => ?_⟩
      obtain ⟨listed, differ⟩ := mem_calls_dropCall.1 listed
      exact inside.alone other goal stage listed differ

/-- Whatever an acquiring call returns is what is cached after the move. -/
theorem Move.cached_of_returned {c c' : Client κ α} {event : Event κ α}
    {commands : List (Command κ α)} (move : Move c event c' commands) {id : CallId}
    {found : Except Error (Session α)} (returned : .finish id (.session found) ∈ commands) :
    found = c'.cached := by
  have listed := Command.mem_collect_returned.2 returned
  rcases move.returned with none | ⟨other, -, one, -⟩
  · rw [none] at listed
    cases listed
  · rw [one, List.mem_singleton] at listed
    exact congrArg Prod.snd listed

/-- A session is returned only while it is the cached one. -/
theorem Move.session_of_acquired {c c' : Client κ α} {event : Event κ α}
    {commands : List (Command κ α)} (move : Move c event c' commands) {session : Session α}
    (acquired : session ∈ collect acquired? commands) : c'.session = some session := by
  obtain ⟨id, returned⟩ := Command.mem_collect_acquired.1 acquired
  exact cached_eq_ok.1 (move.cached_of_returned returned).symm

/-- What a call that connects for a goal is told by a client, unless it sends a request. -/
inductive Tells (c : Client κ α) : Goal κ → Answer α → Prop
  | session : Tells c .acquire (.session c.cached)
  | supports (op : Operation) : Tells c (.supports op) (.supports (c.session.any (·.supports op)))
  | unavailable {query : Query} {completion : κ} (none : c.session = none) :
      Tells c (.request query completion) (.request (.error .unavailable))
  | unsupported {query : Query} {completion : κ} {session : Session α}
      (cached : c.session = some session) (lacks : session.supports query.operation = false) :
      Tells c (.request query completion)
        (.request (.error (.notSupported query.operation session.version)))

/-- A call that ends is told what the client has for its goal. -/
theorem Conclusion.tells {c c' : Client κ α} {id : CallId} {goal : Goal κ}
    {commands : List (Command κ α)} (conclusion : Conclusion c id goal c' commands) :
    collect answer? commands = [] ∨
      ∃ answer, c'.Tells goal answer ∧ collect answer? commands = [(id, answer)] := by
  cases conclusion with
  | found => exact .inr ⟨_, .session, rfl⟩
  | told op => exact .inr ⟨_, .supports op, rfl⟩
  | unavailable none => exact .inr ⟨_, .unavailable none, rfl⟩
  | unsupported cached lacks => exact .inr ⟨_, .unsupported cached lacks, rfl⟩
  | accepted => exact .inl rfl

/-- A call that returns without having sent a request is told what is so when it returns. -/
theorem Move.tells {c c' : Client κ α} {event : Event κ α} {commands : List (Command κ α)}
    (move : Move c event c' commands) {id : CallId} {answer : Answer α}
    (returned : .finish id answer ∈ commands) :
    (∃ serial, answer = .request (.ok serial)) ∨
      ∃ goal, c.Asks event id goal ∧ c'.Tells goal answer := by
  have listed : (id, answer) ∈ collect answer? commands :=
    List.mem_filterMap.2 ⟨_, returned, rfl⟩
  have concludes {d : Client κ α} {own : CallId} {goal : Goal κ} {rest : List (Command κ α)}
      (conclusion : Conclusion d own goal c' rest) (asks : c.Asks event own goal)
      (listed : (id, answer) ∈ collect answer? rest) :
      ∃ goal, c.Asks event id goal ∧ c'.Tells goal answer := by
    rcases conclusion.tells with none | ⟨told, tells, one⟩
    · rw [none] at listed
      cases listed
    · rw [one, List.mem_singleton] at listed
      cases listed
      exact ⟨goal, asks, tells⟩
  cases move with
  | ignore | listen | answer | submit | take | startAt | queue | look | rest | install | route
  | abandonLost | cancelSend => cases listed
  | lose | flush | abandon | breakOff | forsake | withdraw => simp at listed
  | sent | unsent | stranded | resolved =>
    simp at listed
    exact .inl ⟨_, listed.2⟩
  | conclude unused conclusion => exact .inr (concludes conclusion (.inl rfl) listed)
  | leave inside conclusion =>
    simp at listed
    exact .inr (concludes conclusion inside.asks listed)

/-- A request is sent over the session cached then. -/
theorem TableChange.over_cached {c c' : Client κ α} {event : Event κ α} {sent : List (Sending α)}
    (change : TableChange c event c' sent) {sending : Sending α} (listed : sending ∈ sent) :
    ∃ session, c'.session = some session ∧ session.connection = sending.connection := by
  cases change with
  | kept | erased | cleared | startedAt | submitted => cases listed
  | accepted _ _ stays =>
    obtain rfl := List.mem_singleton.1 listed
    exact ⟨_, stays, rfl⟩

/-! ## The order of the sessions returned -/

/-- The counter of sessions never goes back. -/
theorem SessionChange.generation_le {c c' : Client κ α} {links : List (α × Nat)}
    (change : SessionChange c c' links) : c.generation ≤ c'.generation := by
  cases change with
  | kept _ generation | ended _ _ generation => exact Nat.le_of_eq generation.symm
  | installed _ _ _ _ generation =>
    rw [generation]
    exact Nat.le_succ _

/-- A registration is made under the number of the latest session. -/
theorem SessionChange.numbered {c c' : Client κ α} {links : List (α × Nat)}
    (change : SessionChange c c' links) {link : α × Nat} (listed : link ∈ links) :
    link.2 = c'.generation := by
  cases change with
  | kept | ended => cases listed
  | installed session _ _ next generation =>
    obtain rfl := List.mem_singleton.1 listed
    exact next.trans generation.symm

/-- The sessions returned come in the order of their numbers. -/
theorem Valid.acquired_ordered {c : Client κ α} (valid : c.Valid) (events : List (Event κ α)) :
    (∀ session ∈ collect acquired? (c.left events),
      session.generation ≤ (c.after events).generation) ∧
    (collect acquired? (c.left events)).Pairwise fun session later =>
      session.generation ≤ later.generation := by
  induction events with
  | nil => exact ⟨nofun, .nil⟩
  | cons event earlier ih =>
    -- the sessions returned before are bounded by the count, which the new ones bear
    obtain ⟨bounded, ordered⟩ := ih
    have move := handle_move (valid.after earlier) event
    have now : ∀ session ∈ collect acquired? ((c.after earlier).handle event).2,
        session.generation = (c.after (event :: earlier)).generation := fun session acquired =>
      (valid.after (event :: earlier)).numbered session (move.session_of_acquired acquired)
    have grown := move.session.generation_le
    rw [left_cons, Command.collect_append]
    constructor
    · intro session listed
      rcases List.mem_append.1 listed with before | acquired
      · exact Nat.le_trans (bounded session before) grown
      · exact Nat.le_of_eq (now session acquired)
    · refine List.pairwise_append.2 ⟨ordered, ?_, ?_⟩
      · refine List.pairwise_of_forall_mem_list fun session acquired later acquired' => ?_
        exact Nat.le_of_eq ((now session acquired).trans (now later acquired').symm)
      · intro session before later acquired
        rw [now later acquired]
        exact Nat.le_trans (bounded session before) grown

/-- After a session has ended, the sessions cached and returned have greater numbers. -/
theorem Valid.acquired_anew {c : Client κ α} (valid : c.Valid) (none : c.session = none)
    (events : List (Event κ α)) :
    c.generation ≤ (c.after events).generation ∧
    (∀ session, (c.after events).session = some session → c.generation < session.generation) ∧
    ∀ session ∈ collect acquired? (c.left events), c.generation < session.generation := by
  induction events with
  | nil =>
    refine ⟨Nat.le_refl _, fun session cached => ?_, nofun⟩
    rw [after_nil, none] at cached
    cases cached
  | cons event earlier ih =>
    obtain ⟨grown, above, acquiredAbove⟩ := ih
    have move := handle_move (valid.after earlier) event
    have now : ∀ session, (c.after (event :: earlier)).session = some session →
        c.generation < session.generation := by
      intro session cached
      obtain ⟨links, change⟩ : ∃ links, SessionChange (c.after earlier) (c.after (event :: earlier))
        links := ⟨_, move.session⟩
      cases change with
      | kept same => exact above session (same.symm.trans cached)
      | installed new _ installed next =>
        obtain rfl : new = session := Option.some.inj (installed.symm.trans cached)
        rw [next]
        exact Nat.lt_succ_of_le grown
      | ended _ gone => cases gone.symm.trans cached
    refine ⟨Nat.le_trans grown move.session.generation_le, now, ?_⟩
    rw [left_cons, Command.collect_append]
    intro session listed
    rcases List.mem_append.1 listed with before | acquired
    · exact acquiredAbove session before
    · exact now session (move.session_of_acquired acquired)

end Client

end Baseband
