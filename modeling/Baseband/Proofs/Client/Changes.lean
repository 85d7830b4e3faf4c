import Baseband.Proofs.Client.Commands
import Baseband.Proofs.Client.Validity
import Baseband.Proofs.Outstanding

/-!
# How the session and the table of requests change

A move keeps the session, installs one where there was none, or ends the one there was. A call
enters its request into the table only with a session, the cached one, and in the same move the
request is sent over its connection. All other moves of calls only take requests out.

## Main statements

* `Move.session`: how a move changes the session, and which registrations it makes.
* `Move.table`: how a move changes the table, and what it sends.
-/

namespace Baseband

variable {κ α : Type}

namespace Client

/-! ## The session

Only an installation counts, and only an installation has a death registration made: one, over the
new connection, under the new number. -/

open Command (collect link? send?)

/-- How a move changes the session, and the registrations that it has made. -/
inductive SessionChange (c c' : Client κ α) : List (α × Nat) → Prop
  | kept (session : c'.session = c.session) (generation : c'.generation = c.generation) :
      SessionChange c c' []
  | installed (session : Session α) (none : c.session = none) (cached : c'.session = some session)
      (next : session.generation = c.generation + 1) (generation : c'.generation = c.generation + 1)
      (table : c'.outstanding = c.outstanding) :
      SessionChange c c' [(session.connection, session.generation)]
  | ended {session : Session α} (cached : c.session = some session) (none : c'.session = none)
      (generation : c'.generation = c.generation) (table : c'.outstanding = c.outstanding.clear) :
      SessionChange c c' []

/-- A call that ends touches neither the session nor the counter of sessions. -/
theorem Conclusion.session {c c' : Client κ α} {id : CallId} {goal : Goal κ}
    {commands : List (Command κ α)} (conclusion : Conclusion c id goal c' commands) :
    c'.session = c.session ∧ c'.generation = c.generation ∧ collect link? commands = [] := by
  cases conclusion <;> exact ⟨rfl, rfl, rfl⟩

/-- Only the end of a lookup installs a session, and only over no session. -/
theorem Move.session {c c' : Client κ α} {event : Event κ α} {commands : List (Command κ α)}
    (move : Move c event c' commands) : SessionChange c c' (collect link? commands) := by
  cases move with
  | ignore | listen | answer | submit | take | startAt | queue | look | rest | route | abandonLost
  | sent | stranded | resolved | cancelSend => exact .kept rfl rfl
  | flush | breakOff | forsake | withdraw => simpa using .kept rfl rfl
  | lose _ cached => simpa using .ended cached rfl rfl rfl
  | conclude unused conclusion =>
    obtain ⟨session, generation, none⟩ := conclusion.session
    rw [none]
    exact .kept session generation
  | @install id goal version connection inside none =>
    exact .installed ⟨version, connection, c.generation + 1⟩ none rfl rfl rfl rfl
  | abandon inside cached => simpa using .ended cached rfl rfl rfl
  | leave inside conclusion =>
    obtain ⟨session, generation, none⟩ := conclusion.session
    simpa [none] using .kept session generation
  | unsent _ _ current =>
    obtain ⟨session, cached, -⟩ := isCurrent_iff.1 current
    simpa using .ended cached rfl rfl rfl

/-! ## The table -/

/-- The call is about to get or has got what it connects for. -/
def Asks (c : Client κ α) (event : Event κ α) (id : CallId) (goal : Goal κ) : Prop :=
  event = .call id goal ∨ ∃ stage, c.call? id = some (.connecting goal stage)

inductive TableChange (c : Client κ α) (event : Event κ α) (c' : Client κ α) :
    List (Sending α) → Prop
  | kept (table : c'.outstanding = c.outstanding) : TableChange c event c' []
  | erased {serial : Serial} (table : c'.outstanding = c.outstanding.erase serial) :
      TableChange c event c' []
  | cleared (table : c'.outstanding = c.outstanding.clear) : TableChange c event c' []
  | startedAt {serial : Serial} (direct : event = .setNextSerial serial)
      (table : c'.outstanding = c.outstanding.startAt serial) : TableChange c event c' []
  | submitted {op : Operation} {completion : κ} {attribution : Attribution}
      (direct : event = .submit op completion attribution)
      (table : c'.outstanding = (c.outstanding.submit op completion attribution).2) :
      TableChange c event c' []
  | accepted {id : CallId} {query : Query} {completion : κ} {session : Session α}
      (asks : c.Asks event id (.request query completion)) (cached : c.session = some session)
      (stays : c'.session = some session)
      (table : c'.outstanding =
        (c.outstanding.submit query.operation completion c.attribution).2) :
      TableChange c event c'
        [⟨id, session.connection, c.outstanding.freeSerial, query.operation, query.payload⟩]

theorem Inside.asks {c : Client κ α} {event : Event κ α} {id : CallId} {goal : Goal κ} {gate : Gate}
    (inside : Inside c event id goal gate) : c.Asks event id goal := by
  rcases inside.origin with ⟨call, -⟩ | ⟨-, -, found⟩
  · exact .inl call
  · exact .inr found

/-- The base is the client itself, up to what a request does not look at. -/
theorem Conclusion.table {c d c' : Client κ α} {event : Event κ α} {id : CallId} {goal : Goal κ}
    {commands : List (Command κ α)} (conclusion : Conclusion d id goal c' commands)
    (asks : c.Asks event id goal) (session : d.session = c.session)
    (outstanding : d.outstanding = c.outstanding) (attribution : d.attribution = c.attribution) :
    TableChange c event c' (collect send? commands) := by
  cases conclusion with
  | found | told | unavailable | unsupported => exact .kept outstanding
  | accepted cached supports =>
    rw [session] at cached
    simp only [Command.collect_cons, Command.collect_nil, send?, Option.toList_some,
      List.append_nil, outstanding, attribution]
    exact .accepted asks cached (session.trans cached) rfl

/-- Every move changes the table in one of the ways listed, and sends what goes with that way. -/
theorem Move.table {c c' : Client κ α} {event : Event κ α} {commands : List (Command κ α)}
    (move : Move c event c' commands) : TableChange c event c' (collect send? commands) := by
  cases move with
  | ignore | listen | queue | look | rest | install | route | abandonLost
  | sent | resolved | cancelSend => exact .kept rfl
  | answer => exact .erased rfl
  | take => exact .erased rfl
  | stranded => exact .erased rfl
  | submit => exact .submitted rfl rfl
  | startAt => exact .startedAt rfl rfl
  | lose | flush | abandon | unsent => simpa using .cleared rfl
  | conclude unused conclusion => exact conclusion.table (.inl rfl) rfl rfl rfl
  | leave inside conclusion => simpa using conclusion.table inside.asks rfl rfl rfl
  | breakOff | forsake | withdraw => simpa using .kept rfl

/-- No change of the table lets a request stand under another's serial. -/
theorem TableChange.sound {c c' : Client κ α} {event : Event κ α} {sent : List (Sending α)}
    (change : TableChange c event c' sent) (sound : c.outstanding.Sound) :
    c'.outstanding.Sound := by
  cases change with
  | kept table => rw [table]; exact sound
  | erased table => rw [table]; exact sound.erase _
  | cleared table => rw [table]; exact Outstanding.sound_clear _
  | startedAt _ table => rw [table]; exact sound
  | submitted _ table => rw [table]; exact sound.submit _ _ _
  | accepted _ _ _ table => rw [table]; exact sound.submit _ _ _

/-- Requests that were entered one after another stay apart. -/
theorem TableChange.agesApart {c c' : Client κ α} {event : Event κ α} {sent : List (Sending α)}
    (change : TableChange c event c' sent) (sound : c.outstanding.Sound)
    (apart : c.outstanding.AgesApart) : c'.outstanding.AgesApart := by
  cases change with
  | kept table => rw [table]; exact apart
  | erased table => rw [table]; exact apart.erase _
  | cleared table => rw [table]; exact Outstanding.agesApart_clear _
  | startedAt _ table => rw [table]; exact apart
  | submitted _ table => rw [table]; exact apart.submit sound _ _ _
  | accepted _ _ _ table => rw [table]; exact apart.submit sound _ _ _

/-- A request in the table was there before, or it has just been entered: by itself or by a call. -/
theorem TableChange.entered {c c' : Client κ α} {event : Event κ α} {sent : List (Sending α)}
    (change : TableChange c event c' sent) {request : Request κ}
    (listed : request ∈ c'.outstanding.toList) :
    request ∈ c.outstanding.toList ∨
      event = .submit request.operation request.completion request.attribution ∨
      ∃ id query, c.Asks event id (.request query request.completion) ∧
        request.operation = query.operation := by
  cases change with
  | kept table => exact .inl (table ▸ listed)
  | erased table => exact .inl (Outstanding.mem_erase (table ▸ listed))
  | cleared table => simp [table] at listed
  | startedAt _ table =>
    rw [table] at listed
    exact .inl listed
  | submitted direct table =>
    rw [table] at listed
    rcases Outstanding.mem_submit listed with before | rfl
    · exact .inl before
    · exact .inr (.inl direct)
  | accepted asks _ _ table =>
    rw [table] at listed
    rcases Outstanding.mem_submit listed with before | rfl
    · exact .inl before
    · exact .inr (.inr ⟨_, _, asks, rfl⟩)

/-- A call has entered a request into the table, and sends it over the cached session. -/
structure Registered (c : Client κ α) (event : Event κ α) (c' : Client κ α) (request : Request κ)
    (sending : Sending α) : Prop where
  session : ∃ session, c.session = some session ∧ c'.session = some session ∧
    sending.connection = session.connection
  age : request.age = c.outstanding.nextAge
  serial : sending.serial = request.serial
  operation : sending.operation = request.operation
  asked : ∃ query, c.Asks event sending.id (.request query request.completion) ∧
    request.operation = query.operation

/-- A request in the table was there before, or a call has just entered it. -/
theorem TableChange.origin {c c' : Client κ α} {event : Event κ α} {sent : List (Sending α)}
    (change : TableChange c event c' sent)
    (calls : ∀ op completion attribution, event ≠ .submit op completion attribution)
    {request : Request κ} (listed : request ∈ c'.outstanding.toList) :
    request ∈ c.outstanding.toList ∨ ∃ sending ∈ sent, Registered c event c' request sending := by
  cases change with
  | kept table => exact .inl (table ▸ listed)
  | erased table => exact .inl (Outstanding.mem_erase (table ▸ listed))
  | cleared table => simp [table] at listed
  | startedAt _ table =>
    rw [table] at listed
    exact .inl listed
  | submitted direct => exact absurd direct (calls _ _ _)
  | accepted asks cached stays table =>
    rw [table] at listed
    rcases Outstanding.mem_submit listed with before | rfl
    · exact .inl before
    · exact .inr ⟨_, List.mem_singleton.2 rfl,
        ⟨⟨_, cached, stays, rfl⟩, rfl, rfl, rfl, ⟨_, asks, rfl⟩⟩⟩

/-- What is sent is what a call asks for. -/
theorem TableChange.asked {c c' : Client κ α} {event : Event κ α} {sent : List (Sending α)}
    (change : TableChange c event c' sent) {sending : Sending α} (listed : sending ∈ sent) :
    ∃ query completion, c.Asks event sending.id (.request query completion) ∧
      sending.operation = query.operation ∧ sending.payload = query.payload := by
  cases change with
  | kept | erased | cleared | startedAt | submitted => cases listed
  | accepted asks =>
    obtain rfl := List.mem_singleton.1 listed
    exact ⟨_, _, asks, rfl, rfl⟩

/-- The count of requests entered never goes back. -/
theorem TableChange.age_le {c c' : Client κ α} {event : Event κ α} {sent : List (Sending α)}
    (change : TableChange c event c' sent) :
    c.outstanding.nextAge ≤ c'.outstanding.nextAge := by
  cases change with
  | kept table | erased table | cleared table | startedAt _ table =>
    exact Nat.le_of_eq (congrArg (·.nextAge) table).symm
  | submitted _ table | accepted _ _ _ table =>
    have next : c'.outstanding.nextAge = c.outstanding.nextAge + 1 := congrArg (·.nextAge) table
    omega

/-- While serials are left that have not been issued, a request gets the next one. -/
theorem TableChange.counting {c c' : Client κ α} {event : Event κ α} {sent : List (Sending α)}
    (change : TableChange c event c' sent)
    (calls : ∀ op completion attribution, event ≠ .submit op completion attribution)
    (stays : ∀ serial, event ≠ .setNextSerial serial) (sound : c.outstanding.Sound)
    (counting : c.outstanding.Counting) (fewer : c.outstanding.nextAge < Serial.count) :
    c'.outstanding.Counting ∧
      (c'.outstanding.nextAge = c.outstanding.nextAge ∧ sent = [] ∨
        c'.outstanding.nextAge = c.outstanding.nextAge + 1 ∧
          sent.map (·.serial.value.toNat) = [c.outstanding.nextAge + 1]) := by
  cases change with
  | kept table =>
    rw [table]
    exact ⟨counting, .inl ⟨rfl, rfl⟩⟩
  | erased table =>
    rw [table]
    exact ⟨counting.erase _, .inl ⟨rfl, rfl⟩⟩
  | cleared table =>
    rw [table]
    exact ⟨counting.clear, .inl ⟨rfl, rfl⟩⟩
  | startedAt direct => exact absurd direct (stays _)
  | submitted direct => exact absurd direct (calls _ _ _)
  | accepted _ _ _ table =>
    rw [table]
    refine ⟨counting.submit sound fewer _ _ _, .inr ⟨rfl, ?_⟩⟩
    rw [List.map_singleton, (counting.freeSerial sound fewer).2]

/-! ## Calls -/

def Continues (c : Client κ α) (event : Event κ α) (id : CallId) (call : Call κ α) : Prop :=
  (id, call) ∈ c.calls ∨
    ∃ goal, c.Asks event id goal ∧ ∀ goal' stage, call = .connecting goal' stage → goal' = goal

theorem continues_of_put {c d : Client κ α} {event : Event κ α} {id own : CallId} {call : Call κ α}
    {goal : Goal κ} {stage : Stage α} (asks : c.Asks event own goal) (calls : d.calls = c.calls)
    (listed : (id, call) ∈ (d.putCall own (.connecting goal stage)).calls) :
    c.Continues event id call := by
  rcases mem_calls_putCall.1 listed with ⟨listed, -⟩ | ⟨rfl, rfl⟩
  · exact .inl (calls ▸ listed)
  · refine .inr ⟨goal, asks, ?_⟩
    rintro _ _ ⟨⟩
    rfl

theorem Conclusion.continues {c d c' : Client κ α} {event : Event κ α} {id own : CallId}
    {call : Call κ α} {goal : Goal κ} {commands : List (Command κ α)}
    (conclusion : Conclusion d own goal c' commands) (asks : c.Asks event own goal)
    (calls : ∀ entry ∈ d.calls, entry ∈ c.calls) (listed : (id, call) ∈ c'.calls) :
    c.Continues event id call := by
  cases conclusion with
  | found | told | unavailable | unsupported => exact .inl (calls _ listed)
  | accepted =>
    rcases mem_calls_putCall.1 listed with ⟨listed, -⟩ | ⟨rfl, rfl⟩
    · exact .inl (calls _ listed)
    · refine .inr ⟨_, asks, ?_⟩
      rintro _ _ ⟨⟩

/-- No move makes a call out of nothing, or lets one connect for something else than it was asked
for. -/
theorem Move.continues {c c' : Client κ α} {event : Event κ α} {commands : List (Command κ α)}
    (move : Move c event c' commands) {id : CallId} {call : Call κ α}
    (listed : (id, call) ∈ c'.calls) : c.Continues event id call := by
  cases move with
  | ignore | listen | lose | answer | submit | take | flush | startAt => exact .inl listed
  | conclude unused conclusion =>
    exact conclusion.continues (.inl rfl) (fun _ listed => listed) listed
  | queue => exact continues_of_put (.inl rfl) rfl listed
  | look inside => exact continues_of_put inside.asks rfl listed
  | rest inside => exact continues_of_put inside.asks rfl listed
  | install inside => exact continues_of_put inside.asks rfl listed
  | route inside => exact continues_of_put inside.asks rfl listed
  | abandon inside => exact continues_of_put (d := c.lost) inside.asks rfl listed
  | abandonLost inside => exact continues_of_put inside.asks rfl listed
  | leave inside conclusion =>
    exact conclusion.continues inside.asks mem_calls_of_mem_dropCall listed
  | breakOff | forsake | withdraw | sent | unsent | stranded | resolved | cancelSend =>
    exact .inl (mem_calls_of_mem_dropCall _ listed)

end Client

end Baseband
