import Baseband.Proofs.Client.Setup

/-!
# Calls that send

A call that has its session is refused, or it registers its request and sends it. From then on it
waits for the send to return, and whatever that returns, and whatever happens meanwhile, the call
returns the serial of its request.
-/

namespace Baseband.Client

open Command (collect send?)

variable {κ α : Type} {c c' : Client κ α} {event : Event κ α} {commands : List (Command κ α)}
  {id : CallId} {session : Session α} {query : Query} {completion : κ}

/-! ## What a call does with a cached session -/

def enter (c : Client κ α) (op : Operation) (completion : κ) : Client κ α :=
  { c with outstanding := (c.outstanding.submit op completion c.attribution).2 }

section Cached

variable (unused : c.call? id = none) (supported : c.supported = true)
  (cached : c.session = some session)
include unused supported cached

/-- A call that begins has the session at once. -/
theorem handle_of_cached (goal : Goal κ) :
    c.handle (.call id goal) = c.conclude id goal (.ok session) := by
  simp [handle, begin, unused, supported, cached]

/-- A request of an operation that the cached session lacks is refused on the spot. -/
theorem handle_of_lacking (lacks : session.supports query.operation = false) :
    c.handle (.call id (.request query completion)) =
      c.refuse id completion (.notSupported query.operation session.version) := by
  rw [handle_of_cached unused supported cached]
  simp [conclude, lacks]

/-- A request of an operation that the cached session has is entered and sent on the spot. -/
theorem handle_of_supporting (supports : session.supports query.operation = true) :
    c.handle (.call id (.request query completion)) =
      ((c.enter query.operation completion).putCall id
          (.sending c.outstanding.freeSerial session.generation),
        [.send id session.connection c.outstanding.freeSerial query.operation query.payload]) := by
  rw [handle_of_cached unused supported cached]
  simp only [conclude, supports, if_true]
  rfl

end Cached

/-- With a session there is a service on the deployment. -/
theorem Valid.supported_of_cached (valid : c.Valid) (cached : c.session = some session) :
    c.supported = true := by
  by_contra unsupported
  rw [(valid.unsupported (by simpa using unsupported)).1] at cached
  cases cached

theorem dropCall_putCall (unused : c.call? id = none) (call : Call κ α) :
    (c.putCall id call).dropCall id = c := by
  have dropped : (c.dropCall id).calls = c.calls := dropCall_calls_of_unused unused
  have calls : ((c.putCall id call).dropCall id).calls = c.calls := by
    change List.filter _ ((c.dropCall id).calls ++ [(id, call)]) = c.calls
    rw [dropped, List.filter_append, List.filter_cons_of_neg (by simp), List.filter_nil,
      List.append_nil]
    exact dropped
  change { c with calls := ((c.putCall id call).dropCall id).calls } = c
  rw [calls]

/-- Once a request has been sent, nothing is left of the call. -/
theorem handle_sent (unused : c.call? id = none) (serial : Serial) (generation : Nat) :
    (c.putCall id (.sending serial generation)).handle (.sent id (.ok ())) =
      (c, [.finish id (.request (.ok serial))]) := by
  simp [handle, advance, call?_putCall, dropCall_putCall unused]

/-! ## What is sent -/

structure Backs (c : Client κ α) (sending : Sending α) (session : Session α) (request : Request κ) :
    Prop where
  cached : c.session = some session
  connection : session.connection = sending.connection
  supports : session.supports sending.operation = true
  found : c.outstanding.find? sending.serial = some request
  operation : request.operation = sending.operation

/-- Whatever a call sends when it ends is a request in the table, under the cached session. -/
theorem Conclusion.backs {goal : Goal κ} (conclusion : Conclusion c id goal c' commands)
    {sending : Sending α} (listed : sending ∈ collect send? commands) :
    ∃ session request, c'.Backs sending session request := by
  cases conclusion with
  | found | told | unavailable | unsupported => cases listed
  | accepted cached supports =>
    obtain rfl := List.mem_singleton.1 listed
    exact ⟨_, _, cached, rfl, supports, c.outstanding.find?_freeSerial _ _ _, rfl⟩

/-- When a request is sent, it is outstanding, and the session implements its operation. -/
theorem Move.backs (move : Move c event c' commands) {sending : Sending α}
    (listed : sending ∈ collect send? commands) :
    ∃ session request, c'.Backs sending session request := by
  cases move with
  | ignore | listen | answer | submit | take | startAt | queue | look | rest | install | route
  | abandonLost | sent | stranded | resolved | cancelSend => cases listed
  | lose | flush | abandon | breakOff | forsake | withdraw | unsent => simp at listed
  | conclude unused conclusion => exact conclusion.backs listed
  | leave inside conclusion =>
    rw [Command.collect_append, Command.collect_letIn] at listed
    exact conclusion.backs (by simpa using listed)

/-! ## Waiting for the send -/

structure Registers (c : Client κ α) (event : Event κ α) (c' : Client κ α) (id : CallId)
    (serial : Serial) (generation : Nat) (query : Query) (completion : κ) : Prop where
  asks : c.Asks event id (.request query completion)
  serial : serial = c.outstanding.freeSerial
  table : c'.outstanding = (c.outstanding.submit query.operation completion c.attribution).2
  current : c'.isCurrent generation = true

/-- A call that sends did so before, or it has just registered its request. -/
theorem Move.sending (move : Move c event c' commands) {serial : Serial} {generation : Nat}
    (listed : (id, .sending serial generation) ∈ c'.calls) :
    (id, .sending serial generation) ∈ c.calls ∨
      ∃ query completion, Registers c event c' id serial generation query completion := by
  have put {d : Client κ α} {own : CallId} {goal : Goal κ} {stage : Stage α}
      (calls : d.calls = c.calls)
      (listed : (id, .sending serial generation) ∈
        (d.putCall own (.connecting goal stage)).calls) :
      (id, .sending serial generation) ∈ c.calls := by
    rcases mem_calls_putCall.1 listed with ⟨listed, -⟩ | ⟨-, ⟨⟩⟩
    exact calls ▸ listed
  have concluded {d : Client κ α} {own : CallId} {goal : Goal κ} {rest : List (Command κ α)}
      (conclusion : Conclusion d own goal c' rest) (asks : c.Asks event own goal)
      (calls : ∀ entry ∈ d.calls, entry ∈ c.calls) (table : d.outstanding = c.outstanding)
      (attribution : d.attribution = c.attribution) :
      (id, .sending serial generation) ∈ c.calls ∨
        ∃ query completion, Registers c event c' id serial generation query completion := by
    cases conclusion with
    | found | told | unavailable | unsupported => exact .inl (calls _ listed)
    | accepted cached =>
      rcases mem_calls_putCall.1 listed with ⟨listed, -⟩ | ⟨rfl, same⟩
      · exact .inl (calls _ listed)
      · cases same
        refine .inr ⟨_, _, asks, by rw [table], ?_, isCurrent_iff.2 ⟨_, cached, rfl⟩⟩
        rw [putCall_outstanding, table, attribution]
  cases move with
  | ignore | listen | lose | answer | submit | take | flush | startAt => exact .inl listed
  | conclude unused conclusion =>
    exact concluded conclusion (.inl rfl) (fun _ listed => listed) rfl rfl
  | leave inside conclusion =>
    exact concluded conclusion inside.asks mem_calls_of_mem_dropCall rfl rfl
  | queue => exact .inl (put rfl listed)
  | look => exact .inl (put rfl listed)
  | rest => exact .inl (put rfl listed)
  | install => exact .inl (put rfl listed)
  | route => exact .inl (put rfl listed)
  | abandon => exact .inl (put (d := c.lost) rfl listed)
  | abandonLost => exact .inl (put rfl listed)
  | breakOff | forsake | withdraw | sent | unsent | stranded | resolved | cancelSend =>
    exact .inl (mem_calls_of_mem_dropCall _ listed)

/-- A call that sends minds only the return of the send. -/
theorem call?_handle_of_sending {serial : Serial} {generation : Nat}
    (sending : c.call? id = some (.sending serial generation))
    (waits : ∀ answer, event ≠ .sent id answer) (stays : event ≠ .cancel id) :
    (c.handle event).1.call? id = some (.sending serial generation) := by
  by_cases about : event.about? = some id
  · cases event with
    | sent _ answer =>
      cases about
      exact absurd rfl (waits answer)
    | cancel =>
      cases about
      exact absurd rfl stays
    | call | admitted | found | rested | linked | routed | proceeded =>
      cases about
      simp [handle, advance, sending]
    | _ => cases about
  · rw [call?_handle_of_ne c about]
    exact sending

/-- A call that sends its request waits until the send returns or it is cancelled. -/
theorem call?_after_of_sending {serial : Serial} {generation : Nat}
    (sending : c.call? id = some (.sending serial generation)) {later : List (Event κ α)}
    (waits : ∀ answer, .sent id answer ∉ later) (stays : .cancel id ∉ later) :
    (c.after later).call? id = some (.sending serial generation) := by
  induction later with
  | nil => exact sending
  | cons event earlier ih =>
    simp only [List.mem_cons, not_or] at waits stays
    refine call?_handle_of_sending (ih (fun answer => (waits answer).2) stays.2) ?_ ?_
    · intro answer same
      exact (waits answer).1 same.symm
    · exact Ne.symm stays.1

section Failed

variable {serial : Serial} {generation : Nat}
  (sending : c.call? id = some (.sending serial generation)) (why : Error)
include sending

/-- A send that fails under the cached session ends this session and all requests. -/
theorem handle_sent_of_current (current : c.isCurrent generation = true) :
    c.handle (.sent id (.error why)) =
      ((c.dropCall id).lost,
        failAll c.outstanding.toList .unavailable ++ [.finish id (.request (.ok serial))]) := by
  have current : (c.dropCall id).isCurrent generation = true := current
  simp only [handle, advance, sending, sendFailed, current, if_true, teardown_of_current current,
    dropCall_outstanding]

/-- A send that fails when its session and its request are gone changes nothing. -/
theorem handle_sent_of_gone (superseded : c.isCurrent generation = false)
    (gone : c.outstanding.find? serial = none) :
    c.handle (.sent id (.error why)) =
      (c.dropCall id, [.finish id (.request (.ok serial))]) := by
  have superseded : (c.dropCall id).isCurrent generation = false := superseded
  simp only [handle, advance, sending, sendFailed, superseded, dropCall_outstanding, gone,
    Bool.false_eq_true, if_false]

end Failed

/-- Whatever the send returns, the call returns its serial. -/
theorem finish_mem_handle_sent {serial : Serial} {generation : Nat}
    (sending : c.call? id = some (.sending serial generation)) (answer : Except Error Unit) :
    .finish id (.request (.ok serial)) ∈ (c.handle (.sent id answer)).2 := by
  cases answer with
  | ok => simp [handle, advance, sending]
  | error why =>
    simp only [handle, advance, sending, sendFailed]
    split
    · simp
    · split <;> simp

/-- Whatever happens before the send returns, and whatever it returns, the call then returns the
serial. -/
def WillReturn (c : Client κ α) (id : CallId) (serial : Serial) : Prop :=
  ∀ later, (∀ answer, .sent id answer ∉ later) → .cancel id ∉ later →
    ∀ answer, .finish id (.request (.ok serial)) ∈ ((c.after later).handle (.sent id answer)).2

/-- A call that sends its request returns the serial once the send returns. -/
theorem willReturn_of_sending {serial : Serial} {generation : Nat}
    (sending : c.call? id = some (.sending serial generation)) : c.WillReturn id serial :=
  fun _ waits stays answer =>
    finish_mem_handle_sent (call?_after_of_sending sending waits stays) answer

end Baseband.Client
