import Baseband.Proofs.Client.Changes

/-!
# How requests end

A completion learns that the service is unavailable, that its request is not supported, or what a
response to its request says. An outstanding request stays in the table as long as its session does,
unless a response comes under its serial. Either way its completion runs when it leaves the table. A
serial under which nothing is outstanding stays so until it is issued again.

## Main statements

* `Move.outcome`: what completions are run with.
* `Move.fate`: what becomes of an outstanding request.
-/

namespace Baseband

variable {κ α : Type}

/-- The event goes to the table of requests itself and not through the client. -/
def Event.isDirect : Event κ α → Bool
  | .submit .. | .take _ | .flush _ | .setNextSerial _ => true
  | _ => false

namespace Client

/-! ## What completions are run with -/

def Refusal (outcome : Outcome) : Prop :=
  outcome = .error .unavailable ∨ ∃ op version, outcome = .error (.notSupported op version)

/-- A completion that is run when the table is drained is that of a request in it. -/
theorem mem_failAll {requests : List (Request κ)} {why : Error} {completion : κ}
    {outcome : Outcome}
    (listed : .complete completion outcome ∈ failAll (α := α) requests why) :
    outcome = .error why := by
  obtain ⟨request, -, eq⟩ := List.mem_map.1 listed
  cases eq
  rfl

/-- A call that ends runs its completion with an error of the client's own. -/
theorem Conclusion.outcome {c c' : Client κ α} {id : CallId} {goal : Goal κ}
    {commands : List (Command κ α)} (conclusion : Conclusion c id goal c' commands)
    {completion : κ} {outcome : Outcome} (listed : .complete completion outcome ∈ commands) :
    Refusal outcome := by
  cases conclusion <;> simp only [List.mem_cons, Command.complete.injEq, reduceCtorEq,
    List.not_mem_nil, or_false] at listed
  · exact .inl listed.2
  · exact .inr ⟨_, _, listed.2⟩

/-- A completion runs with an error of the client's own, or with what a response says about its
request. -/
theorem Move.outcome {c c' : Client κ α} {event : Event κ α} {commands : List (Command κ α)}
    (move : Move c event c' commands) (calls : ∀ why, event ≠ .flush why) {completion : κ}
    {outcome : Outcome} (listed : .complete completion outcome ∈ commands) :
    Refusal outcome ∨ ∃ header payload request, event = .respond header payload ∧
      c.outstanding.find? header.serial = some request ∧ request.completion = completion ∧
        outcome = Response.outcome request.operation header.status payload := by
  have lost {rest : List (Command κ α)} (none : ∀ outcome, .complete completion outcome ∉ rest)
      (listed : .complete completion outcome ∈
        failAll c.outstanding.toList .unavailable ++ rest) : Refusal outcome := by
    rcases List.mem_append.1 listed with failed | listed
    · exact .inl (mem_failAll failed)
    · exact absurd listed (none outcome)
  cases move with
  | ignore | listen | submit | take | startAt | queue | look | rest | install | route | abandonLost
  | sent | resolved | cancelSend => simp at listed
  | lose => exact .inl (.inl (mem_failAll listed))
  | flush why => exact absurd rfl (calls why)
  | @answer header payload request found =>
    obtain ⟨rfl, rfl⟩ := Command.complete.inj (List.mem_singleton.1 listed)
    exact .inr ⟨header, payload, request, rfl, found, rfl, rfl⟩
  | conclude unused conclusion => exact .inl (conclusion.outcome listed)
  | abandon => exact .inl (lost (by simp) listed)
  | unsent => exact .inl (lost (by simp) listed)
  | leave inside conclusion =>
    rcases List.mem_append.1 listed with letIn | listed
    · simp at letIn
    · exact .inl (conclusion.outcome listed)
  | @breakOff id goal => cases goal <;> simp [letGo] at listed
  | @forsake id goal => cases goal <;> simp [letGo] at listed
  | @withdraw id goal => cases goal <;> simp [letGo] at listed
  | stranded =>
    simp only [List.mem_cons, Command.complete.injEq, reduceCtorEq, List.not_mem_nil, or_false]
      at listed
    exact .inl (.inl listed.2)

/-! ## What becomes of an outstanding request -/

variable {c c' : Client κ α} {event : Event κ α} {commands : List (Command κ α)} {serial : Serial}
  {request : Request κ} {session : Session α}

inductive Ends (event : Event κ α) (serial : Serial) (request : Request κ) : Outcome → Prop
  | lost : Ends event serial request (.error .unavailable)
  | answered {header : ResponseHeader} {payload : Bytes}
      (responds : event = .respond header payload) (own : header.serial = serial) :
      Ends event serial request (Response.outcome request.operation header.status payload)

/-- What becomes of the request that is outstanding under a serial: it stays with its session, or it
is taken out and its completion runs. -/
inductive Fate (session : Session α) (event : Event κ α) (serial : Serial) (request : Request κ)
    (c' : Client κ α) (commands : List (Command κ α)) : Prop
  | stays (found : c'.outstanding.find? serial = some request)
      (cached : c'.session = some session)
  | ends {outcome : Outcome} (gone : c'.outstanding.find? serial = none)
      (ends : Ends event serial request outcome)
      (completed : .complete request.completion outcome ∈ commands)

/-- Draining the table reaches every request in it. -/
theorem complete_mem_failAll (found : c.outstanding.find? serial = some request) (why : Error) :
    .complete request.completion (.error why) ∈
      (failAll c.outstanding.toList why : List (Command κ α)) :=
  List.mem_map.2 ⟨request, Outstanding.mem_toList.2 ⟨serial, found⟩, rfl⟩

theorem find?_submit_of_ne {o : Outstanding κ} (fresh : o.freeSerial ≠ serial) (op : Operation)
    (completion : κ) (attribution : Attribution) :
    (o.submit op completion attribution).2.find? serial = o.find? serial := by
  rw [Outstanding.find?_submit, if_neg fresh]

/-- A call that ends leaves all requests in the table, also when it enters its own. -/
theorem Conclusion.find? {id : CallId} {goal : Goal κ}
    (conclusion : Conclusion c id goal c' commands) (fresh : c.outstanding.freeSerial ≠ serial) :
    c'.outstanding.find? serial = c.outstanding.find? serial ∧ c'.session = c.session := by
  cases conclusion with
  | found | told | unavailable | unsupported => exact ⟨rfl, rfl⟩
  | accepted => exact ⟨find?_submit_of_ne fresh _ _ _, rfl⟩

/-- As long as the table is only used through the client, a request does not leave it without its
completion being run. -/
theorem Move.fate (move : Move c event c' commands) (indirect : event.isDirect = false)
    (cached : c.session = some session) (found : c.outstanding.find? serial = some request)
    (fresh : c.outstanding.freeSerial ≠ serial) :
    Fate session event serial request c' commands := by
  have failed : .complete request.completion (.error .unavailable) ∈
      (failAll c.outstanding.toList .unavailable : List (Command κ α)) :=
    complete_mem_failAll found _
  have gone : c.lost.outstanding.find? serial = none := Outstanding.find?_clear _ _
  cases move with
  | ignore | listen | queue | look | rest | route | abandonLost | breakOff | forsake | withdraw
  | sent | resolved | cancelSend => exact .stays found cached
  | lose => exact .ends gone .lost failed
  | abandon => exact .ends gone .lost (List.mem_append_left _ failed)
  | unsent => exact .ends gone .lost (List.mem_append_left _ failed)
  | @answer header payload answered known =>
    by_cases own : header.serial = serial
    · obtain rfl : answered = request := Option.some.inj (known.symm.trans (own ▸ found))
      refine .ends ?_ (.answered rfl own) (.head _)
      rw [Outstanding.find?_erase, if_pos own]
    · refine .stays ?_ cached
      rw [Outstanding.find?_erase, if_neg own, found]
  | submit | take | flush | startAt => cases indirect
  | conclude _ conclusion =>
    obtain ⟨table, kept⟩ := conclusion.find? fresh
    exact .stays (table.trans found) (kept.trans cached)
  | leave _ conclusion =>
    obtain ⟨table, kept⟩ := conclusion.find? fresh
    exact .stays (table.trans found) (kept.trans cached)
  | install _ none => cases none.symm.trans cached
  | @stranded _ other _ stranded _ _ _ known =>
    by_cases own : other = serial
    · subst own
      obtain rfl : stranded = request := Option.some.inj (known.symm.trans found)
      refine .ends ?_ .lost (.head _)
      rw [dropCall_outstanding, Outstanding.find?_erase, if_pos rfl]
    · refine .stays ?_ cached
      rw [dropCall_outstanding, Outstanding.find?_erase, if_neg own, found]

/-- Nothing is outstanding under a serial until it is issued. -/
theorem TableChange.unknown {sent : List (Sending α)} (change : TableChange c event c' sent)
    (unknown : c.outstanding.find? serial = none) (fresh : c.outstanding.freeSerial ≠ serial) :
    c'.outstanding.find? serial = none := by
  cases change with
  | kept table => rw [table, unknown]
  | erased table =>
    rw [table, Outstanding.find?_erase, unknown]
    split <;> rfl
  | cleared table => rw [table, Outstanding.find?_clear]
  | startedAt _ table => rw [table, Outstanding.find?_startAt, unknown]
  | submitted _ table => rw [table, find?_submit_of_ne fresh, unknown]
  | accepted _ _ _ table => rw [table, find?_submit_of_ne fresh, unknown]

end Client

end Baseband
