import Baseband.Proofs.Client.Calls

/-!
# Commands of one kind

What is said of commands is said of those of one kind: the completions that they run or drop, the
death registrations that they make, the requests that they send. A kind is a partial function on
commands, and reading a list of commands by a kind keeps their order.
-/

namespace Baseband

variable {κ α β : Type}

@[ext]
structure Sending (α : Type) where
  id : CallId
  connection : α
  serial : Serial
  operation : Operation
  payload : Bytes

def Sending.command (sending : Sending α) : Command κ α :=
  .send sending.id sending.connection sending.serial sending.operation sending.payload

namespace Command

@[simp] def completion? : Command κ α → Option κ
  | .complete completion _ => some completion
  | _ => none

@[simp] def discarded? : Command κ α → Option κ
  | .discard completion => some completion
  | _ => none

@[simp] def link? : Command κ α → Option (α × Nat)
  | .link _ connection cookie => some (connection, cookie)
  | _ => none

@[simp] def send? : Command κ α → Option (Sending α)
  | .send id connection serial op payload => some ⟨id, connection, serial, op, payload⟩
  | _ => none

/-- What commands hold of one kind, in order. -/
def collect (kind : Command κ α → Option β) (commands : List (Command κ α)) : List β :=
  commands.filterMap kind

variable {kind : Command κ α → Option β}

@[simp] theorem collect_nil : collect kind [] = [] :=
  rfl

@[simp] theorem collect_cons (command : Command κ α) (commands : List (Command κ α)) :
    collect kind (command :: commands) = (kind command).toList ++ collect kind commands := by
  cases h : kind command <;> simp [collect, h]

@[simp] theorem collect_append (first second : List (Command κ α)) :
    collect kind (first ++ second) = collect kind first ++ collect kind second :=
  List.filterMap_append

theorem mem_collect_send {commands : List (Command κ α)} {sending : Sending α} :
    sending ∈ collect send? commands ↔ sending.command ∈ commands := by
  have sends (command : Command κ α) :
      command.send? = some sending ↔ command = sending.command := by
    cases command <;> simp [Sending.command, Sending.ext_iff]
  simp only [collect, List.mem_filterMap, sends, exists_eq_right]

theorem mem_collect_completion {commands : List (Command κ α)} {completion : κ} :
    completion ∈ collect completion? commands ↔
      ∃ outcome, .complete completion outcome ∈ commands := by
  simp only [collect, List.mem_filterMap]
  constructor
  · rintro ⟨command, listed, same⟩
    cases command <;> cases same
    exact ⟨_, listed⟩
  · rintro ⟨outcome, listed⟩
    exact ⟨_, listed, rfl⟩

/-! ## Lists of commands that a client leaves -/

@[simp] theorem collect_failAll (requests : List (Request κ)) (why : Error) :
    collect kind (Client.failAll requests why) =
      requests.filterMap fun request => kind (.complete request.completion (.error why)) := by
  simp [collect, Client.failAll, List.filterMap_map]

@[simp] theorem collect_letIn (next : Option CallId) :
    collect kind (next.map .letIn).toList = (next.bind fun id => kind (.letIn id)).toList := by
  cases next <;> simp

@[simp] theorem collect_letGo (goal : Goal κ) :
    collect kind (Client.letGo goal) =
      (goal.completion?.bind fun completion => kind (.discard completion)).toList := by
  cases goal <;> simp [Client.letGo, Goal.completion?]

end Command

end Baseband
