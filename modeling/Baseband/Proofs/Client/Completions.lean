import Baseband.Proofs.Client.Commands
import Baseband.Proofs.Client.Validity
import Baseband.Proofs.Outstanding

/-!
# Completions on the move

Every move hands completions on from place to place: from the caller to the call, to the table, to
the commands that run them. None comes to be in two places, and none gets lost, unless a call is
dropped, broken off by a delay that cannot be computed, or its request taken out of the table.
-/

namespace Baseband

variable {κ α : Type}

namespace Client

open scoped List
open Command (collect completion? discarded?)

def registered (c : Client κ α) : List κ :=
  c.outstanding.toList.map (·.completion)

theorem mem_registered {c : Client κ α} {completion : κ} :
    completion ∈ c.registered ↔
      ∃ serial request, c.outstanding.find? serial = some request ∧
        request.completion = completion := by
  simp only [registered, List.mem_map, Outstanding.mem_toList]
  constructor
  · rintro ⟨request, ⟨serial, found⟩, has⟩
    exact ⟨serial, request, found, has⟩
  · rintro ⟨serial, request, found, has⟩
    exact ⟨request, ⟨serial, found⟩, has⟩

@[simp] theorem toList_lost (c : Client κ α) : c.lost.outstanding.toList = [] :=
  Outstanding.toList_clear _

/-! ## One move -/

def kept (c : Client κ α) : List κ :=
  c.held ++ c.registered

/-- After a move, the completions there were are in the client or in the commands. -/
def Conserved (before : List κ) (c : Client κ α) (commands : List (Command κ α)) : Prop :=
  before.Perm (c.kept ++ (collect completion? commands ++ collect discarded? commands))

theorem kept_putCall (c : Client κ α) (id : CallId) (call : Call κ α) :
    (c.putCall id call).kept.Perm (call.completion?.toList ++ (c.dropCall id).kept) := by
  have := (held_putCall c id call).append_right c.registered
  simpa only [kept, registered, putCall_outstanding, dropCall_outstanding, List.append_assoc]
    using this

theorem kept_of_call? {c : Client κ α} {id : CallId} {call : Call κ α} (valid : c.Valid)
    (found : c.call? id = some call) :
    c.kept.Perm (call.completion?.toList ++ (c.dropCall id).kept) := by
  have := (held_perm_of_call? valid.distinct found).append_right c.registered
  simpa only [kept, registered, dropCall_outstanding, List.append_assoc] using this

theorem kept_of_unused {c : Client κ α} {id : CallId} (unused : c.call? id = none) :
    (c.dropCall id).kept = c.kept := by
  simp only [kept, held_dropCall_of_unused unused, registered, dropCall_outstanding]

/-- What comes with a call past the gate and what it has make up what it connects for. -/
theorem Inside.handed_kept {c : Client κ α} {event : Event κ α} {id : CallId} {goal : Goal κ}
    {gate : Gate} (inside : Inside c event id goal gate) (valid : c.Valid) :
    (event.handed ++ c.kept).Perm (goal.completion?.toList ++ (c.dropCall id).kept) := by
  rcases inside.origin with ⟨rfl, unused, -, -⟩ | ⟨nothing, -, stage, found⟩
  · rw [kept_of_unused unused]
    exact .refl _
  · rw [nothing]
    exact kept_of_call? valid found

/-- A lost session leaves the client what its calls hold. -/
theorem kept_lost (c : Client κ α) :
    c.kept.Perm (c.lost.kept ++ c.outstanding.toList.map (·.completion)) := by
  simp only [kept, registered, toList_lost, List.map_nil, List.append_nil]
  exact .refl _

/-- When a session is lost, the completions of its requests go from the table to the commands. -/
theorem conserved_failAll (c : Client κ α) (why : Error) :
    Conserved c.kept c.lost (failAll c.outstanding.toList why) := by
  simpa [Conserved] using kept_lost c

theorem kept_erase {c : Client κ α} {serial : Serial} {request : Request κ}
    (found : c.outstanding.find? serial = some request) :
    c.kept.Perm
      (request.completion :: { c with outstanding := c.outstanding.erase serial }.kept) := by
  have table := (Outstanding.toList_perm_of_find? found).map (·.completion)
  exact (table.append_left c.held).trans List.perm_middle

theorem kept_submit {c : Client κ α}
    (free : c.outstanding.contains c.outstanding.freeSerial = false) (op : Operation)
    (completion : κ) (attribution : Attribution) :
    (completion :: c.kept).Perm
      { c with outstanding := (c.outstanding.submit op completion attribution).2 }.kept := by
  have table := (Outstanding.toList_submit_perm free op completion attribution).map (·.completion)
  exact (List.perm_middle.symm.trans (table.symm.append_left c.held))

/-- Whichever way a call ends, its completion is registered, run or discarded. -/
theorem Conclusion.conserved {c c' : Client κ α} {id : CallId} {goal : Goal κ}
    {commands : List (Command κ α)} (conclusion : Conclusion c id goal c' commands)
    (unused : c.call? id = none)
    (room : c'.outstanding.nextAge ≠ c.outstanding.nextAge → c.outstanding.size < Serial.count) :
    Conserved (goal.completion?.toList ++ c.kept) c' commands := by
  cases conclusion with
  | found | told =>
    simp [Conserved, Goal.completion?]
  | unavailable | unsupported =>
    simpa [Conserved, Goal.completion?] using
      (List.perm_append_singleton _ _).symm
  | @accepted query completion session cached supports =>
    have free := Outstanding.contains_freeSerial (room (by simp [Outstanding.submit]))
    refine (kept_submit free query.operation completion c.attribution).trans ?_
    let d : Client κ α :=
      { c with outstanding := (c.outstanding.submit query.operation completion c.attribution).2 }
    have sending := kept_putCall d id (.sending c.outstanding.freeSerial session.generation)
    rw [kept_of_unused (c := d) unused] at sending
    simpa [Conserved, Call.completion?] using sending.symm

/-- What a call had is dropped with it. -/
theorem conserved_of_discarded {c : Client κ α} {completions others : List κ}
    {commands : List (Command κ α)} (completed : collect completion? commands = [])
    (discarded : collect discarded? commands = completions) (left : c.kept = others) :
    Conserved (completions ++ others) c commands := by
  rw [Conserved, completed, discarded, left, List.nil_append]
  exact List.perm_append_comm

/-- A call past the gate goes on, and the commands run what has left the table. -/
theorem Inside.conserved {c d : Client κ α} {event : Event κ α} {id : CallId} {goal : Goal κ}
    {gate : Gate} (inside : Inside c event id goal gate) (valid : c.Valid)
    (calls : d.calls = c.calls) (stage : Stage α) {commands : List (Command κ α)}
    (table : c.registered.Perm (d.registered ++ collect completion? commands))
    (dropped : collect discarded? commands = []) :
    Conserved (event.handed ++ c.kept) (d.putCall id (.connecting goal stage)) commands := by
  have held : (c.dropCall id).held = (d.dropCall id).held := by
    rw [Client.held, Client.held, dropCall, dropCall, calls]
  have lost : (c.dropCall id).kept.Perm ((d.dropCall id).kept ++ collect completion? commands) := by
    rw [kept, kept, held, List.append_assoc]
    exact table.append_left _
  calc event.handed ++ c.kept
    _ ~ goal.completion?.toList ++ (c.dropCall id).kept := inside.handed_kept valid
    _ ~ goal.completion?.toList ++ ((d.dropCall id).kept ++ collect completion? commands) :=
      lost.append_left _
    _ ~ (d.putCall id (.connecting goal stage)).kept ++
        (collect completion? commands ++ collect discarded? commands) := by
      rw [dropped, List.append_nil, ← List.append_assoc]
      exact (kept_putCall d id (.connecting goal stage)).symm.append_right _

/-- A move conserves completions: those handed over with the event and those there were. Only a
request that is taken out of the table is lost. -/
theorem Move.conserved {c c' : Client κ α} {event : Event κ α} {commands : List (Command κ α)}
    (move : Move c event c' commands) (valid : c.Valid)
    (room : c'.outstanding.nextAge ≠ c.outstanding.nextAge → c.outstanding.size < Serial.count)
    (fresh : ∀ id goal, event = .call id goal → c.call? id = none)
    (stays : ∀ serial, event ≠ .take serial) :
    Conserved (event.handed ++ c.kept) c' commands := by
  cases move with
  | ignore _ stray =>
    rcases stray with nothing | ⟨id, goal, rfl, used⟩
    · simp [Conserved, nothing]
    · simp [fresh id goal rfl] at used
  | listen _ nothing =>
    simp [Conserved, nothing, kept, held, registered]
  | lose nothing =>
    rw [nothing]
    exact conserved_failAll c .unavailable
  | answer found =>
    simpa [Conserved, Event.handed] using
      (kept_erase found).trans (List.perm_append_singleton _ _).symm
  | submit op completion attribution =>
    have free := Outstanding.contains_freeSerial (room (by simp [Outstanding.submit]))
    simpa [Conserved, Event.handed] using kept_submit free op completion attribution
  | take serial => exact absurd rfl (stays serial)
  | flush why => exact conserved_failAll c why
  | startAt =>
    simp [Conserved, Event.handed, kept, held, registered, Outstanding.startAt, Outstanding.toList]
  | conclude unused conclusion => exact conclusion.conserved unused room
  | @queue id goal supported unused closed =>
    have waiting := kept_putCall { c with gate := c.gate.enter id } id (.connecting goal .queued)
    rw [kept_of_unused (c := { c with gate := c.gate.enter id }) unused] at waiting
    rw [Conserved, Command.collect_nil, Command.collect_nil, List.append_nil, List.append_nil]
    exact waiting.symm
  | @look event id goal gate inside =>
    refine inside.conserved (d := { c with gate }) valid rfl _ ?_ rfl
    simp [registered]
  | rest inside | install inside | route inside | abandonLost inside =>
    refine inside.conserved (d := { c with session := _, generation := _ }) valid rfl _ ?_ rfl
    simp [registered]
  | abandon inside cached =>
    refine inside.conserved (d := c.lost) valid rfl _ ?_ ?_
    · simp [registered]
    · simp
  | leave inside conclusion =>
    have concluded := conclusion.conserved (call?_dropCall _ _) room
    simpa only [Conserved, Command.collect_append, Command.collect_letIn, completion?, discarded?,
      Option.bind_fun_none, Option.toList_none, List.nil_append]
      using (inside.handed_kept valid).trans concluded
  | breakOff inside | forsake inside =>
    exact (inside.handed_kept valid).trans (conserved_of_discarded (by simp) (by simp) rfl)
  | withdraw queued outside =>
    exact (kept_of_call? valid queued).trans
      (conserved_of_discarded (by simp) (by simp [Call.completion?]) rfl)
  | sent sending | resolved _ sending | cancelSend sending =>
    simpa [Conserved, Event.handed, Call.completion?] using
      kept_of_call? valid sending
  | @unsent id serial generation why sending current =>
    refine (kept_lost c).trans ?_
    have returned := kept_of_call? valid.lose (show c.lost.call? id = _ from sending)
    simpa [Conserved, Call.completion?] using
      returned.append_right _
  | @stranded id serial generation request why sending superseded found =>
    refine (kept_erase found).trans ?_
    have sending : { c with outstanding := c.outstanding.erase serial }.call? id =
        some (.sending serial generation) := sending
    have returned := kept_of_call? (valid.withOutstanding _) sending
    simpa [Conserved, Call.completion?] using
      (returned.cons request.completion).trans (List.perm_append_singleton _ _).symm

end Client

end Baseband
