import Mathlib.Data.List.Nodup
import Mathlib.Tactic.ByContra
import Baseband.Client.Handle

/-!
# Calls under way

Calls are kept in a list under their numbers. Noting how far a call has come moves it to the end of
the list, so what the list holds is stated up to order.
-/

namespace Baseband

variable {κ α : Type}

def Goal.completion? : Goal κ → Option κ
  | .request _ completion => some completion
  | .acquire | .supports _ => none

/-- The completion that a call holds. It gives it away when its request is registered. -/
def Call.completion? : Call κ α → Option κ
  | .connecting goal _ => goal.completion?
  | .sending .. => none

def Stage.isInside : Stage α → Bool
  | .queued => false
  | _ => true

/-- The call waits for something, so that others may go on meanwhile. -/
def Stage.isSuspended : Stage α → Bool
  | .queued | .probing .. | .resting _ => true
  | .linking _ | .routing _ | .abandoning => false

def Call.isSuspended : Call κ α → Bool
  | .connecting _ stage => stage.isSuspended
  | .sending .. => true

namespace Gate

/-- Everybody at the gate, whoever is inside first. -/
def line (g : Gate) : List CallId :=
  g.holder.toList ++ g.waiting

/-- Whoever comes to the gate goes to the end of the line, also when nobody is there. -/
theorem line_enter {g : Gate} (idle : g.holder = none → g.waiting = []) (id : CallId) :
    (g.enter id).line = g.line ++ [id] := by
  cases holder : g.holder with
  | none => simp [enter, line, holder, idle holder]
  | some other => simp [enter, line, holder]

/-- Whoever leaves the gate was the first in line. -/
theorem line_leave {g : Gate} {id : CallId} (holder : g.holder = some id) :
    g.leave.line = g.line.tail := by
  cases waiting : g.waiting <;> simp [leave, line, holder, waiting]

/-- A call that only waits is taken out of the line wherever it stands. -/
theorem line_withdraw {g : Gate} {id : CallId} (outside : g.holder ≠ some id) :
    (g.withdraw id).line = g.line.filter fun other => other != id := by
  cases holder : g.holder with
  | none => simp [withdraw, line, holder]
  | some other =>
    have differ : other ≠ id := fun eq => outside (eq ▸ holder)
    simp [withdraw, line, holder, differ]

theorem line_of_holder {g : Gate} {id : CallId} (holder : g.holder = some id) :
    g.line = id :: g.waiting := by
  simp [line, holder]

end Gate

namespace Client

def held (c : Client κ α) : List κ :=
  c.calls.filterMap (·.2.completion?)

@[simp] theorem dropCall_outstanding (c : Client κ α) (id : CallId) :
    (c.dropCall id).outstanding = c.outstanding := rfl

@[simp] theorem dropCall_gate (c : Client κ α) (id : CallId) :
    (c.dropCall id).gate = c.gate := rfl

@[simp] theorem dropCall_supported (c : Client κ α) (id : CallId) :
    (c.dropCall id).supported = c.supported := rfl

@[simp] theorem putCall_outstanding (c : Client κ α) (id : CallId) (call : Call κ α) :
    (c.putCall id call).outstanding = c.outstanding := rfl

@[simp] theorem putCall_gate (c : Client κ α) (id : CallId) (call : Call κ α) :
    (c.putCall id call).gate = c.gate := rfl

@[simp] theorem putCall_supported (c : Client κ α) (id : CallId) (call : Call κ α) :
    (c.putCall id call).supported = c.supported := rfl

theorem mem_calls_dropCall {c : Client κ α} {id other : CallId} {call : Call κ α} :
    (other, call) ∈ (c.dropCall id).calls ↔ (other, call) ∈ c.calls ∧ other ≠ id := by
  simp [dropCall]

theorem mem_calls_of_mem_dropCall {c : Client κ α} {id : CallId} :
    ∀ entry ∈ (c.dropCall id).calls, entry ∈ c.calls :=
  fun _ listed => List.mem_of_mem_filter listed

/-- Putting a call replaces what was under its number. -/
theorem mem_calls_putCall {c : Client κ α} {id other : CallId} {new call : Call κ α} :
    (other, call) ∈ (c.putCall id new).calls ↔
      (other, call) ∈ c.calls ∧ other ≠ id ∨ other = id ∧ call = new := by
  simp [putCall, dropCall]

theorem mem_calls_of_call? {c : Client κ α} {id : CallId} {call : Call κ α}
    (found : c.call? id = some call) : (id, call) ∈ c.calls := by
  obtain ⟨before, after, split, -⟩ := List.lookup_eq_some_iff.1 found
  simp [split]

theorem not_mem_calls_of_call? {c : Client κ α} {id : CallId} (unused : c.call? id = none)
    (call : Call κ α) : (id, call) ∉ c.calls := by
  intro listed
  have := List.lookup_eq_none_iff.1 unused _ listed
  simp at this

@[simp] theorem call?_dropCall (c : Client κ α) (id : CallId) :
    (c.dropCall id).call? id = none := by
  refine List.lookup_eq_none_iff.2 fun entry listed => ?_
  have := (List.mem_filter.1 listed).2
  simpa [bne_comm] using this

/-- A call apart from all others. -/
theorem calls_perm_of_call? {c : Client κ α} {id : CallId} {call : Call κ α}
    (distinct : (c.calls.map Prod.fst).Nodup) (found : c.call? id = some call) :
    c.calls.Perm ((id, call) :: (c.dropCall id).calls) := by
  obtain ⟨before, after, split, others⟩ := List.lookup_eq_some_iff.1 found
  have apart : ∀ entry ∈ before ++ after, (entry.1 != id) = true := by
    rw [split] at distinct
    simp only [List.map_append, List.map_cons, List.nodup_middle, List.nodup_cons] at distinct
    intro entry listed
    have : id ∉ (before ++ after).map Prod.fst := by simpa using distinct.1
    simpa using fun eq : entry.1 = id => this (List.mem_map.2 ⟨entry, listed, eq⟩)
  have rest : (c.dropCall id).calls = before ++ after := by
    rw [dropCall, split, List.filter_append, List.filter_cons]
    simp only [bne_self_eq_false, Bool.false_eq_true, if_false, ← List.filter_append]
    exact List.filter_eq_self.2 apart
  rw [rest, split]
  exact List.perm_middle

/-- As no two calls have one number, a listed call is the one found under its number. -/
theorem call_unique {c : Client κ α} {id : CallId} {call other : Call κ α}
    (distinct : (c.calls.map Prod.fst).Nodup) (found : c.call? id = some call)
    (listed : (id, other) ∈ c.calls) : other = call := by
  have := (calls_perm_of_call? distinct found).mem_iff.1 listed
  simpa [mem_calls_dropCall] using this

theorem call?_of_mem_calls {c : Client κ α} {id : CallId} {call : Call κ α}
    (distinct : (c.calls.map Prod.fst).Nodup) (listed : (id, call) ∈ c.calls) :
    c.call? id = some call := by
  cases found : c.call? id with
  | none => exact absurd listed (not_mem_calls_of_call? found call)
  | some other => rw [call_unique distinct found listed]

theorem dropCall_calls_of_unused {c : Client κ α} {id : CallId} (unused : c.call? id = none) :
    (c.dropCall id).calls = c.calls := by
  refine List.filter_eq_self.2 fun entry listed => ?_
  have other := List.lookup_eq_none_iff.1 unused entry listed
  have : entry.1 ≠ id := fun eq => by simp [eq] at other
  simpa using this

/-- A call takes what it holds with it when it is dropped. -/
theorem held_perm_of_call? {c : Client κ α} {id : CallId} {call : Call κ α}
    (distinct : (c.calls.map Prod.fst).Nodup) (found : c.call? id = some call) :
    c.held.Perm (call.completion?.toList ++ (c.dropCall id).held) := by
  refine ((calls_perm_of_call? distinct found).filterMap _).trans ?_
  cases h : call.completion? <;> simp [h, held]

/-- A held completion is that of some call under way. -/
theorem mem_held {c : Client κ α} (distinct : (c.calls.map Prod.fst).Nodup) {completion : κ} :
    completion ∈ c.held ↔
      ∃ id call, c.call? id = some call ∧ call.completion? = some completion := by
  simp only [held, List.mem_filterMap, Prod.exists]
  constructor
  · rintro ⟨id, call, listed, holds⟩
    exact ⟨id, call, call?_of_mem_calls distinct listed, holds⟩
  · rintro ⟨id, call, found, holds⟩
    exact ⟨id, call, mem_calls_of_call? found, holds⟩

/-- No two calls hold one completion, if the completions that calls hold can be told apart. -/
theorem holder_unique {c : Client κ α} (distinct : (c.calls.map Prod.fst).Nodup)
    (apart : c.held.Nodup) {id other : CallId} {call call' : Call κ α} {completion : κ}
    (found : c.call? id = some call) (holds : call.completion? = some completion)
    (found' : c.call? other = some call') (holds' : call'.completion? = some completion) :
    id = other := by
  by_contra differ
  have listed : (other, call') ∈ (c.dropCall id).calls :=
    mem_calls_dropCall.2 ⟨mem_calls_of_call? found', Ne.symm differ⟩
  have twice := (held_perm_of_call? distinct found).nodup apart
  rw [holds, Option.toList_some, List.singleton_append, List.nodup_cons] at twice
  exact twice.1 (List.mem_filterMap.2 ⟨_, listed, holds'⟩)

theorem held_dropCall_of_unused {c : Client κ α} {id : CallId} (unused : c.call? id = none) :
    (c.dropCall id).held = c.held := by
  rw [held, dropCall_calls_of_unused unused, held]

/-- What is held after a call is put: its own completion, and those of the others. -/
theorem held_putCall (c : Client κ α) (id : CallId) (call : Call κ α) :
    (c.putCall id call).held.Perm (call.completion?.toList ++ (c.dropCall id).held) := by
  have : (c.putCall id call).held = (c.dropCall id).held ++ call.completion?.toList := by
    cases h : call.completion? <;> simp [held, putCall, List.filterMap_append, h]
  rw [this]
  exact List.perm_append_comm

theorem distinct_dropCall {c : Client κ α} (distinct : (c.calls.map Prod.fst).Nodup)
    (id : CallId) : ((c.dropCall id).calls.map Prod.fst).Nodup :=
  distinct.sublist (List.filter_sublist.map _)

theorem distinct_putCall {c : Client κ α} (distinct : (c.calls.map Prod.fst).Nodup)
    (id : CallId) (call : Call κ α) : ((c.putCall id call).calls.map Prod.fst).Nodup := by
  have fresh : id ∉ (c.dropCall id).calls.map Prod.fst := by simp [dropCall]
  have split : (c.putCall id call).calls.map Prod.fst =
      (c.dropCall id).calls.map Prod.fst ++ [id] := by
    simp [putCall]
  rw [split, List.nodup_append]
  refine ⟨distinct_dropCall distinct id, List.nodup_singleton id, ?_⟩
  intro a ha b hb eq
  rw [List.mem_singleton] at hb
  rw [eq, hb] at ha
  exact fresh ha

end Client

end Baseband
