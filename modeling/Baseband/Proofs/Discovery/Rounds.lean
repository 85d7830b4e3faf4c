import Baseband.Proofs.Discovery.Backoff
import Baseband.Proofs.Discovery.Pass

/-!
# Passes with delays between

A pass that is interrupted is followed by a delay and another pass, as long as delays are left. So
of passes that are interrupted `k` times before one is not, at most `k + 1` are made, and fewer if
the delays run out before; between two of them there is one delay, and there is none after the last.
-/

namespace Baseband.Probe

variable {α σ : Type} {grow : Growth} {run : σ → Pass σ α}

/-- Passes one after the other, up to the last one. -/
inductive Rounds (σ α : Type)
  | last (pass : Pass σ α)
  /-- A delay comes between a pass and the later ones. -/
  | again (pass : Pass σ α) (delay : Duration) (later : Rounds σ α)
  /-- The delay after the pass cannot be computed. -/
  | brokenOff (pass : Pass σ α) (why : Unrepresentable)

def Pass.acts (pass : Pass σ α) : List (Version ⊕ Duration) :=
  pass.lookups.map fun lookup => .inl lookup.1

/-- First of all, a pass looks the first version up. -/
theorem inl_prefix_acts_pass (p : Provider σ α) (state : σ) (version : Version)
    (rest : List Version) : [.inl version] <+: (pass p state (version :: rest)).acts := by
  cases verdict : judge version (p state version).1 with
  | found connection =>
    rw [pass_of_found verdict]
    exact List.prefix_refl _
  | next =>
    rw [pass_of_next verdict]
    exact List.prefix_append [_] _
  | stop why =>
    rw [pass_of_stop verdict]
    exact List.prefix_refl _

namespace Rounds

def passes : Rounds σ α → List (Pass σ α)
  | .last pass | .brokenOff pass _ => [pass]
  | .again pass _ later => pass :: later.passes

def delays : Rounds σ α → List Duration
  | .last _ | .brokenOff .. => []
  | .again _ delay later => delay :: later.delays

def acts : Rounds σ α → List (Version ⊕ Duration)
  | .last pass | .brokenOff pass _ => pass.acts
  | .again pass delay later => pass.acts ++ .inr delay :: later.acts

/-- What the rounds end with: the outcome of the last pass, unless they are broken off. -/
def ending : Rounds σ α → Except Unrepresentable (Except Error (Version × α))
  | .last pass => .ok pass.outcome
  | .again _ _ later => later.ending
  | .brokenOff _ why => .error why

def provider : Rounds σ α → σ
  | .last pass | .brokenOff pass _ => pass.provider
  | .again _ _ later => later.provider

/-- One delay comes between two passes, and none after the last. -/
theorem acts_eq (whole : Rounds σ α) :
    ∃ first later, whole.passes = first :: later ∧ later.length = whole.delays.length ∧
      whole.acts = first.acts ++
        (List.zipWith (fun delay (pass : Pass σ α) => .inr delay :: pass.acts) whole.delays
          later).flatten := by
  induction whole with
  | last pass => exact ⟨pass, [], rfl, rfl, (List.append_nil _).symm⟩
  | again pass delay rest ih =>
    obtain ⟨first, later, passes, count, acts⟩ := ih
    refine ⟨pass, first :: later, congrArg (pass :: ·) passes, congrArg (· + 1) count, ?_⟩
    simp [Rounds.acts, delays, acts]
  | brokenOff pass why => exact ⟨pass, [], rfl, rfl, (List.append_nil _).symm⟩

/-- After these acts, the rounds go on as others do. -/
structure Ahead (whole : Rounds σ α) (asked : List (Version ⊕ Duration)) (left : Rounds σ α) :
    Prop where
  acts : whole.acts = asked ++ left.acts
  ending : whole.ending = left.ending
  provider : whole.provider = left.provider

/-- What is ahead after more acts is ahead after all of them. -/
theorem Ahead.trans {whole middle left : Rounds σ α} {asked more : List (Version ⊕ Duration)}
    (first : whole.Ahead asked middle) (second : middle.Ahead more left) :
    whole.Ahead (asked ++ more) left where
  acts := by rw [first.acts, second.acts, List.append_assoc]
  ending := first.ending.trans second.ending
  provider := first.provider.trans second.provider

end Rounds

def follow (grow : Growth) (run : σ → Pass σ α) (backoff : Option Backoff) (made : Pass σ α) :
    Rounds σ α :=
  match made.outcome with
  | .ok _ => .last made
  | .error why =>
    match _demands : Backoff.afterPass grow backoff why with
    | .over => .last made
    | .again delay rest => .again made delay (follow grow run (some rest) (run made.provider))
    | .failed failure => .brokenOff made failure
termination_by backoff.elim 0 Backoff.left
decreasing_by
  obtain ⟨b, rfl, next⟩ := Backoff.next?_of_again _demands
  exact Backoff.left_lt_of_next next

/-- Make passes until one is not to be followed by another. -/
def rounds (grow : Growth) (run : σ → Pass σ α) (backoff : Option Backoff) (state : σ) :
    Rounds σ α :=
  follow grow run backoff (run state)

/-! ## One pass and what follows -/

section Follow

variable {backoff : Option Backoff} {made : Pass σ α} {why : Error}

theorem follow_of_ok {found : Version × α} (outcome : made.outcome = .ok found) :
    follow grow run backoff made = .last made := by
  rw [follow, outcome]

theorem follow_of_over (outcome : made.outcome = .error why)
    (ends : Backoff.afterPass grow backoff why = .over) :
    follow grow run backoff made = .last made := by
  rw [follow, outcome]
  dsimp only
  split <;> simp_all

/-- An interrupted pass is followed by a delay, and by another pass with the later delays. -/
theorem follow_of_again {delay : Duration} {rest : Backoff} (outcome : made.outcome = .error why)
    (again : Backoff.afterPass grow backoff why = .again delay rest) :
    follow grow run backoff made =
      .again made delay (rounds grow run (some rest) made.provider) := by
  rw [follow, outcome]
  dsimp only
  split <;> simp_all [rounds]

theorem follow_of_failed {failure : Unrepresentable} (outcome : made.outcome = .error why)
    (failed : Backoff.afterPass grow backoff why = .failed failure) :
    follow grow run backoff made = .brokenOff made failure := by
  rw [follow, outcome]
  dsimp only
  split <;> simp_all

/-- First of all, the pass is made. -/
theorem acts_prefix_follow (backoff : Option Backoff) (made : Pass σ α) :
    made.acts <+: (follow grow run backoff made).acts := by
  cases outcome : made.outcome with
  | ok found =>
    rw [follow_of_ok outcome]
    exact List.prefix_refl _
  | error why =>
    rcases demands : Backoff.afterPass grow backoff why with _ | ⟨delay, rest⟩ | failure
    · rw [follow_of_over outcome demands]
      exact List.prefix_refl _
    · rw [follow_of_again outcome demands]
      exact List.prefix_append _ _
    · rw [follow_of_failed outcome demands]
      exact List.prefix_refl _

/-- A pass with one lookup more before it is followed by the same. -/
theorem ahead_of_after (version : Version) (answer : Lookup α) :
    (follow grow run backoff (made.after version answer)).Ahead [.inl version]
      (follow grow run backoff made) := by
  have outcome : (made.after version answer).outcome = made.outcome := rfl
  cases made' : made.outcome with
  | ok found =>
    rw [follow_of_ok made', follow_of_ok (outcome.trans made')]
    exact ⟨rfl, rfl, rfl⟩
  | error why =>
    rcases demands : Backoff.afterPass grow backoff why with _ | ⟨delay, rest⟩ | failure
    · rw [follow_of_over made' demands, follow_of_over (outcome.trans made') demands]
      exact ⟨rfl, rfl, rfl⟩
    · rw [follow_of_again made' demands, follow_of_again (outcome.trans made') demands]
      exact ⟨rfl, rfl, rfl⟩
    · rw [follow_of_failed made' demands, follow_of_failed (outcome.trans made') demands]
      exact ⟨rfl, rfl, rfl⟩

end Follow

/-! ## How many passes there are -/

/-- The passes that would be made if every one was followed by another. -/
def turn (run : σ → Pass σ α) (state : σ) : Nat → Pass σ α
  | 0 => run state
  | i + 1 => turn run (run state).provider i

theorem map_turn_succ (state : σ) (n : Nat) :
    (List.range (n + 1)).map (turn run state) =
      run state :: (List.range n).map (turn run (run state).provider) := by
  rw [List.range_succ_eq_map, List.map_cons, List.map_map]
  rfl

def Pass.Interrupted (pass : Pass σ α) : Prop :=
  ∃ fault, pass.outcome = .error (.interrupted fault)

def budget (backoff : Option Backoff) : Nat :=
  backoff.elim 0 Backoff.left

def schedule (grow : Growth) (backoff : Option Backoff) : List Duration :=
  backoff.elim [] (Backoff.schedule grow)

@[simp] theorem schedule_some (b : Backoff) : schedule grow (some b) = Backoff.schedule grow b :=
  rfl

theorem afterPass_of_spent {backoff : Option Backoff} (spent : budget backoff = 0) (why : Error) :
    Backoff.afterPass grow backoff why = .over := by
  have none : (backoff.bind fun b => b.next? grow) = none := by
    cases backoff with
    | none => rfl
    | some b => exact Backoff.next?_of_spent spent
  cases why <;> simp [Backoff.afterPass, none]

/-- With delays left, an interrupted pass is followed by the first of them. -/
theorem afterPass_of_more {b : Backoff} (computable : b.Computable grow) {left : Nat}
    (more : b.left = left + 1) (fault : Fault) :
    ∃ delay rest, Backoff.afterPass grow (some b) (.interrupted fault) = .again delay rest ∧
      rest.Computable grow ∧ rest.left = left ∧
      Backoff.schedule grow b = delay :: Backoff.schedule grow rest := by
  obtain ⟨grown, -, next⟩ := computable.next_eq more
  refine ⟨_, _, ?_, computable.rest next, rfl, Backoff.schedule_of_next more next rfl⟩
  simp [Backoff.afterPass, next]

/-- The last pass is one that is not interrupted, or the one after the last delay. -/
theorem follow_last {backoff : Option Backoff} {made : Pass σ α}
    (stops : made.Interrupted → budget backoff = 0) : follow grow run backoff made = .last made := by
  cases outcome : made.outcome with
  | ok found => exact follow_of_ok outcome
  | error why =>
    refine follow_of_over outcome ?_
    cases why with
    | interrupted fault => exact afterPass_of_spent (stops ⟨fault, outcome⟩) _
    | _ => rfl

/-- If `k` passes are interrupted and the next one is not, or no delay is left for another, then
there is one pass more than there are delays, and of these as many as there are interruptions, but
not more than there are left. -/
theorem rounds_eq {backoff : Option Backoff}
    (computable : ∀ b, backoff = some b → b.Computable grow) {state : σ} {k : Nat}
    (interrupted : ∀ i < k, (turn run state i).Interrupted)
    (stops : (turn run state k).Interrupted → budget backoff ≤ k) :
    (rounds grow run backoff state).passes =
        (List.range (min k (budget backoff) + 1)).map (turn run state) ∧
      (rounds grow run backoff state).delays =
        (schedule grow backoff).take (min k (budget backoff)) ∧
      (rounds grow run backoff state).ending =
        .ok (turn run state (min k (budget backoff))).outcome ∧
      (rounds grow run backoff state).provider =
        (turn run state (min k (budget backoff))).provider := by
  induction k generalizing backoff state with
  | zero =>
    have stops : (run state).Interrupted → budget backoff = 0 := fun now => Nat.le_zero.1 (stops now)
    rw [rounds, follow_last stops, Nat.zero_min]
    exact ⟨rfl, rfl, rfl, rfl⟩
  | succ k ih =>
    obtain ⟨fault, outcome⟩ : (run state).Interrupted := interrupted 0 k.succ_pos
    cases left : budget backoff with
    | zero =>
      rw [rounds, follow_last fun _ => left]
      exact ⟨rfl, rfl, rfl, rfl⟩
    | succ left' =>
      obtain ⟨b, rfl⟩ : ∃ b, backoff = some b := by
        cases backoff with
        | none => cases left
        | some b => exact ⟨b, rfl⟩
      obtain ⟨delay, rest, again, computable, rfl, delays⟩ :=
        afterPass_of_more (computable b rfl) left fault
      rw [rounds, follow_of_again outcome again]
      have later : ∀ b, some rest = some b → b.Computable grow := by
        rintro _ ⟨⟩
        exact computable
      obtain ⟨passes, waits, ending⟩ := ih later
        (fun i below => interrupted (i + 1) (Nat.succ_lt_succ below))
        (fun now => Nat.le_of_succ_le_succ (Nat.le_trans (Nat.le_of_eq left.symm) (stops now)))
      rw [Nat.succ_min_succ]
      refine ⟨?_, ?_, ending⟩
      · rw [Rounds.passes, passes]
        exact (map_turn_succ state _).symm
      · rw [Rounds.delays, waits, schedule_some, schedule_some, delays, List.take_succ_cons]
        rfl

/-- What is asked for is the passes with one delay between any two of them. -/
theorem rounds_acts {backoff : Option Backoff} {state : σ} {count : Nat} {delays : List Duration}
    (passes : (rounds grow run backoff state).passes =
      (List.range (count + 1)).map (turn run state))
    (waits : (rounds grow run backoff state).delays = delays) :
    (rounds grow run backoff state).acts = (turn run state 0).acts ++
      (List.zipWith (fun delay i => .inr delay :: (turn run state (i + 1)).acts) delays
        (List.range count)).flatten := by
  obtain ⟨first, later, split, -, acts⟩ := (rounds grow run backoff state).acts_eq
  rw [List.range_succ_eq_map, List.map_cons, List.map_map, split] at passes
  obtain ⟨rfl, rfl⟩ := List.cons.inj passes
  rw [acts, waits, List.zipWith_map_right]
  rfl

end Baseband.Probe
