import Baseband.Discovery

/-!
# Delays in turn

As long as every delay can be computed, a discovery has as many delays before it as its policy
allows passes after the first: the first one is the initial delay, each later one is the growth of
the one before, and none is longer than the cap.
-/

namespace Baseband

theorem Duration.min_le (d e : Duration) : min d e ≤ e := by
  change (if d ≤ e then d else e) ≤ e
  split
  · assumption
  · exact Nat.le_refl _

theorem Duration.min_eq_left {d e : Duration} (le : d ≤ e) : min d e = d :=
  if_pos le

namespace Backoff

variable {grow : Growth} {b : Backoff}

/-! ## One delay -/

def Computable (grow : Growth) (b : Backoff) : Prop :=
  ∀ limit why, (delays grow limit b).2 ≠ .failed why

theorem Computable.next {grow : Growth} {b : Backoff} (computable : b.Computable grow)
    (why : Unrepresentable) : b.next? grow ≠ some (.error why) := by
  intro failed
  exact computable 1 why (by simp [delays, failed])

theorem Computable.rest {grow : Growth} {b rest : Backoff} {delay : Duration}
    (computable : b.Computable grow) (next : b.next? grow = some (.ok (delay, rest))) :
    rest.Computable grow := by
  intro limit why failed
  exact computable (limit + 1) why (by simp [delays, next, failed])

theorem next?_of_again {grow : Growth} {backoff : Option Backoff} {why : Error}
    {delay : Duration} {rest : Backoff} (again : afterPass grow backoff why = .again delay rest) :
    ∃ b, backoff = some b ∧ b.next? grow = some (.ok (delay, rest)) := by
  cases why <;> simp only [afterPass, reduceCtorEq] at again
  split at again <;> cases again
  rename_i next
  exact Option.bind_eq_some_iff.1 next

theorem next?_of_failed {grow : Growth} {backoff : Option Backoff} {why : Error}
    {failure : Unrepresentable} (failed : afterPass grow backoff why = .failed failure) :
    ∃ b, backoff = some b ∧ b.next? grow = some (.error failure) := by
  cases why <;> simp only [afterPass, reduceCtorEq] at failed
  split at failed <;> cases failed
  rename_i next
  exact Option.bind_eq_some_iff.1 next

/-- The next delay, and what is left, in terms of the growth of the upcoming one. -/
theorem next?_of_grows {left : Nat} {grown : Duration} (more : b.left = left + 1)
    (grows : grow (min b.upcoming b.cap) = .ok grown) :
    b.next? grow = some (.ok (min b.upcoming b.cap, ⟨min grown b.cap, b.cap, left⟩)) := by
  rw [next?, more]
  dsimp only
  rw [grows]
  rfl

/-- A delay that is left can be computed, and so can its growth. -/
theorem Computable.next_eq {left : Nat} (computable : b.Computable grow) (more : b.left = left + 1) :
    ∃ grown, grow (min b.upcoming b.cap) = .ok grown ∧
      b.next? grow = some (.ok (min b.upcoming b.cap, ⟨min grown b.cap, b.cap, left⟩)) := by
  cases grows : grow (min b.upcoming b.cap) with
  | error why => exact absurd (by simp [next?, more, grows, Except.map]) (computable.next why)
  | ok grown => exact ⟨grown, rfl, next?_of_grows more grows⟩

/-- No delay is left when all have been used. -/
theorem next?_of_spent (spent : b.left = 0) : b.next? grow = none := by
  rw [next?, spent]

/-- Each delay uses one up. -/
theorem left_lt_of_next {delay : Duration} {rest : Backoff}
    (next : b.next? grow = some (.ok (delay, rest))) : rest.left < b.left := by
  unfold next? at next
  split at next
  · cases next
  · rename_i left more
    cases grows : grow (min b.upcoming b.cap) with
    | error => simp [grows, Except.map] at next
    | ok grown =>
      simp only [grows, Except.map, Option.some.injEq, Except.ok.injEq, Prod.mk.injEq] at next
      obtain ⟨-, rfl⟩ := next
      exact more ▸ Nat.lt_succ_self left

/-! ## All delays -/

def schedule (grow : Growth) (b : Backoff) : List Duration :=
  (b.delays grow b.left).1

/-- Each delay is the growth of the one before, up to a cap, and the first is this, up to the
cap. -/
def Grows (grow : Growth) (cap : Duration) : Duration → List Duration → Prop
  | _, [] => True
  | upcoming, delay :: later =>
    delay = min upcoming cap ∧ ∃ grown, grow delay = .ok grown ∧ Grows grow cap grown later

theorem Grows.of_min {cap upcoming : Duration} {delays : List Duration}
    (grows : Grows grow cap (min upcoming cap) delays) : Grows grow cap upcoming delays := by
  cases delays with
  | nil => trivial
  | cons delay later =>
    obtain ⟨same, rest⟩ := grows
    exact ⟨same.trans (Duration.min_eq_left (Duration.min_le _ _)), rest⟩

/-- No delay exceeds the cap. -/
theorem Grows.le {cap upcoming : Duration} {delays : List Duration}
    (grows : Grows grow cap upcoming delays) : ∀ delay ∈ delays, delay ≤ cap := by
  induction delays generalizing upcoming with
  | nil => nofun
  | cons delay later ih =>
    obtain ⟨rfl, grown, -, rest⟩ := grows
    exact List.forall_mem_cons.2 ⟨Duration.min_le _ _, ih rest⟩

theorem schedule_of_spent (spent : b.left = 0) : schedule grow b = [] := by
  rw [schedule, spent, delays]

theorem schedule_of_next {delay : Duration} {rest : Backoff} {left : Nat}
    (more : b.left = left + 1) (next : b.next? grow = some (.ok (delay, rest)))
    (fewer : rest.left = left) : schedule grow b = delay :: schedule grow rest := by
  rw [schedule, schedule, more, fewer, delays, next]

/-- There are as many delays as there are left, each grows out of the one before, and then there are
no more. -/
theorem Computable.schedule_grows (computable : b.Computable grow) :
    (schedule grow b).length = b.left ∧ Grows grow b.cap b.upcoming (schedule grow b) ∧
      b.delays grow (b.left + 1) = (schedule grow b, .done) := by
  induction more : b.left generalizing b with
  | zero =>
    rw [schedule_of_spent more, delays, next?_of_spent more]
    exact ⟨rfl, trivial, rfl⟩
  | succ left ih =>
    obtain ⟨grown, grows, next⟩ := computable.next_eq more
    obtain ⟨count, later, done⟩ := ih (computable.rest next) rfl
    rw [schedule_of_next more next rfl, delays, next]
    dsimp only
    rw [done]
    exact ⟨congrArg (· + 1) count, ⟨rfl, grown, grows, later.of_min⟩, rfl⟩

theorem computable_of_spent (spent : b.left = 0) : b.Computable grow := by
  rintro (_ | limit) why
  · nofun
  · simp [delays, next?_of_spent spent]

theorem computable_of_next {delay : Duration} {rest : Backoff}
    (next : b.next? grow = some (.ok (delay, rest))) (computable : rest.Computable grow) :
    b.Computable grow := by
  rintro (_ | limit) why
  · nofun
  · simpa [delays, next] using computable limit why

/-- All delays can be computed if none is missing. -/
theorem computable_iff_length : b.Computable grow ↔ (schedule grow b).length = b.left := by
  refine ⟨fun computable => computable.schedule_grows.1, fun count => ?_⟩
  induction more : b.left generalizing b with
  | zero => exact computable_of_spent more
  | succ left ih =>
    cases grows : grow (min b.upcoming b.cap) with
    | error why => simp [schedule, more, delays, next?, grows, Except.map] at count
    | ok grown =>
      have next := next?_of_grows more grows
      rw [schedule_of_next more next rfl, more] at count
      exact computable_of_next next (ih (Nat.succ.inj count) rfl)

/-- If every delay up to the cap grows, all delays can be computed. -/
theorem computable_of_grows (grows : ∀ delay ≤ b.cap, ∃ grown, grow delay = .ok grown) :
    b.Computable grow := by
  induction more : b.left generalizing b with
  | zero => exact computable_of_spent more
  | succ left ih =>
    obtain ⟨grown, ok⟩ := grows _ (Duration.min_le b.upcoming b.cap)
    exact computable_of_next (next?_of_grows more ok) (ih grows rfl)

end Backoff

end Baseband
