import Baseband.Proofs.Client.Served
import Baseband.Proofs.Client.Sharing
import Baseband.Proofs.Run.Acquire
import Baseband.Proofs.Version

/-!
# One pass, and as many as it takes

Whoever answers the lookups of a run, and however, a pass goes through the candidates from the newest
on, each once, and what it comes to depends only on which candidates there are. A pass that is
interrupted is followed by a rest and another pass, as often as the policy allows.
-/

namespace Baseband

variable {κ α σ : Type}

namespace Settings

/-- How often a pass that is interrupted is followed by another. -/
def attempts (settings : Settings) : Nat :=
  settings.retry.elim 0 fun policy => policy.maxAttempts.toNat

def delays (settings : Settings) : List Duration :=
  settings.retry.elim [] fun policy => Backoff.schedule policy.growth (.ofPolicy policy)

def Computable (settings : Settings) : Prop :=
  ∀ policy, settings.retry = some policy → (Backoff.ofPolicy policy).Computable policy.growth

/-- There are as many delays as attempts, each the growth of the one before, up to the cap. -/
theorem delays_grow (settings : Settings) (computable : settings.Computable) :
    settings.delays.length = settings.attempts ∧
      ∀ policy, settings.retry = some policy →
        Backoff.Grows policy.growth policy.maxDelay policy.initialDelay settings.delays ∧
          ∀ delay ∈ settings.delays, delay ≤ policy.maxDelay := by
  cases retry : settings.retry with
  | none => exact ⟨by simp [delays, attempts, retry], nofun⟩
  | some policy =>
    obtain ⟨count, grows, -⟩ := (computable policy retry).schedule_grows
    simp only [delays, attempts, retry, Option.elim_some]
    refine ⟨count, ?_⟩
    rintro _ ⟨⟩
    exact ⟨grows, grows.le⟩

end Settings

namespace Backoff

/-- With one pass more, the standard policy has one delay. -/
theorem next?_once : (ofPolicy { RetryPolicy.standard with maxAttempts := 1 }).next?
    { RetryPolicy.standard with maxAttempts := 1 }.growth =
      some (.ok (.millis 100, ⟨.millis 200, .millis 5000, 0⟩)) := by
  decide +kernel

/-- The single delay of one attempt is the initial one, which needs no computation. -/
theorem computable_once : (ofPolicy { RetryPolicy.standard with maxAttempts := 1 }).Computable
    { RetryPolicy.standard with maxAttempts := 1 }.growth := by
  intro limit why
  rcases limit with _ | _ | limit <;> simp [delays, next?_once, next?_of_spent]

end Backoff

namespace Client

def rounds (c : Client κ α) (make : σ → Probe.Pass σ α) (first : σ) : Probe.Rounds σ α :=
  Probe.rounds c.growth make c.freshBackoff first

/-- What a client keeps of the settings that it was made with. -/
structure MadeWith (c : Client κ α) (settings : Settings) : Prop where
  candidates : c.candidates = Version.newestFirst settings.candidates
  retry : c.retry = settings.retry
  supported : c.supported = settings.mobileNetwork

section MadeWith

variable {c c' : Client κ α} {event : Event κ α} {commands : List (Command κ α)}
  {settings : Settings}

theorem madeWith_ofSettings (settings : Settings) :
    (ofSettings settings : Client κ α).MadeWith settings :=
  ⟨rfl, rfl, rfl⟩

/-- No move changes what the client keeps of its settings. -/
theorem Move.madeWith (move : Move c event c' commands) (made : c.MadeWith settings) :
    c'.MadeWith settings where
  candidates := move.candidates.trans made.candidates
  retry := move.retry.trans made.retry
  supported := move.supported.trans made.supported

/-- A client has as many delays before it as its settings allow attempts. -/
theorem MadeWith.budget_eq (made : c.MadeWith settings) :
    Probe.budget c.freshBackoff = settings.attempts := by
  rw [freshBackoff, made.retry, Settings.attempts]
  cases settings.retry <;> rfl

theorem MadeWith.schedule_eq (made : c.MadeWith settings) :
    Probe.schedule c.growth c.freshBackoff = settings.delays := by
  rw [freshBackoff, growth, made.retry, Settings.delays]
  cases settings.retry <;> rfl

theorem MadeWith.computable (made : c.MadeWith settings) (computable : settings.Computable)
    (b : Backoff) (fresh : c.freshBackoff = some b) : b.Computable c.growth := by
  rw [freshBackoff, made.retry] at fresh
  obtain ⟨policy, retry, rfl⟩ := Option.map_eq_some_iff.1 fresh
  rw [growth, made.retry, retry]
  exact computable policy retry

end MadeWith

end Client

namespace Run

open Client (Served Starts)
open Probe (Answers Ends OfNoUse Pass Provider rounds turn)

variable {settings : Settings} {allowed : State κ α → Event κ α → Prop} {s : State κ α}
  {past : List (State κ α)}

/-! ## One pass -/

/-- The client keeps what its settings say throughout a run. -/
theorem madeWith (run : Run settings allowed s past) : s.client.MadeWith settings := by
  refine run.invariant (P := fun s => s.client.MadeWith settings)
    (Client.madeWith_ofSettings settings) ?_ fun _ _ _ made _ => made
  exact fun s event valid made _ _ => (Client.handle_move valid event).madeWith made

/-- The candidates of a run are those of its settings, in order. -/
theorem candidates_eq (run : Run settings allowed s past) :
    s.client.candidates = Version.newestFirst settings.candidates :=
  run.madeWith.candidates

/-- The candidates of a run are listed newest first, each once. Whoever answers lookups, a pass looks
up the candidates from the first one on, and it ends at the first answer that is of use: a
connection that speaks the version asked for, or an interruption; it passes over all other answers,
and returns that the service is unavailable exactly if it has passed over all candidates. This is
what a call looks up that starts a pass and is answered so, and it goes on with the outcome of the
pass. With the same candidates in another order, or listed another number of times, the pass is the
same. -/
theorem candidates_tried_in_order (run : Run settings allowed s past) :
    (s.client.candidates.Pairwise (fun version older => older < version) ∧
      ∀ version, version ∈ s.client.candidates ↔ version ∈ settings.candidates) ∧
    ∀ (p : Provider σ α) (first : σ),
      ((s.client.pass p first).lookups.map Prod.fst <+: s.client.candidates ∧
        Answers p first (s.client.pass p first).lookups (s.client.pass p first).provider ∧
        Ends s.client.candidates (s.client.pass p first).lookups (s.client.pass p first).outcome ∧
        ((s.client.pass p first).outcome = .error .unavailable ↔
          (s.client.pass p first).lookups.map Prod.fst = s.client.candidates ∧
            ∀ entry ∈ (s.client.pass p first).lookups, OfNoUse entry.1 entry.2)) ∧
      (∀ id goal backoff start events state, s.client.Starts id goal start backoff →
        Served p s.client id start first events state →
        (s.client.sought id events <+: (s.client.pass p first).acts ∧
          ∃ version rest, (s.client.after events).call? id =
            some (.connecting goal (.probing version rest backoff))) ∨
        s.client.Closes id goal backoff (s.client.pass p first) events) ∧
      ∀ (other : Settings) (allowed' : State κ α → Event κ α → Prop) (s' : State κ α)
        (past' : List (State κ α)), Run other allowed' s' past' →
        (∀ version, version ∈ other.candidates ↔ version ∈ settings.candidates) →
        s'.client.pass p first = s.client.pass p first := by
  obtain ⟨descending, members⟩ := Version.descending_newestFirst settings.candidates
  rw [← run.candidates_eq] at descending members
  refine ⟨⟨descending, members⟩, fun p first => ⟨?_, ?_, ?_⟩⟩
  · obtain ⟨looked, answers, ends⟩ := Probe.pass_ends p first s.client.candidates
    exact ⟨looked, answers, ends, ends.unavailable_iff⟩
  · intro id goal backoff start events state starts served
    cases starts.passing served with
    | @looks version rest asked call sought acts =>
      refine .inl ⟨?_, version, rest, call⟩
      rw [sought, acts]
      exact (List.prefix_append_right_inj asked).2 (Probe.inl_prefix_acts_pass p state version rest)
    | ended closes => exact .inr closes
  · intro other allowed' s' past' run' same
    rw [Client.pass, Client.pass, run.candidates_eq, run'.candidates_eq,
      Version.newestFirst_congr same]

/-- The newest candidate speaks an older version, so the pass takes the next one, and the call goes on
with it. -/
theorem candidates_tried_in_order_of_mismatch :
    ∃ (s : State Nat Nat) (p : Provider Unit Nat) (events : List (Event Nat Nat)),
      Run { Settings.standard with candidates := [⟨1, 0⟩, ⟨1, 3⟩, ⟨1, 0⟩] } (fun _ _ => True) s [] ∧
        s.client.Starts 0 .acquire (.call 0 .acquire) none ∧
        Served p s.client 0 (.call 0 .acquire) () events () ∧
        (s.client.pass p ()).lookups =
          [(⟨1, 3⟩, .ok (3, ⟨1, 2⟩)), (⟨1, 0⟩, .ok (5, ⟨1, 0⟩))] ∧
        (s.client.pass p ()).outcome = .ok (⟨1, 0⟩, 5) ∧
        s.client.Closes 0 .acquire none (s.client.pass p ()) events := by
  let p : Provider Unit Nat := fun _ version =>
    (.ok (if version = ⟨1, 3⟩ then (3, ⟨1, 2⟩) else (5, ⟨1, 0⟩)), ())
  let settings := { Settings.standard with candidates := [⟨1, 0⟩, ⟨1, 3⟩, ⟨1, 0⟩] }
  let s : State Nat Nat :=
    ⟨{ Client.ofSettings settings with candidates := [⟨1, 3⟩, ⟨1, 0⟩] }, [], []⟩
  have order : Version.newestFirst settings.candidates = [⟨1, 3⟩, ⟨1, 0⟩] := by
    refine Version.newestFirst_eq (.cons (by decide) (List.pairwise_singleton _ _)) fun v => ?_
    simp [settings, or_comm]
  have run : Run settings (fun _ _ => True) s [] := start_of_candidates _ order
  have starts : s.client.Starts 0 .acquire (.call 0 .acquire) none := .called rfl rfl rfl rfl
  have served : Served p s.client 0 (.call 0 .acquire) () _ () := .found (.found .start rfl) rfl
  refine ⟨s, p, _, run, starts, served, rfl, rfl, ?_⟩
  refine (((candidates_tried_in_order run).2 p ()).2.1 _ _ _ _ _ _ starts served).resolve_left ?_
  rintro ⟨-, version, rest, probing⟩
  cases probing

/-! ## The retry loop -/

/-- If every delay can be computed, then there are as many delays as the policy allows passes after
the first. The first one is the initial delay and each later one the growth of the one before, none
of them above the cap. Of passes that are interrupted `k` times before one is not, one more is made
than delays are waited for, which is `k`, or all delays if they are fewer; between any two passes
there is one delay, in order, and none after the last; and the outcome is that of the last pass. This
is what a call asks for that starts to look for the service, whoever answers its lookups, and it goes
on with this outcome. -/
theorem passes_repeated (run : Run settings allowed s past) (computable : settings.Computable) :
    (settings.delays.length = settings.attempts ∧
      ∀ policy, settings.retry = some policy →
        Backoff.Grows policy.growth policy.maxDelay policy.initialDelay settings.delays ∧
          ∀ delay ∈ settings.delays, delay ≤ policy.maxDelay) ∧
    (∀ (make : σ → Pass σ α) (first : σ) (k : Nat),
      (∀ i < k, (turn make first i).Interrupted) →
      ((turn make first k).Interrupted → settings.attempts ≤ k) →
      (s.client.rounds make first).passes =
          (List.range (min k settings.attempts + 1)).map (turn make first) ∧
        (s.client.rounds make first).delays = settings.delays.take (min k settings.attempts) ∧
        (s.client.rounds make first).acts = (turn make first 0).acts ++
          (List.zipWith (fun delay i => .inr delay :: (turn make first (i + 1)).acts)
            (settings.delays.take (min k settings.attempts))
            (List.range (min k settings.attempts))).flatten ∧
        (s.client.rounds make first).ending =
          .ok (turn make first (min k settings.attempts)).outcome) ∧
    ∀ (p : Provider σ α) (first : σ) id goal start events state,
      s.client.Starts id goal start s.client.freshBackoff →
      Served p s.client id start first events state →
      s.client.sought id events <+: (s.client.rounds (s.client.pass p) first).acts ∧
        ((s.client.after events).Seeks id ∨
          s.client.sought id events = (s.client.rounds (s.client.pass p) first).acts ∧
            s.client.Settles id goal events (s.client.rounds (s.client.pass p) first).ending) := by
  refine ⟨settings.delays_grow computable, fun make first k interrupted stops => ?_, ?_⟩
  · rw [← run.madeWith.budget_eq] at stops ⊢
    rw [← run.madeWith.schedule_eq]
    obtain ⟨passes, delays, ending, -⟩ :=
      Probe.rounds_eq (run.madeWith.computable computable) interrupted stops
    exact ⟨passes, delays, Probe.rounds_acts passes delays, ending⟩
  · intro p first id goal start events state starts served
    cases run.valid.stands starts served with
    | @looks version rest backoff asked call sought ahead =>
      have next := Probe.inl_prefix_acts_pass p state version rest
      refine ⟨?_, .inl ⟨_, _, call, rfl⟩⟩
      rw [sought, Client.rounds, ahead.acts]
      exact (List.prefix_append_right_inj asked).2 (next.trans (Probe.acts_prefix_follow _ _))
    | rests call ahead => exact ⟨⟨_, ahead.acts.symm⟩, .inl ⟨_, _, call, rfl⟩⟩
    | ended still sought same settles => exact ⟨⟨[], by simpa⟩, .inr ⟨sought, settles⟩⟩

/-- A pass is interrupted, and the next one finds a connection, with which the call goes on. -/
theorem passes_repeated_of_interruption :
    ∃ (s : State Nat Nat) (p : Provider Nat Nat) (events : List (Event Nat Nat)),
      Run { Settings.standard with
          candidates := [⟨1, 3⟩], retry := some { RetryPolicy.standard with maxAttempts := 1 } }
        (fun _ _ => True) s [] ∧
        s.client.Starts 0 .acquire (.call 0 .acquire) s.client.freshBackoff ∧
        Served p s.client 0 (.call 0 .acquire) 0 events 2 ∧
        (s.client.rounds (s.client.pass p) 0).acts =
          [.inl ⟨1, 3⟩, .inr (.millis 100), .inl ⟨1, 3⟩] ∧
        s.client.Settles 0 .acquire events (.ok (.ok (⟨1, 3⟩, 5))) := by
  let p : Provider Nat Nat := fun n version =>
    (if n = 0 then .error (.interrupted (.lookupInterrupted version)) else .ok (5, version), n + 1)
  let settings := { Settings.standard with
    candidates := [⟨1, 3⟩], retry := some { RetryPolicy.standard with maxAttempts := 1 } }
  let s : State Nat Nat := ⟨{ Client.ofSettings settings with candidates := [⟨1, 3⟩] }, [], []⟩
  have run : Run settings (fun _ _ => True) s [] := start_of_candidates _ (by decide +kernel)
  have computable : settings.Computable := by
    rintro _ ⟨⟩
    exact Backoff.computable_once
  have delays : settings.delays = [.millis 100] :=
    (Backoff.schedule_of_next rfl Backoff.next?_once rfl).trans
      (congrArg (_ :: ·) (Backoff.schedule_of_spent rfl))
  have starts : s.client.Starts 0 .acquire (.call 0 .acquire) s.client.freshBackoff :=
    .called rfl rfl rfl rfl
  have served : Served p s.client 0 (.call 0 .acquire) 0 _ 2 :=
    .found (.rested (.found .start rfl)) rfl
  have interrupted : ∀ i < 1, (turn (s.client.pass p) 0 i).Interrupted := by
    intro i below
    obtain rfl : i = 0 := Nat.lt_one_iff.1 below
    exact ⟨_, rfl⟩
  obtain ⟨-, loop, follows⟩ := passes_repeated (σ := Nat) run computable
  obtain ⟨-, -, acts, ending⟩ := loop (s.client.pass p) 0 1 interrupted fun _ => Nat.le_refl 1
  obtain ⟨-, seeks | ⟨-, settles⟩⟩ := follows p 0 _ _ _ _ _ starts served
  · obtain ⟨goal, stage, found, seeking⟩ := seeks
    cases found
    cases seeking
  · rw [delays] at acts
    rw [ending] at settles
    exact ⟨s, p, _, run, starts, served, acts, settles⟩

end Run

end Baseband
