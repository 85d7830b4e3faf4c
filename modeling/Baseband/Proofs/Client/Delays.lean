import Baseband.Proofs.Client.Completions
import Baseband.Proofs.Discovery.Backoff

/-!
# Delays that can be computed

A call breaks off only when the delay before its next pass cannot be computed. If every delay of the
policy can be, then no call ever does.
-/

namespace Baseband

variable {κ α : Type}

def Stage.backoff? : Stage α → Option Backoff
  | .probing _ _ backoff | .resting backoff => backoff
  | .queued | .linking _ | .routing _ | .abandoning => none

namespace Client

open Command (collect discarded?)

/-- All delays can be computed, those of a fresh discovery and those before calls under way. -/
structure Patient (c : Client κ α) : Prop where
  fresh : ∀ backoff, c.freshBackoff = some backoff → backoff.Computable c.growth
  pending : ∀ id goal stage backoff, (id, .connecting goal stage) ∈ c.calls →
    stage.backoff? = some backoff → backoff.Computable c.growth

theorem Patient.mono {c d : Client κ α} (patient : c.Patient) (retry : d.retry = c.retry)
    (calls : ∀ entry ∈ d.calls, entry ∈ c.calls) : d.Patient where
  fresh := by
    rw [freshBackoff, growth, retry]
    exact patient.fresh
  pending id goal stage backoff listed before := by
    rw [growth, retry]
    exact patient.pending id goal stage backoff (calls _ listed) before

/-- A call that is put spoils nothing if its own delays can be computed. -/
theorem Patient.put {c d : Client κ α} (patient : c.Patient) (retry : d.retry = c.retry)
    (calls : d.calls = c.calls) {id : CallId} {call : Call κ α}
    (computable : ∀ goal stage backoff, call = .connecting goal stage →
      stage.backoff? = some backoff → backoff.Computable c.growth) :
    (d.putCall id call).Patient where
  fresh := by
    change ∀ backoff, d.freshBackoff = some backoff → backoff.Computable d.growth
    rw [freshBackoff, growth, retry]
    exact patient.fresh
  pending other goal stage backoff listed before := by
    change backoff.Computable d.growth
    rw [growth, retry]
    rcases mem_calls_putCall.1 listed with ⟨listed, -⟩ | ⟨-, eq⟩
    · exact patient.pending other goal stage backoff (calls ▸ listed) before
    · exact computable goal stage backoff eq.symm before

/-- The delays before a call under way are fresh ones or those it had, which can be computed. -/
theorem Patient.inherited {c : Client κ α} (patient : c.Patient) {id : CallId} {goal : Goal κ}
    {backoff : Option Backoff} (inherits : Inherits c id goal backoff) {b : Backoff}
    (some : backoff = some b) : b.Computable c.growth := by
  subst some
  rcases inherits with fresh | ⟨version, rest, found⟩ | found
  · exact patient.fresh b fresh.symm
  · exact patient.pending _ _ _ b (mem_calls_of_call? found) rfl
  · exact patient.pending _ _ _ b (mem_calls_of_call? found) rfl

theorem Conclusion.patient {c c' : Client κ α} {id : CallId} {goal : Goal κ}
    {commands : List (Command κ α)} (conclusion : Conclusion c id goal c' commands)
    (patient : c.Patient) : c'.Patient := by
  cases conclusion with
  | found | told | unavailable | unsupported => exact patient
  | @accepted query completion =>
    let outstanding := (c.outstanding.submit query.operation completion c.attribution).2
    refine patient.put (d := { c with outstanding }) rfl rfl ?_
    rintro _ _ _ ⟨⟩

/-- Whatever the client does, all delays can still be computed. -/
theorem Move.patient {c c' : Client κ α} {event : Event κ α} {commands : List (Command κ α)}
    (move : Move c event c' commands) (patient : c.Patient) : c'.Patient := by
  have quiet {d : Client κ α} {id : CallId} {goal : Goal κ} {stage : Stage α}
      (none : stage.backoff? = none) (retry : d.retry = c.retry) (calls : d.calls = c.calls) :
      (d.putCall id (.connecting goal stage)).Patient := by
    refine patient.put retry calls ?_
    rintro _ _ _ ⟨⟩ some
    simp [none] at some
  cases move with
  | ignore | listen | lose | answer | submit | take | flush | startAt =>
    exact patient.mono rfl fun _ listed => listed
  | conclude unused conclusion => exact conclusion.patient patient
  | queue supported unused closed => exact quiet rfl rfl rfl
  | @look event id goal gate inside none backoff inherits =>
    refine patient.put (d := { c with gate }) rfl rfl ?_
    rintro _ _ b ⟨⟩ before
    exact patient.inherited inherits before
  | rest inside none stage again =>
    refine patient.put (d := c) rfl rfl ?_
    rintro _ _ after ⟨⟩ ⟨⟩
    obtain ⟨before, rfl, next⟩ := Backoff.next?_of_again again
    exact (patient.pending _ _ _ before (mem_calls_of_call? stage) rfl).rest next
  | install | route | abandonLost => exact quiet rfl rfl rfl
  | abandon => exact quiet (d := c.lost) rfl rfl rfl
  | leave inside conclusion =>
    exact conclusion.patient (patient.mono rfl mem_calls_of_mem_dropCall)
  | breakOff | forsake | withdraw | sent | unsent | stranded | resolved | cancelSend =>
    exact patient.mono rfl mem_calls_of_mem_dropCall

/-- While delays can be computed and no call is dropped, no completion is dropped. -/
theorem Move.discarded_eq_nil {c c' : Client κ α} {event : Event κ α}
    {commands : List (Command κ α)} (move : Move c event c' commands) (patient : c.Patient)
    (stays : ∀ id, event ≠ .cancel id) : collect discarded? commands = [] := by
  have concluded {d d' : Client κ α} {id : CallId} {goal : Goal κ} {commands : List (Command κ α)}
      (conclusion : Conclusion d id goal d' commands) : collect discarded? commands = [] := by
    cases conclusion <;> rfl
  cases move with
  | ignore | listen | answer | submit | take | startAt | queue | look | rest | install | route
  | abandonLost | sent | stranded | resolved => rfl
  | lose | flush => simp
  | conclude unused conclusion => exact concluded conclusion
  | abandon | unsent => simp
  | leave inside conclusion => simpa using concluded conclusion
  | breakOff inside stage failed =>
    obtain ⟨before, rfl, next⟩ := Backoff.next?_of_failed failed
    exact absurd next ((patient.pending _ _ _ before (mem_calls_of_call? stage) rfl).next _)
  | forsake | withdraw | cancelSend => exact absurd rfl (stays _)

end Client

end Baseband
