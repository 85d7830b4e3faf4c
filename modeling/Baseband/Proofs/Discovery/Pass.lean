import Baseband.Discovery

/-!
# One pass over the versions

Whoever answers lookups may do so in any way, and differently from lookup to lookup. Whatever it
answers, a pass goes through the versions in their order, past every answer that is of no use, until
a connection speaks the version asked for, or a lookup is interrupted, or no version is left.
-/

namespace Baseband.Probe

variable {α σ : Type}

/-- Whoever answers lookups: its answer to the lookup of a version, and what becomes of it. -/
abbrev Provider (σ α : Type) := σ → Version → Lookup α × σ

structure Pass (σ α : Type) where
  /-- The versions looked up, with the answers, in order. -/
  lookups : List (Version × Lookup α)
  outcome : Except Error (Version × α)
  /-- What has become of whoever answered. -/
  provider : σ

def Pass.after (pass : Pass σ α) (version : Version) (answer : Lookup α) : Pass σ α :=
  { pass with lookups := (version, answer) :: pass.lookups }

def pass (p : Provider σ α) (state : σ) : List Version → Pass σ α
  | [] => ⟨[], .error .unavailable, state⟩
  | version :: rest =>
    let (answer, state) := p state version
    match judge version answer with
    | .found connection => ⟨[(version, answer)], .ok (version, connection), state⟩
    | .next => (pass p state rest).after version answer
    | .stop why => ⟨[(version, answer)], .error why, state⟩

section Step

variable {p : Provider σ α} {state : σ} {version : Version} {rest : List Version}

theorem pass_of_found {connection : α}
    (found : judge version (p state version).1 = .found connection) :
    pass p state (version :: rest) =
      ⟨[(version, (p state version).1)], .ok (version, connection), (p state version).2⟩ := by
  simp only [pass, found]

theorem pass_of_next (next : judge version (p state version).1 = .next) :
    pass p state (version :: rest) =
      (pass p (p state version).2 rest).after version (p state version).1 := by
  simp only [pass, next]

theorem pass_of_stop {why : Error} (stop : judge version (p state version).1 = .stop why) :
    pass p state (version :: rest) =
      ⟨[(version, (p state version).1)], .error why, (p state version).2⟩ := by
  simp only [pass, stop]

end Step

/-! ## Answers -/

/-- The answer to the lookup of a version is neither a connection that speaks it nor an
interruption. -/
structure OfNoUse (version : Version) (answer : Lookup α) : Prop where
  silent : ∀ connection, answer ≠ .ok (connection, version)
  passing : ∀ fault, answer ≠ .error (.interrupted fault)

section Judge

variable {version : Version} {answer : Lookup α}

/-- A pass goes on only after a lookup of no use. -/
theorem of_judge_next (next : judge version answer = .next) : OfNoUse version answer := by
  constructor
  · rintro connection rfl
    simp [judge] at next
  · rintro fault rfl
    simp [judge] at next

/-- A pass ends with a connection only if it speaks the version looked up. -/
theorem of_judge_found {connection : α} (found : judge version answer = .found connection) :
    answer = .ok (connection, version) := by
  cases answer with
  | error why => cases why <;> simp [judge] at found
  | ok reply =>
    obtain ⟨connection', speaks⟩ := reply
    simp only [judge] at found
    split at found
    · rename_i same
      cases found
      rw [same]
    · cases found

/-- A pass is stopped by interruptions alone. -/
theorem of_judge_stop {why : Error} (stop : judge version answer = .stop why) :
    answer = .error why ∧ ∃ fault, why = .interrupted fault := by
  cases answer with
  | ok reply =>
    simp only [judge] at stop
    split at stop <;> cases stop
  | error cause =>
    cases cause <;> simp [judge] at stop
    subst stop
    exact ⟨rfl, _, rfl⟩

end Judge

/-! ## What a pass comes to -/

variable (p : Provider σ α)

/-- These are the answers to lookups one after the other, and what has become of whoever gave
them. -/
def Answers : σ → List (Version × Lookup α) → σ → Prop
  | state, [], last => last = state
  | state, (version, answer) :: later, last =>
    (p state version).1 = answer ∧ Answers (p state version).2 later last

/-- How a pass over versions ends: at the first answer that is of use, or after all versions. -/
inductive Ends (versions : List Version) :
    List (Version × Lookup α) → Except Error (Version × α) → Prop
  | found {before : List (Version × Lookup α)} {version : Version} {connection : α}
      (useless : ∀ entry ∈ before, OfNoUse entry.1 entry.2) :
      Ends versions (before ++ [(version, .ok (connection, version))]) (.ok (version, connection))
  | interrupted {before : List (Version × Lookup α)} {version : Version} {fault : Fault}
      (useless : ∀ entry ∈ before, OfNoUse entry.1 entry.2) :
      Ends versions (before ++ [(version, .error (.interrupted fault))])
        (.error (.interrupted fault))
  | walked {lookups : List (Version × Lookup α)}
      (useless : ∀ entry ∈ lookups, OfNoUse entry.1 entry.2)
      (whole : lookups.map Prod.fst = versions) : Ends versions lookups (.error .unavailable)

theorem Ends.cons {versions : List Version} {version : Version} {answer : Lookup α}
    {lookups : List (Version × Lookup α)} {outcome : Except Error (Version × α)}
    (ends : Ends versions lookups outcome) (useless : OfNoUse version answer) :
    Ends (version :: versions) ((version, answer) :: lookups) outcome := by
  have all {before : List (Version × Lookup α)} (others : ∀ entry ∈ before, OfNoUse entry.1 entry.2) :
      ∀ entry ∈ (version, answer) :: before, OfNoUse entry.1 entry.2 :=
    List.forall_mem_cons.2 ⟨useless, others⟩
  cases ends with
  | found others => exact .found (all others)
  | interrupted others => exact .interrupted (all others)
  | walked others whole => exact .walked (all others) (congrArg (version :: ·) whole)

/-- A pass looks up a part of the versions from the first one on, and ends at the first answer that
is of use. -/
theorem pass_ends (state : σ) (versions : List Version) :
    (pass p state versions).lookups.map Prod.fst <+: versions ∧
      Answers p state (pass p state versions).lookups (pass p state versions).provider ∧
      Ends versions (pass p state versions).lookups (pass p state versions).outcome := by
  induction versions generalizing state with
  | nil => exact ⟨List.prefix_refl _, rfl, .walked nofun rfl⟩
  | cons version rest ih =>
    cases verdict : judge version (p state version).1 with
    | found connection =>
      rw [pass_of_found verdict]
      refine ⟨⟨rest, rfl⟩, ⟨rfl, rfl⟩, ?_⟩
      rw [of_judge_found verdict]
      change Ends _ ([] ++ [(version, .ok (connection, version))]) _
      exact .found nofun
    | next =>
      rw [pass_of_next verdict]
      obtain ⟨looked, answers, ends⟩ := ih (p state version).2
      exact ⟨List.cons_prefix_cons.2 ⟨rfl, looked⟩, ⟨rfl, answers⟩, ends.cons (of_judge_next verdict)⟩
    | stop why =>
      rw [pass_of_stop verdict]
      obtain ⟨same, fault, rfl⟩ := of_judge_stop verdict
      refine ⟨⟨rest, rfl⟩, ⟨rfl, rfl⟩, ?_⟩
      rw [same]
      change Ends _ ([] ++ [(version, .error (.interrupted fault))]) _
      exact .interrupted nofun

/-- A pass returns that the service is unavailable exactly when no answer was of use. -/
theorem Ends.unavailable_iff {versions : List Version} {lookups : List (Version × Lookup α)}
    {outcome : Except Error (Version × α)} (ends : Ends versions lookups outcome) :
    outcome = .error .unavailable ↔
      lookups.map Prod.fst = versions ∧ ∀ entry ∈ lookups, OfNoUse entry.1 entry.2 := by
  cases ends with
  | @found before version connection =>
    refine ⟨nofun, fun ⟨_, useless⟩ => ?_⟩
    exact absurd rfl ((useless _ (List.mem_append_right _ (.head _))).silent connection)
  | @interrupted before version fault =>
    refine ⟨nofun, fun ⟨_, useless⟩ => ?_⟩
    exact absurd rfl ((useless _ (List.mem_append_right _ (.head _))).passing fault)
  | walked useless whole => exact ⟨fun _ => ⟨whole, useless⟩, fun _ => rfl⟩

end Baseband.Probe
