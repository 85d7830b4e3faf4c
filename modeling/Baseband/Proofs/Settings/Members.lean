import Mathlib.Data.List.Forall2
import Mathlib.Data.Option.Basic
import Baseband.Settings.Reader

/-!
# Members of settings

What the reader of an object finds under a name, and from it what each structure of the settings is
read from. The order of the members and members with other names have no part in it.

## Main definitions

* `Named`: which names the members of an object may have.
* `Member`: the value that is read under a name.

## Main statements

* `select?_eq_some`: the reader finds one field for each name.
* `readVersion_object`, `readAttribution_object`, `readDuration_object`, `readRetry_object`,
  `read_object`: from which members each structure is read.
-/

namespace Baseband.Settings

variable {α : Type} {known : List String} {strict : Bool} {name : String}
  {members : List (Option String × Json)} {fields : List (Option Json)} {field : Option Json}

/-! ## Fields -/

def Named (known : List String) (strict : Bool) (members : List (Option String × Json)) : Prop :=
  ∀ member ∈ members, ∃ key, member.1 = some key ∧ (strict → key ∈ known)

/-- The members with a name are the value in the field, or none. -/
def Field (members : List (Option String × Json)) (name : String) (field : Option Json) : Prop :=
  members.filter (fun (key, _) => key == some name) =
    (field.map fun value => (some name, value)).toList

theorem mapM_eq_some {β : Type} {f : α → Option β} {xs : List α} {ys : List β} :
    xs.mapM f = some ys ↔ List.Forall₂ (fun x y => f x = some y) xs ys := by
  induction xs generalizing ys with
  | nil => simp [eq_comm]
  | cons x xs ih =>
    simp only [List.mapM_cons, Option.bind_eq_bind, Option.bind_eq_some_iff, Option.pure_def,
      Option.some.injEq, ih, List.forall₂_cons_left_iff]
    grind

/-- A name is found if no two members have it. -/
theorem field_iff : Field members name field ↔
    (match members.filter fun (key, _) => key == some name with
      | [] => some none
      | [(_, value)] => some (some value)
      | _ => none) = some field := by
  have found {member : Option String × Json}
      (h : member ∈ members.filter fun (key, _) => key == some name) : member.1 = some name := by
    simpa using (List.mem_filter.mp h).2
  unfold Field
  split
  case h_1 none =>
    rw [none]
    cases field <;> simp
  case h_2 key value one =>
    obtain rfl : key = some name := @found (key, value) (by rw [one]; simp)
    rw [one]
    cases field <;> simp
  case h_3 none one =>
    simp only [reduceCtorEq, iff_false]
    intro h
    cases field with
    | none => exact none h
    | some value => exact one _ _ h

theorem named_cons {member : Option String × Json} : Named known strict (member :: members) ↔
    (∃ key, member.1 = some key ∧ (strict → key ∈ known)) ∧ Named known strict members :=
  List.forall_mem_cons

/-- Members are named as the reader checks it. -/
theorem named_iff : Named known strict members ↔
    ∃ keys, members.mapM (·.1) = some keys ∧ (!strict || keys.all known.contains) := by
  induction members with
  | nil => simp [Named]
  | cons member members ih =>
    rw [named_cons, ih]
    cases strict with
    | false => simp [Option.bind_eq_some_iff]
    | true => simp [Option.bind_eq_some_iff]; grind

/-- The reader of an object finds one field for each name. -/
theorem select?_eq_some : select? known strict members = some fields ↔
    Named known strict members ∧ List.Forall₂ (Field members) known fields := by
  simp only [named_iff, select?, Option.bind_eq_bind, Option.bind_eq_some_iff, mapM_eq_some,
    Option.guard_eq_some', exists_const]
  constructor
  · rintro ⟨keys, texts, known, found⟩
    exact ⟨⟨keys, texts, known⟩, found.imp fun name field => field_iff.mpr⟩
  · rintro ⟨⟨keys, texts, known⟩, found⟩
    exact ⟨keys, texts, known, found.imp fun name field => field_iff.mp⟩

/-! ## What is read under a name -/

def Member (members : List (Option String × Json)) (name : String) (read : Option Json → Option α)
    (value : α) : Prop :=
  ∃ field, Field members name field ∧ read field = some value

variable {v : Version} {w : Attribution} {d : Duration} {r : RetryPolicy} {s : Settings}

/-- A structure of two required members. -/
theorem pair_object {β γ : Type} {first second : String} {x : From α} {y : From β}
    {make : α → β → Option γ} {result : γ} :
    (do
      let [a, b] ← fields? [first, second] strict false (.object members) | none
      let a ← required x a
      let b ← required y b
      make a b) = some result ↔
    Named [first, second] strict members ∧ ∃ a b, Member members first (required x) a ∧
      Member members second (required y) b ∧ make a b = some result := by
  simp only [fields?, Option.bind_eq_bind, Option.bind_eq_some_iff, select?_eq_some,
    List.forall₂_cons_left_iff, List.forall₂_nil_left_iff, Member]
  constructor
  · rintro ⟨_, ⟨named, field₁, _, found₁, ⟨field₂, _, found₂, rfl, rfl⟩, rfl⟩, h⟩
    simp only [Option.bind_eq_some_iff] at h
    obtain ⟨a, ha, b, hb, made⟩ := h
    exact ⟨named, a, b, ⟨field₁, found₁, ha⟩, ⟨field₂, found₂, hb⟩, made⟩
  · rintro ⟨named, a, b, ⟨field₁, found₁, ha⟩, ⟨field₂, found₂, hb⟩, made⟩
    refine ⟨_, ⟨named, field₁, _, found₁, ⟨field₂, _, found₂, rfl, rfl⟩, rfl⟩, ?_⟩
    simp [ha, hb, made]

theorem readVersion_object : readVersion (.object members) = some v ↔
    Named versionNames false members ∧ ∃ major minor,
      Member members "major" (required (readNatural Version.limit)) major ∧
      Member members "minor" (required (readNatural Version.limit)) minor ∧
      some ⟨.ofNat major, .ofNat minor⟩ = some v :=
  pair_object

theorem readAttribution_object : readAttribution (.object members) = some w ↔
    Named attributionNames false members ∧ ∃ uid package,
      Member members "uid" (required (readNatural (1 <<< 32 - 1))) uid ∧
      Member members "package" (required readText) package ∧
      some ⟨.ofNat uid, package⟩ = some w :=
  pair_object

/-- A duration is read from its two members, and admits no others. -/
theorem readDuration_object : readDuration (.object members) = some d ↔
    Named durationNames true members ∧ ∃ seconds nanos,
      Member members "secs" (required (readNatural (1 <<< 64 - 1))) seconds ∧
      Member members "nanos" (required (readNatural (1 <<< 32 - 1))) nanos ∧
      Duration.of? seconds nanos = some d :=
  pair_object

theorem readRetry_object : readRetry (.object members) = some r ↔
    Named retryNames false members ∧ ∃ attempts,
      Member members "max_attempts" (required (readNatural (1 <<< 32 - 1))) attempts ∧
      Member members "multiplier" (required readSingle) r.multiplier ∧
      Member members "initial_delay" (required readDuration) r.initialDelay ∧
      Member members "max_delay" (required readDuration) r.maxDelay ∧
      .ofNat attempts = r.maxAttempts := by
  simp only [readRetry, fields?, Option.bind_eq_bind, Option.bind_eq_some_iff, select?_eq_some,
    retryNames, List.forall₂_cons_left_iff, List.forall₂_nil_left_iff, Member]
  constructor
  · rintro ⟨_, ⟨named, field₁, _, found₁, ⟨field₂, _, found₂, ⟨field₃, _, found₃,
      ⟨field₄, _, found₄, rfl, rfl⟩, rfl⟩, rfl⟩, rfl⟩, h⟩
    simp only [Option.bind_eq_some_iff, Option.pure_def, Option.some.injEq] at h
    obtain ⟨attempts, h₁, multiplier, h₂, initial, h₃, cap, h₄, rfl⟩ := h
    exact ⟨named, attempts, ⟨_, found₁, h₁⟩, ⟨_, found₂, h₂⟩, ⟨_, found₃, h₃⟩, ⟨_, found₄, h₄⟩, rfl⟩
  · rintro ⟨named, attempts, ⟨field₁, found₁, h₁⟩, ⟨field₂, found₂, h₂⟩, ⟨field₃, found₃, h₃⟩,
      ⟨field₄, found₄, h₄⟩, made⟩
    refine ⟨_, ⟨named, field₁, _, found₁, ⟨field₂, _, found₂, ⟨field₃, _, found₃,
      ⟨field₄, _, found₄, rfl, rfl⟩, rfl⟩, rfl⟩, rfl⟩, ?_⟩
    simp only [h₁, h₂, h₃, h₄, made, Option.bind_some, Option.pure_def]

structure Written (members : List (Option String × Json)) (s : Settings) : Prop where
  named : Named names false members
  candidates : Member members "candidate_versions"
    (withDefault standard.candidates (readList readVersion)) s.candidates
  mobileNetwork : Member members "mobile_network_supported"
    (withDefault standard.mobileNetwork readBool) s.mobileNetwork
  attribution : Member members "work_source"
    (withDefault standard.attribution readAttribution) s.attribution
  standalone : Member members "five_g_standalone"
    (withDefault standard.standalone readBool) s.standalone
  nonStandalone : Member members "five_g_non_standalone"
    (withDefault standard.nonStandalone readBool) s.nonStandalone
  retry : Member members "discovery_retry"
    (withDefault standard.retry (readOptional readRetry)) s.retry
  inboxCapacity : Member members "indication_buffer"
    (withDefault standard.inboxCapacity readWord) s.inboxCapacity

/-- Settings are read from members exactly if they are written by them. -/
theorem read_object : read (.object members) = some s ↔ Written members s := by
  simp only [read, fields?, Option.bind_eq_bind, Option.bind_eq_some_iff, select?_eq_some]
  constructor
  · rintro ⟨fields, ⟨named, found⟩, h⟩
    simp only [names, List.forall₂_cons_left_iff, List.forall₂_nil_left_iff] at found
    obtain ⟨_, _, found₁, ⟨_, _, found₂, ⟨_, _, found₃, ⟨_, _, found₄, ⟨_, _, found₅,
      ⟨_, _, found₆, ⟨_, _, found₇, rfl, rfl⟩, rfl⟩, rfl⟩, rfl⟩, rfl⟩, rfl⟩, rfl⟩ := found
    simp only [Option.bind_eq_some_iff, Option.pure_def, Option.some.injEq] at h
    obtain ⟨_, h₁, _, h₂, _, h₃, _, h₄, _, h₅, _, h₆, _, h₇, rfl⟩ := h
    exact ⟨named, ⟨_, found₁, h₁⟩, ⟨_, found₂, h₂⟩, ⟨_, found₃, h₃⟩, ⟨_, found₄, h₄⟩,
      ⟨_, found₅, h₅⟩, ⟨_, found₆, h₆⟩, ⟨_, found₇, h₇⟩⟩
  · rintro ⟨named, ⟨_, found₁, h₁⟩, ⟨_, found₂, h₂⟩, ⟨_, found₃, h₃⟩, ⟨_, found₄, h₄⟩,
      ⟨_, found₅, h₅⟩, ⟨_, found₆, h₆⟩, ⟨_, found₇, h₇⟩⟩
    refine ⟨_, ⟨named, .cons found₁ (.cons found₂ (.cons found₃ (.cons found₄ (.cons found₅
      (.cons found₆ (.cons found₇ .nil))))))⟩, ?_⟩
    simp [h₁, h₂, h₃, h₄, h₅, h₆, h₇]

end Baseband.Settings
