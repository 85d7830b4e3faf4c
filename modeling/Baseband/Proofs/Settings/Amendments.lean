import Baseband.Proofs.Settings.Members

/-!
# Settings written in another way

The order of the members and members with unknown names change nothing of what is read, in the
settings themselves and in each of their parts. Only a duration takes no further members.

## Main definitions

* `Rearranged`: members in another order, with further ones of unknown names.
* `Amended`: all of this in settings and their parts at once.

## Main statements

* `respects_amended`: amended settings are read as before.
-/

namespace Baseband.Settings

abbrev Amendment :=
  Json → Json → Prop

abbrev Kept (part : String → Amendment) (members kept : List (Option String × Json)) : Prop :=
  List.Forall₂ (fun member new => new.1 = member.1 ∧
    ∀ name, member.1 = some name → part name member.2 new.2) members kept

/-- Members in another order, the values under their names amended, and further members of unknown
names, unless the object is closed to them. -/
inductive Rearranged (known : List String) (closed : Bool) (part : String → Amendment)
    (members : List (Option String × Json)) : List (Option String × Json) → Prop
  | intro {kept extra changed : List (Option String × Json)}
      (amended : Kept part members kept)
      (unknown : ∀ member ∈ extra, ∃ name, member.1 = some name ∧ name ∉ known)
      (none : closed → extra = []) (order : changed.Perm (kept ++ extra)) :
      Rearranged known closed part members changed

inductive InObject (known : List String) (closed : Bool) (part : String → Amendment) : Amendment
  | same (value : Json) : InObject known closed part value value
  | object {members changed : List (Option String × Json)}
      (rearranged : Rearranged known closed part members changed) :
      InObject known closed part (.object members) (.object changed)

inductive InArray (element : Amendment) : Amendment
  | same (value : Json) : InArray element value value
  | array {elements changed : List Json} (amended : List.Forall₂ element elements changed) :
      InArray element (.array elements) (.array changed)

def versionAmended : Amendment :=
  InObject versionNames false fun _ => Eq

def attributionAmended : Amendment :=
  InObject attributionNames false fun _ => Eq

def durationAmended : Amendment :=
  InObject durationNames true fun _ => Eq

def retryPartAmended : String → Amendment
  | "initial_delay" | "max_delay" => durationAmended
  | _ => Eq

def retryAmended : Amendment :=
  InObject retryNames false retryPartAmended

def partAmended : String → Amendment
  | "candidate_versions" => InArray versionAmended
  | "work_source" => attributionAmended
  | "discovery_retry" => retryAmended
  | _ => Eq

def Amended : Amendment :=
  InObject names false partAmended

/-! ## Members that are rearranged -/

variable {α : Type} {known : List String} {closed : Bool} {amend : String → Amendment}
  {name : String} {members changed : List (Option String × Json)} {field : Option Json}

theorem Kept.keys_eq {kept : List (Option String × Json)} (amended : Kept amend members kept) :
    kept.map (·.1) = members.map (·.1) := by
  induction amended with
  | nil => rfl
  | cons first _ ih => rw [List.map_cons, List.map_cons, first.1, ih]

/-- The values under one name are amended among themselves. -/
theorem Kept.filter {kept : List (Option String × Json)} (amended : Kept amend members kept)
    (name : String) : Kept amend (members.filter fun (key, _) => key == some name)
      (kept.filter fun (key, _) => key == some name) := by
  induction amended with
  | nil => exact .nil
  | @cons member new _ _ first _ ih =>
    obtain ⟨same, amended⟩ := first
    simp only [List.filter_cons, same]
    split
    · exact .cons ⟨same, amended⟩ ih
    · exact ih

theorem Named.rearranged (named : Named known closed members)
    (rearranged : Rearranged known closed amend members changed) : Named known closed changed := by
  obtain ⟨amended, unknown, none, order⟩ := rearranged
  intro member mem
  rw [order.mem_iff, List.mem_append] at mem
  obtain mem | mem := mem
  · have mem : member.1 ∈ members.map (·.1) := amended.keys_eq ▸ List.mem_map_of_mem mem
    obtain ⟨old, among, same⟩ := List.mem_map.mp mem
    exact same ▸ named old among
  · obtain ⟨name, key, -⟩ := unknown member mem
    refine ⟨name, key, fun shut => ?_⟩
    simp [none shut] at mem

/-- The value under a known name is the one there was, amended. -/
theorem Field.rearranged (found : Field members name field) (mem : name ∈ known)
    (rearranged : Rearranged known closed amend members changed) :
    ∃ field', Field changed name field' ∧ Option.Rel (amend name) field field' := by
  obtain ⟨amended, unknown, -, order⟩ := rearranged
  rename_i kept extra
  have others : extra.filter (fun (key, _) => key == some name) = [] := by
    rw [List.filter_eq_nil_iff]
    intro member among same
    obtain ⟨key, named, new⟩ := unknown member among
    have same : member.1 = some name := by simpa using same
    obtain rfl := Option.some.inj (named.symm.trans same)
    exact new mem
  have order := order.filter fun (key, _) => key == some name
  rw [List.filter_append, others, List.append_nil] at order
  have amended := amended.filter name
  rw [found] at amended
  cases field with
  | none =>
    rw [List.forall₂_nil_left_iff.mp amended] at order
    exact ⟨none, order.eq_nil, .none⟩
  | some value =>
    obtain ⟨new, _, ⟨same, amended⟩, others, one⟩ := List.forall₂_cons_left_iff.mp amended
    obtain rfl := List.forall₂_nil_left_iff.mp others
    obtain ⟨key, value'⟩ := new
    obtain rfl : key = some name := same
    rw [one] at order
    exact ⟨some value', List.perm_singleton.mp order, .some (amended name rfl)⟩

/-! ## Readers that an amendment makes no difference to -/

def Respects (read : From α) (amended : Amendment) : Prop :=
  ∀ ⦃value value' x⦄, amended value value' → read value = some x → read value' = some x

variable {read : From α} {x : α}

theorem respects_eq : Respects read Eq := by
  rintro value _ x rfl h
  exact h

theorem Respects.object
    (respects : ∀ ⦃members changed x⦄, Rearranged known closed amend members changed →
      read (.object members) = some x → read (.object changed) = some x) :
    Respects read (InObject known closed amend) := by
  rintro value value' x (_ | ⟨rearranged⟩) h
  · exact h
  · exact respects rearranged h

theorem Respects.list {element : Amendment} (respects : Respects read element) :
    Respects (readList read) (InArray element) := by
  rintro value value' xs (_ | ⟨amended⟩) h
  · exact h
  · refine mapM_eq_some.mpr ?_
    replace h := mapM_eq_some.mp h
    induction amended generalizing xs with
    | nil => exact h
    | cons first _ ih =>
      obtain ⟨x, rest, read, others, rfl⟩ := List.forall₂_cons_left_iff.mp h
      exact .cons (respects first read) (ih others)

theorem Respects.optional (respects : Respects read (InObject known closed amend)) :
    Respects (readOptional read) (InObject known closed amend) := by
  rintro value value' x (_ | ⟨rearranged⟩) h
  · exact h
  · obtain ⟨result, read, rfl⟩ := Option.map_eq_some_iff.mp h
    exact Option.map_eq_some_iff.mpr ⟨result, respects (.object rearranged) read, rfl⟩

/-- A member is read as before, if what is read of its value is. -/
theorem Rearranged.member {read : Option Json → Option α}
    (rearranged : Rearranged known closed amend members changed) (mem : name ∈ known)
    (member : Member members name read x)
    (respects : Respects (fun value => read (some value)) (amend name)) :
    Member changed name read x := by
  obtain ⟨field, found, h⟩ := member
  obtain ⟨field', found', rel⟩ := found.rearranged mem rearranged
  cases rel with
  | none => exact ⟨_, found', h⟩
  | some amended => exact ⟨_, found', respects amended h⟩

/-! ## The parts of settings -/

/-- A structure of two required members has no parts to amend. -/
theorem respects_pair {β γ : Type} {first second : String} {x : From β} {y : From γ}
    {make : β → γ → Option α}
    (object : ∀ {members result}, read (.object members) = some result ↔
      Named [first, second] closed members ∧ ∃ a b, Member members first (required x) a ∧
        Member members second (required y) b ∧ make a b = some result) :
    Respects read (InObject [first, second] closed fun _ => Eq) := by
  refine .object fun members changed result rearranged h => ?_
  obtain ⟨named, a, b, ha, hb, made⟩ := object.mp h
  exact object.mpr ⟨named.rearranged rearranged, a, b,
    rearranged.member (by simp) ha respects_eq,
    rearranged.member (by simp) hb respects_eq, made⟩

theorem respects_version : Respects readVersion versionAmended :=
  respects_pair readVersion_object

theorem respects_attribution : Respects readAttribution attributionAmended :=
  respects_pair readAttribution_object

theorem respects_duration : Respects readDuration durationAmended :=
  respects_pair readDuration_object

theorem respects_retry : Respects readRetry retryAmended := by
  refine .object fun members changed r rearranged h => ?_
  obtain ⟨named, attempts, h₁, h₂, h₃, h₄, made⟩ := readRetry_object.mp h
  exact readRetry_object.mpr ⟨named.rearranged rearranged, attempts,
    rearranged.member (by decide) h₁ respects_eq,
    rearranged.member (by decide) h₂ respects_eq,
    rearranged.member (by decide) h₃ respects_duration,
    rearranged.member (by decide) h₄ respects_duration, made⟩

/-- Settings that are written in another way are read as before. -/
theorem respects_amended : Respects Settings.read Amended := by
  refine .object fun members changed s rearranged h => read_object.mpr ?_
  obtain ⟨named, h₁, h₂, h₃, h₄, h₅, h₆, h₇⟩ := read_object.mp h
  exact ⟨named.rearranged rearranged,
    rearranged.member (by decide) h₁ respects_version.list,
    rearranged.member (by decide) h₂ respects_eq,
    rearranged.member (by decide) h₃ respects_attribution,
    rearranged.member (by decide) h₄ respects_eq,
    rearranged.member (by decide) h₅ respects_eq,
    rearranged.member (by decide) h₆ respects_retry.optional,
    rearranged.member (by decide) h₇ respects_eq⟩

end Baseband.Settings
