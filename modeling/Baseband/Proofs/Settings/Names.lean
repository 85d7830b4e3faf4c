import Baseband.Proofs.Settings.Amendments
import Baseband.Proofs.Settings.RoundTrip

/-!
# Settings by name

Settings are read from their text by the names of the members and not by their places. A member that
is left out counts as written with its standard value, and the candidates keep the order in which
they are written.

## Main statements

* `parse_eq_ok`: which texts are settings.
* `candidates_as_written`: which candidates settings have.
* `read_left_out`: a member left out and the same member with its standard value.
* `parse_by_name`: what of a text settings do not depend on, and what all of them have.
-/

namespace Baseband.Settings

variable {α : Type} {name other : String} {members before after : List (Option String × Json)}
  {field : Option Json} {value d : Json} {s : Settings} {text : String}

/-! ## Accepted texts -/

theorem check_eq_ok : s.check = .ok () ↔ s.candidates ≠ [] ∧ s.inboxCapacity ≠ 0 := by
  unfold check
  split
  · simp_all
  · split <;> simp_all

/-- A text is settings if it spells a value that they can be read from, and they pass the check. -/
theorem parse_eq_ok : parse text = .ok s ↔
    ∃ value : Json, value.Spells text ∧ Settings.read value = some s ∧ s.check = .ok () := by
  simp only [← Json.parse?_eq_some, parse]
  constructor
  · intro h
    split at h
    case h_1 => cases h
    case h_2 s' found =>
      obtain ⟨value, spelled, read⟩ := Option.bind_eq_some_iff.mp found
      cases checked : s'.check with
      | error e =>
        rw [checked] at h
        cases h
      | ok =>
        rw [checked] at h
        obtain rfl : s' = s := Except.ok.inj h
        exact ⟨value, spelled, read, checked⟩
  · rintro ⟨value, spelled, read, checked⟩
    rw [spelled, Option.bind_some, read]
    simp only [checked]
    rfl

/-! ## Members left out -/

/-- Without the members of one name, those of other names are found as before. -/
theorem Field.left_out_other (found : Field members other field) (ne : other ≠ name)
    (others : members.filter (fun member => member.1 != some name) = before ++ after) :
    Field (before ++ after) other field ∧
      Field (before ++ (some name, d) :: after) other field := by
  have without : Field (before ++ after) other field := by
    rw [Field, ← others, List.filter_filter, ← found]
    refine List.filter_congr fun member _ => ?_
    grind
  refine ⟨without, ?_⟩
  rw [Field, List.filter_append] at without ⊢
  rwa [List.filter_cons_of_neg (by simpa using ne.symm)]

/-- A member that is left out makes its field none, and one that is put in fills it. -/
theorem field_left_out
    (others : members.filter (fun member => member.1 != some name) = before ++ after) :
    Field (before ++ after) name none ∧
      Field (before ++ (some name, d) :: after) name (some d) := by
  have without : Field (before ++ after) name none := by
    rw [Field, ← others, List.filter_filter, Option.map_none, Option.toList_none,
      List.filter_eq_nil_iff]
    simp
  refine ⟨without, ?_⟩
  rw [Field, List.filter_append] at without ⊢
  obtain ⟨front, back⟩ := List.append_eq_nil_iff.mp without
  rw [front, List.filter_cons_of_pos (by simp), back]
  rfl

theorem Field.eq_some_iff (found : Field members name field) :
    field = some value ↔ (some name, value) ∈ members := by
  have among : (some name, value) ∈ members ↔
      (some name, value) ∈ (field.map fun value => (some name, value)).toList := by
    rw [← found, List.mem_filter]
    simp
  rw [among]
  cases field <;> simp [eq_comm]

theorem Member.read_eq {read : Option Json → Option α} {x : α} (member : Member members name read x)
    (mem : (some name, value) ∈ members) : read (some value) = some x := by
  obtain ⟨field, found, h⟩ := member
  obtain rfl := found.eq_some_iff.mpr mem
  exact h

/-- A member that is left out is read like the same member with its standard value. -/
theorem Member.left_out {read : Option Json → Option α} {x standard : α}
    {defaults : List (Option String × Json)} (member : Member members other read x)
    (absent : read none = some standard) (written : Member defaults other read standard)
    (mem : (some name, d) ∈ defaults)
    (others : members.filter (fun member => member.1 != some name) = before ++ after) :
    ∃ y, (y = x ∨ y = standard) ∧ Member (before ++ after) other read y ∧
      Member (before ++ (some name, d) :: after) other read y := by
  obtain ⟨field, found, h⟩ := member
  by_cases same : other = name
  · obtain rfl := same
    have ⟨without, back⟩ := field_left_out (d := d) others
    exact ⟨standard, .inr rfl, ⟨_, without, absent⟩, ⟨_, back, written.read_eq mem⟩⟩
  · have ⟨without, back⟩ := found.left_out_other (d := d) same others
    exact ⟨x, .inl rfl, ⟨_, without, h⟩, ⟨_, back, h⟩⟩

/-- The standard settings are written by their own members. -/
theorem written_standard {defaults : List (Option String × Json)}
    (written : standard.toJson = .object defaults) : Written defaults standard :=
  read_object.mp (written ▸ read_toJson standard (by simp [standard]) (by simp [standard]))

/-- Members without those of one name, and the same with its standard value at some place. -/
inductive LeftOut (members : List (Option String × Json)) :
    List (Option String × Json) → List (Option String × Json) → Prop
  | intro {name : String} {d : Json} {defaults before after : List (Option String × Json)}
      (written : standard.toJson = .object defaults) (mem : (some name, d) ∈ defaults)
      (others : members.filter (fun member => member.1 != some name) = before ++ after) :
      LeftOut members (before ++ after) (before ++ (some name, d) :: after)

/-- Settings without the members of one name, and with its standard value, are the same. -/
theorem read_left_out {short full : List (Option String × Json)}
    (h : Settings.read (.object members) = some s) (left : LeftOut members short full) :
    ∃ s' : Settings, (s'.candidates = s.candidates ∨ s'.candidates = standard.candidates) ∧
      (s'.inboxCapacity = s.inboxCapacity ∨ s'.inboxCapacity = standard.inboxCapacity) ∧
      Settings.read (.object short) = some s' ∧ Settings.read (.object full) = some s' := by
  obtain ⟨written, mem, others⟩ := left
  rename_i name d defaults before after
  obtain ⟨named, h₁, h₂, h₃, h₄, h₅, h₆, h₇⟩ := read_object.mp h
  obtain ⟨-, d₁, d₂, d₃, d₄, d₅, d₆, d₇⟩ := written_standard written
  obtain ⟨y₁, from₁, short₁, full₁⟩ := h₁.left_out rfl d₁ mem others
  obtain ⟨y₂, -, short₂, full₂⟩ := h₂.left_out rfl d₂ mem others
  obtain ⟨y₃, -, short₃, full₃⟩ := h₃.left_out rfl d₃ mem others
  obtain ⟨y₄, -, short₄, full₄⟩ := h₄.left_out rfl d₄ mem others
  obtain ⟨y₅, -, short₅, full₅⟩ := h₅.left_out rfl d₅ mem others
  obtain ⟨y₆, -, short₆, full₆⟩ := h₆.left_out rfl d₆ mem others
  obtain ⟨y₇, from₇, short₇, full₇⟩ := h₇.left_out rfl d₇ mem others
  have short : Named names false (before ++ after) := by
    intro member mem
    exact named member (List.mem_of_mem_filter (others ▸ mem))
  have full : Named names false (before ++ (some name, d) :: after) := by
    intro member mem
    obtain rfl | mem := List.mem_cons.mp (List.perm_middle.mem_iff.mp mem)
    · exact ⟨name, rfl, by simp⟩
    · exact short member mem
  exact ⟨⟨y₁, y₂, y₃, y₄, y₅, y₆, y₇⟩, from₁, from₇,
    read_object.mpr ⟨short, short₁, short₂, short₃, short₄, short₅, short₆, short₇⟩,
    read_object.mpr ⟨full, full₁, full₂, full₃, full₄, full₅, full₆, full₇⟩⟩

/-! ## The candidates -/

inductive CandidatesIn : Json → Json → Prop
  | member {members : List (Option String × Json)} {list : Json}
      (mem : (some "candidate_versions", list) ∈ members) : CandidatesIn (.object members) list
  | first (list : Json) (rest : List Json) : CandidatesIn (.array (list :: rest)) list

/-- The candidates are read from the field under their name, or the standard ones are taken. -/
theorem exists_candidates (h : Settings.read value = some s) :
    ∃ field, (∀ list, field = some list ↔ CandidatesIn value list) ∧
      withDefault standard.candidates (readList readVersion) field = some s.candidates := by
  cases value with
  | object members =>
    obtain ⟨field, found, read⟩ := (read_object.mp h).candidates
    refine ⟨field, fun list => found.eq_some_iff.trans ⟨.member, ?_⟩, read⟩
    rintro ⟨mem⟩
    exact mem
  | array elements =>
    obtain ⟨fields, found, h⟩ := Option.bind_eq_some_iff.mp h
    have found := Option.some.inj (Option.ite_none_right_eq_some.mp found).2
    rcases fields with _ | ⟨field, _ | ⟨_, _ | ⟨_, _ | ⟨_, _ | ⟨_, _ | ⟨_, _ | ⟨_, _ | _⟩⟩⟩⟩⟩⟩⟩
    case cons.cons.cons.cons.cons.cons.cons.nil =>
      simp only [Option.bind_eq_bind, Option.bind_eq_some_iff, Option.pure_def,
        Option.some.injEq] at h
      obtain ⟨candidates, read, -, -, -, -, -, -, -, -, -, -, -, -, rfl⟩ := h
      refine ⟨field, fun list => ?_, read⟩
      cases elements with
      | nil =>
        obtain ⟨rfl, -⟩ := List.cons.inj (found : none :: List.replicate 6 none = _)
        exact ⟨by rintro ⟨⟩, by rintro ⟨⟩⟩
      | cons first rest =>
        obtain ⟨rfl, -⟩ := List.cons.inj found
        refine ⟨?_, ?_⟩
        · rintro ⟨⟩
          exact .first _ rest
        · rintro ⟨⟩
          rfl
    all_goals cases h
  | _ => cases h

/-- The candidates are those that are written, in their order, or the standard ones where none are
written. -/
def CandidatesAsWritten (value : Json) (candidates : List Version) : Prop :=
  (∃ elements, CandidatesIn value (.array elements) ∧
    List.Forall₂ (fun element v => readVersion element = some v) elements candidates) ∨
  (∀ list, ¬ CandidatesIn value list) ∧ candidates = standard.candidates

theorem candidates_as_written (h : Settings.read value = some s) :
    CandidatesAsWritten value s.candidates := by
  obtain ⟨field, place, read⟩ := exists_candidates h
  cases field with
  | none =>
    refine .inr ⟨fun list found => ?_, (Option.some.inj read).symm⟩
    cases (place list).mpr found
  | some list =>
    cases list with
    | array elements => exact .inl ⟨elements, (place _).mp rfl, mapM_eq_some.mp read⟩
    | _ => cases read

/-! ## Reading by name -/

/-- An accepted text spells a value. Every text of this value with its members in another order and
further members of unknown names gives the same settings. A member that is left out gives the same
settings as the member with its standard value. Accepted settings have candidates, in the order
written, and room for indications. -/
theorem parse_by_name (accepted : parse text = .ok s) :
    s.candidates ≠ [] ∧ s.inboxCapacity ≠ 0 ∧ (∃ value : Json, value.Spells text) ∧
    ∀ value : Json, value.Spells text →
      CandidatesAsWritten value s.candidates ∧
      (∀ changed text', Amended value changed → changed.Spells text' → parse text' = .ok s) ∧
      ∀ members short full, value = .object members → LeftOut members short full →
        ∃ s', (∀ text', (Json.object short).Spells text' → parse text' = .ok s') ∧
          ∀ text', (Json.object full).Spells text' → parse text' = .ok s' := by
  obtain ⟨value, spelled, read, checked⟩ := parse_eq_ok.mp accepted
  obtain ⟨some_candidates, room⟩ := check_eq_ok.mp checked
  refine ⟨some_candidates, room, ⟨value, spelled⟩, fun value' spelled' => ?_⟩
  obtain rfl := spelled.unique spelled'
  refine ⟨candidates_as_written read, ?_, ?_⟩
  · intro changed text' amended spelled'
    exact parse_eq_ok.mpr ⟨changed, spelled', respects_amended amended read, checked⟩
  · rintro members short full rfl left
    obtain ⟨s', candidates, capacity, read_short, read_full⟩ := read_left_out read left
    have checked' : s'.check = .ok () := by
      refine check_eq_ok.mpr ⟨?_, ?_⟩
      · obtain h | h := candidates <;> rw [h]
        · exact some_candidates
        · decide
      · obtain h | h := capacity <;> rw [h]
        · exact room
        · decide
    exact ⟨s', fun _ spelled => parse_eq_ok.mpr ⟨_, spelled, read_short, checked'⟩,
      fun _ spelled => parse_eq_ok.mpr ⟨_, spelled, read_full, checked'⟩⟩

/-- Two texts of the same settings. The second has its members the other way round, and two notes
that are passed over. -/
theorem parse_by_name_of_notes :
    let s : Settings := { standard with candidates := [⟨1, 2⟩], inboxCapacity := 4 }
    parse
      "\x7b\"indication_buffer\":4, \"candidate_versions\":[\x7b\"major\":1,\"minor\":2\x7d]\x7d" =
      .ok s ∧ s.candidates ≠ [] ∧ s.inboxCapacity ≠ 0 ∧
    parse "\x7b\"candidate_versions\":[\x7b\"minor\":2,\"note\":[[]],\"major\":1\x7d],
      \"note\" : \"\\ud800\", \"indication_buffer\":4\x7d" = .ok s := by
  intro s
  have spelled : Json.parse?
      "\x7b\"indication_buffer\":4, \"candidate_versions\":[\x7b\"major\":1,\"minor\":2\x7d]\x7d" =
      some (.object [(some "indication_buffer", .number ⟨false, [4], [], none⟩),
        (some "candidate_versions", .array [.object [
          (some "major", .number ⟨false, [1], [], none⟩),
          (some "minor", .number ⟨false, [2], [], none⟩)]])]) := by cbv
  have spelled' : Json.parse?
      "\x7b\"candidate_versions\":[\x7b\"minor\":2,\"note\":[[]],\"major\":1\x7d],
      \"note\" : \"\\ud800\", \"indication_buffer\":4\x7d" =
      some (.object [(some "candidate_versions", .array [.object [
          (some "minor", .number ⟨false, [2], [], none⟩), (some "note", .array [.array []]),
          (some "major", .number ⟨false, [1], [], none⟩)]]),
        (some "note", .string none),
        (some "indication_buffer", .number ⟨false, [4], [], none⟩)]) := by cbv
  have accepted : parse _ = .ok s := parse_eq_ok.mpr ⟨_, Json.parse?_eq_some.mp spelled, rfl, rfl⟩
  obtain ⟨candidates, room, -, all⟩ := parse_by_name accepted
  refine ⟨accepted, candidates, room, ?_⟩
  refine (all _ (Json.parse?_eq_some.mp spelled)).2.1 _ _ ?_ (Json.parse?_eq_some.mp spelled')
  refine .object (@Rearranged.intro _ _ _ _ [_, _] [_] _ ?_ ?_ (by simp)
    (List.perm_append_singleton _ [_, _]))
  · refine .cons ⟨rfl, ?_⟩ (.cons ⟨rfl, ?_⟩ .nil)
    · rintro _ ⟨⟩
      rfl
    · rintro _ ⟨⟩
      refine InArray.array (.cons (.object (@Rearranged.intro _ _ _ _ [_, _] [_] _ ?_ ?_ (by simp)
        (List.perm_append_singleton _ [_, _]))) .nil)
      · exact .cons ⟨rfl, fun _ _ => rfl⟩ (.cons ⟨rfl, fun _ _ => rfl⟩ .nil)
      · exact List.forall_mem_singleton.mpr ⟨"note", rfl, by decide⟩
  · exact List.forall_mem_singleton.mpr ⟨"note", rfl, by decide⟩

end Baseband.Settings
