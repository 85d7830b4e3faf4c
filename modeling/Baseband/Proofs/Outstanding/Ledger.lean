import Mathlib.Data.List.Induction
import Baseband.Proofs.Outstanding

/-!
# The table keeps the order of submission

Whatever is asked of a fresh table, it answers like a ledger: a list of requests in the order of
their submission, no two under one serial. Only the serial of a new request is the table's own
choice. The table itself has no order, and neither have the serials once they have wrapped; what
restores the order is the age of each request, which counts on without wrapping.
-/

namespace Baseband

variable {κ : Type}

inductive Use (κ : Type)
  /-- Enter a request. -/
  | submit (operation : Operation) (completion : κ) (attribution : Attribution)
  /-- Take the request under a serial out, to complete it or to fail it. -/
  | take (serial : Serial)
  /-- Take all requests out. -/
  | drain
  | contains (serial : Serial)
  | size

/-- A request as it was submitted, without its age. -/
structure Entry (κ : Type) where
  serial : Serial
  operation : Operation
  completion : κ
  attribution : Attribution

def Request.entry (request : Request κ) : Entry κ :=
  ⟨request.serial, request.operation, request.completion, request.attribution⟩

inductive Use.Answer (κ : Type)
  | issued (serial : Serial)
  | taken (entry : Option (Entry κ))
  | drained (entries : List (Entry κ))
  | known (answer : Bool)
  | count (size : Nat)

namespace Outstanding

/-! ## Uses -/

def perform (o : Outstanding κ) : Use κ → Use.Answer κ × Outstanding κ
  | .submit operation completion attribution =>
    let (serial, after) := o.submit operation completion attribution
    (.issued serial, after)
  | .take serial => (.taken ((o.find? serial).map Request.entry), o.erase serial)
  | .drain => (.drained (o.toList.map Request.entry), o.clear)
  | .contains serial => (.known (o.contains serial), o)
  | .size => (.count o.size, o)

def after (o : Outstanding κ) (uses : List (Use κ)) : Outstanding κ :=
  uses.foldl (fun o use => (o.perform use).2) o

def answers (o : Outstanding κ) : List (Use κ) → List (Use.Answer κ)
  | [] => []
  | use :: later => (o.perform use).1 :: answers (o.perform use).2 later

/-- If the use enters a request, then a serial is left for it. Otherwise the search for a serial
would not end. -/
def Fits (o : Outstanding κ) : Use κ → Prop
  | .submit .. => o.size < Serial.count
  | _ => True

def Roomy (o : Outstanding κ) : List (Use κ) → Prop
  | [] => True
  | use :: later => o.Fits use ∧ Roomy (o.perform use).2 later

@[simp] theorem after_nil (o : Outstanding κ) : o.after [] = o :=
  rfl

@[simp] theorem after_cons (o : Outstanding κ) (use : Use κ) (later : List (Use κ)) :
    o.after (use :: later) = (o.perform use).2.after later :=
  rfl

theorem after_append (o : Outstanding κ) (earlier later : List (Use κ)) :
    o.after (earlier ++ later) = (o.after earlier).after later :=
  List.foldl_append

theorem roomy_append {o : Outstanding κ} {earlier later : List (Use κ)} :
    o.Roomy (earlier ++ later) ↔ o.Roomy earlier ∧ (o.after earlier).Roomy later := by
  induction earlier generalizing o with
  | nil => simp [Roomy]
  | cons use earlier ih => simp [Roomy, ih, and_assoc]

theorem size_perform_le (o : Outstanding κ) (use : Use κ) :
    (o.perform use).2.size ≤ o.size + 1 := by
  cases use with
  | submit operation completion attribution => exact Std.HashMap.size_insert_le
  | take serial => exact Nat.le_succ_of_le Std.HashMap.size_erase_le
  | drain => simp [perform, clear, size]
  | contains | size => exact Nat.le_succ _

/-- Fewer uses than there are serials cannot use them up. -/
theorem roomy_of_length {o : Outstanding κ} {uses : List (Use κ)}
    (fewer : o.size + uses.length ≤ Serial.count) : o.Roomy uses := by
  induction uses generalizing o with
  | nil => trivial
  | cons use later ih =>
    rw [List.length_cons] at fewer
    have grown := o.size_perform_le use
    refine ⟨?_, ih (by omega)⟩
    cases use <;> simp only [Fits]
    omega

/-- No use confuses requests. -/
theorem Sound.perform {o : Outstanding κ} (sound : o.Sound) (use : Use κ) :
    (o.perform use).2.Sound := by
  cases use with
  | submit operation completion attribution => exact sound.submit _ _ _
  | take serial => exact sound.erase serial
  | drain => exact sound_clear o
  | contains | size => exact sound

theorem AgesApart.perform {o : Outstanding κ} (apart : o.AgesApart) (sound : o.Sound)
    (use : Use κ) : (o.perform use).2.AgesApart := by
  cases use with
  | submit operation completion attribution => exact apart.submit sound _ _ _
  | take serial => exact apart.erase serial
  | drain => exact agesApart_clear o
  | contains | size => exact apart

/-- Requests of a fresh table are not confused, whatever is asked of it. -/
theorem sound_after (uses : List (Use κ)) : ((empty : Outstanding κ).after uses).Sound := by
  induction uses using List.reverseRecOn with
  | nil => exact sound_empty
  | append_singleton uses use ih =>
    rw [after_append]
    exact ih.perform use

theorem agesApart_after (uses : List (Use κ)) : ((empty : Outstanding κ).after uses).AgesApart := by
  induction uses using List.reverseRecOn with
  | nil => exact agesApart_empty
  | append_singleton uses use ih =>
    rw [after_append]
    exact ih.perform (sound_after uses) use

/-! ## The ledger -/

def entries (o : Outstanding κ) : List (Entry κ) :=
  o.toList.map Request.entry

/-- A new request stands at the end of the ledger. -/
theorem entries_submit {o : Outstanding κ} (sound : o.Sound) (apart : o.AgesApart)
    (room : o.size < Serial.count) (op : Operation) (completion : κ) (attribution : Attribution) :
    (o.submit op completion attribution).2.entries =
      o.entries ++ [⟨o.freeSerial, op, completion, attribution⟩] := by
  rw [entries, toList_submit sound apart (contains_freeSerial room), List.map_append]
  rfl

/-- A request that is removed is missing from the ledger, and the others keep their order. -/
theorem entries_erase {o : Outstanding κ} (sound : o.Sound) (apart : o.AgesApart) {serial : Serial}
    {request : Request κ} (found : o.find? serial = some request) :
    (o.erase serial).entries = o.entries.filter (·.serial ≠ serial) := by
  rw [entries, toList_erase sound apart found, entries, List.filter_map]
  rfl

/-- No two entries have one serial. -/
theorem Sound.entries_nodup {o : Outstanding κ} (sound : o.Sound) :
    (o.entries.map (·.serial)).Nodup := by
  have serials := sound.serials_nodup
  rwa [entries, List.map_map]

/-- The entries but one, where no two have one serial. -/
theorem filter_serial {before after : List (Entry κ)} {entry : Entry κ}
    (nodup : ((before ++ entry :: after).map (·.serial)).Nodup) :
    (before ++ entry :: after).filter (·.serial ≠ entry.serial) = before ++ after := by
  rw [List.map_append, List.map_cons, List.nodup_middle, List.nodup_cons,
    ← List.map_append] at nodup
  have others : ∀ other ∈ before ++ after, decide (other.serial ≠ entry.serial) = true := by
    intro other listed
    exact decide_eq_true fun same => nodup.1 (same ▸ List.mem_map_of_mem listed)
  rw [List.filter_append, List.filter_cons_of_neg (by simp), ← List.filter_append]
  exact List.filter_eq_self.2 others

end Outstanding

/-- What may be answered, and what is left, if requests are kept as a list in the order of their
submission. -/
inductive Ledger.Step (entries : List (Entry κ)) : Use κ → Use.Answer κ → List (Entry κ) → Prop
  | submit {serial : Serial} {operation : Operation} {completion : κ} {attribution : Attribution}
      (unused : ∀ entry ∈ entries, entry.serial ≠ serial) :
      Step entries (.submit operation completion attribution) (.issued serial)
        (entries ++ [⟨serial, operation, completion, attribution⟩])
  | take {entry : Entry κ} (listed : entry ∈ entries) :
      Step entries (.take entry.serial) (.taken (some entry))
        (entries.filter (·.serial ≠ entry.serial))
  | unknown {serial : Serial} (unused : ∀ entry ∈ entries, entry.serial ≠ serial) :
      Step entries (.take serial) (.taken none) entries
  | drain : Step entries .drain (.drained entries) []
  | contains (serial : Serial) :
      Step entries (.contains serial) (.known (entries.any (·.serial = serial))) entries
  | size : Step entries .size (.count entries.length) entries

inductive Ledger.Run : List (Entry κ) → List (Use κ) → List (Use.Answer κ) → List (Entry κ) → Prop
  | done (entries : List (Entry κ)) : Run entries [] [] entries
  | step {entries next last : List (Entry κ)} {use : Use κ} {answer : Use.Answer κ}
      {later : List (Use κ)} {answers : List (Use.Answer κ)} (step : Step entries use answer next)
      (run : Run next later answers last) : Run entries (use :: later) (answer :: answers) last

namespace Outstanding

/-- A table answers one use like the ledger of its requests, and becomes the table of what is
left. -/
theorem Sound.ledger_step {o : Outstanding κ} (sound : o.Sound) (apart : o.AgesApart) {use : Use κ}
    (fits : o.Fits use) :
    Ledger.Step o.entries use (o.perform use).1 (o.perform use).2.entries := by
  cases use with
  | submit operation completion attribution =>
    have free : o.contains o.freeSerial = false := contains_freeSerial fits
    have unused : ∀ entry ∈ o.entries, entry.serial ≠ o.freeSerial := by
      intro entry entered same
      obtain ⟨request, listed, rfl⟩ := List.mem_map.1 entered
      have taken := sound.contains_iff.2 ⟨request, listed, same⟩
      rw [free] at taken
      cases taken
    change Ledger.Step o.entries _ (.issued o.freeSerial) (o.submit _ _ _).2.entries
    rw [entries_submit sound apart fits]
    exact .submit unused
  | take serial =>
    cases found : o.find? serial with
    | none =>
      have same : (o.erase serial).entries = o.entries := by
        rw [entries, (apart.eq_toList (erase_of_unknown found) (pairwise_toList _)), entries]
      change Ledger.Step o.entries _ (.taken ((o.find? serial).map Request.entry)) _
      rw [found, show (o.perform (.take serial)).2 = o.erase serial from rfl, same]
      refine .unknown fun entry entered => ?_
      obtain ⟨request, listed, rfl⟩ := List.mem_map.1 entered
      exact sound.find?_eq_none.1 found request listed
    | some request =>
      obtain ⟨listed, rfl⟩ := sound.find?_eq_some.1 found
      change Ledger.Step o.entries _ (.taken ((o.find? request.serial).map Request.entry)) _
      rw [found, show (o.perform (.take request.serial)).2 = o.erase request.serial from rfl,
        entries_erase sound apart found]
      have entered : request.entry ∈ o.entries := List.mem_map_of_mem listed
      exact .take entered
  | drain =>
    have nothing : o.clear.entries = [] := by rw [entries, toList_clear, List.map_nil]
    change Ledger.Step o.entries _ _ o.clear.entries
    rw [nothing]
    exact .drain
  | contains serial =>
    have known : o.contains serial = o.entries.any (·.serial = serial) := by
      rw [Bool.eq_iff_iff, sound.contains_iff, List.any_eq_true]
      constructor
      · rintro ⟨request, listed, same⟩
        exact ⟨request.entry, List.mem_map_of_mem listed, decide_eq_true same⟩
      · rintro ⟨entry, entered, same⟩
        obtain ⟨request, listed, rfl⟩ := List.mem_map.1 entered
        exact ⟨request, listed, of_decide_eq_true same⟩
    change Ledger.Step o.entries _ (.known (o.contains serial)) o.entries
    rw [known]
    exact .contains serial
  | size =>
    have length : o.size = o.entries.length := by rw [entries, List.length_map, length_toList]
    change Ledger.Step o.entries _ (.count o.size) o.entries
    rw [length]
    exact .size

/-- A table answers its uses as a ledger does. -/
theorem Sound.ledger_run {o : Outstanding κ} (sound : o.Sound) (apart : o.AgesApart)
    {uses : List (Use κ)} (room : o.Roomy uses) :
    Ledger.Run o.entries uses (o.answers uses) (o.after uses).entries := by
  induction uses generalizing o with
  | nil => exact .done _
  | cons use later ih =>
    obtain ⟨fits, room⟩ := room
    exact .step (sound.ledger_step apart fits)
      (ih (sound.perform use) (apart.perform sound use) room)

/-- As long as serials are left, a fresh table answers all that is asked of it like a list of
requests in the order of their submission, no two under one serial. However the table is laid out,
its requests are read in that order. -/
theorem answers_of_ledger (uses : List (Use κ)) (room : (empty : Outstanding κ).Roomy uses) :
    Ledger.Run [] uses (empty.answers uses) (empty.after uses).entries ∧
    ((empty.after uses).entries.map (·.serial)).Nodup ∧
    ∀ laidOut : List (Request κ), laidOut.Perm ((empty.after uses).table.toList.map Prod.snd) →
      Request.oldestFirst laidOut = (empty.after uses).toList := by
  refine ⟨?_, ?_, fun laidOut perm => ?_⟩
  · have run := sound_empty.ledger_run agesApart_empty room
    rwa [show (empty : Outstanding κ).entries = [] by simp [entries]] at run
  · exact (sound_after uses).entries_nodup
  · refine (agesApart_after uses).eq_toList ?_ (pairwise_oldestFirst laidOut)
    exact (List.mergeSort_perm _ _).trans (perm.trans (toList_perm _).symm)

/-- Two requests are issued different serials and drained in their order. -/
theorem answers_of_ledger_of_two :
    ∃ first second, first ≠ second ∧
      (empty : Outstanding Nat).answers
          [.submit .getSlotStatus 7 .standard, .submit .setLiveModems 8 .standard, .drain] =
        [.issued first, .issued second,
          .drained [⟨first, .getSlotStatus, 7, .standard⟩,
            ⟨second, .setLiveModems, 8, .standard⟩]] := by
  have run := (answers_of_ledger (κ := Nat)
    [.submit .getSlotStatus 7 .standard, .submit .setLiveModems 8 .standard, .drain]
    (roomy_of_length (by decide))).1
  generalize empty.answers _ = answers at run ⊢
  generalize entries _ = left at run
  rcases run with _ | ⟨⟨-⟩, _ | ⟨⟨unused⟩, _ | ⟨⟨⟩, ⟨⟩⟩⟩⟩
  exact ⟨_, _, unused _ (.head _), rfl⟩

end Outstanding

end Baseband
