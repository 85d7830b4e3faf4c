import Mathlib.Data.List.Nodup
import Mathlib.Tactic.ByContra
import Baseband.Outstanding
import Baseband.Proofs.Serial

/-!
# The table of outstanding requests

A search for a serial ends at a free one while any is left. What the table holds is stated as a list
of requests up to order, since the order is that of submission and not that of the table.
-/

namespace Baseband.Outstanding

variable {κ : Type}

/-! ## The search for a serial -/

/-- The search passes over taken serials only, and stops early only at a free one. -/
theorem firstFree_eq_iterate (taken : Serial → Bool) (n : Nat) (s : Serial) :
    ∃ j ≤ n, firstFree taken n s = Serial.next^[j] s ∧
      (∀ i < j, taken (Serial.next^[i] s) = true) ∧
      (j < n → taken (Serial.next^[j] s) = false) := by
  induction n generalizing s with
  | zero => exact ⟨0, Nat.le_refl 0, rfl, by omega, by omega⟩
  | succ n ih =>
    by_cases now : taken s = true
    · obtain ⟨j, hj, eq, before, stop⟩ := ih s.next
      refine ⟨j + 1, by omega, by simpa [firstFree, now] using eq, ?_, ?_⟩
      · intro i hi
        cases i with
        | zero => exact now
        | succ i => exact before i (by omega)
      · intro h
        exact stop (by omega)
    · exact ⟨0, by omega, by simp [firstFree, now], by omega, by simpa using now⟩

theorem contains_iff_mem_keys (o : Outstanding κ) (serial : Serial) :
    o.contains serial = true ↔ serial ∈ o.table.keys := by
  simp [contains, Std.HashMap.mem_keys]

/-- While serials are left, the search finds one. -/
theorem contains_freeSerial {o : Outstanding κ} (room : o.size < Serial.count) :
    o.contains o.freeSerial = false := by
  obtain ⟨j, hj, eq, before, stop⟩ := firstFree_eq_iterate o.contains o.size o.nextSerial
  rw [freeSerial, eq]
  by_contra taken
  have last : j = o.size := by
    by_contra h
    exact taken (stop (by omega))
  -- all serials up to this one would be outstanding, one more than there are
  let passed := (List.range (o.size + 1)).map fun i => Serial.next^[i] o.nextSerial
  have distinct : passed.Nodup := by
    refine List.Nodup.map_on ?_ List.nodup_range
    intro a ha b hb same
    simp only [List.mem_range] at ha hb
    exact Serial.iterate_next_injective (by omega) (by omega) same
  have outstanding : passed ⊆ o.table.keys := by
    intro s hs
    obtain ⟨i, hi, rfl⟩ := List.mem_map.1 hs
    rw [List.mem_range] at hi
    rw [← contains_iff_mem_keys]
    by_cases h : i < j
    · exact before i h
    · obtain rfl : i = j := by omega
      simpa using taken
  have := distinct.length_le_of_subset outstanding
  simp only [passed, List.length_map, List.length_range, Std.HashMap.length_keys] at this
  simp only [size] at this
  omega

/-! ## What the table holds -/

/-- The pairs of a table in which a key has a value: this one, and those that are left without
it. -/
theorem pairs_perm {m : Std.HashMap Serial (Request κ)} {serial : Serial} {request : Request κ}
    (found : m[serial]? = some request) :
    m.toList.Perm ((serial, request) :: (m.erase serial).toList) := by
  have nodup (n : Std.HashMap Serial (Request κ)) : n.toList.Nodup :=
    n.distinct_keys_toList.imp fun {a b} differ eq => by simp [eq] at differ
  have fresh : (serial, request) ∉ (m.erase serial).toList := by
    simp [Std.HashMap.mem_toList_iff_getElem?_eq_some]
  refine (List.perm_ext_iff_of_nodup (nodup m) (List.nodup_cons.2 ⟨fresh, nodup _⟩)).2 ?_
  rintro ⟨key, value⟩
  simp only [List.mem_cons, Prod.mk.injEq, Std.HashMap.mem_toList_iff_getElem?_eq_some,
    Std.HashMap.getElem?_erase, beq_iff_eq]
  by_cases same : serial = key
  · subst same
    simp [found, eq_comm]
  · simp [same, Ne.symm same]

/-- A new request is found under its serial. -/
theorem find?_freeSerial (o : Outstanding κ) (op : Operation) (completion : κ)
    (attribution : Attribution) :
    (o.submit op completion attribution).2.find? o.freeSerial =
      some ⟨o.freeSerial, op, completion, attribution, o.nextAge⟩ := by
  rw [find?_submit, if_pos rfl]

theorem toList_perm (o : Outstanding κ) : o.toList.Perm (o.table.toList.map (·.2)) :=
  List.mergeSort_perm _ _

theorem mem_toList {o : Outstanding κ} {request : Request κ} :
    request ∈ o.toList ↔ ∃ serial, o.find? serial = some request := by
  rw [o.toList_perm.mem_iff]
  simp [Std.HashMap.mem_toList_iff_getElem?_eq_some, find?]

/-- A table is a request in it together with the others. -/
theorem toList_perm_of_find? {o : Outstanding κ} {serial : Serial} {request : Request κ}
    (found : o.find? serial = some request) :
    o.toList.Perm (request :: (o.erase serial).toList) := by
  have pairs := (pairs_perm found).map Prod.snd
  exact o.toList_perm.trans (pairs.trans ((o.erase serial).toList_perm.symm.cons request))

/-- A new request under a free serial joins the others. -/
theorem toList_submit_perm {o : Outstanding κ} (free : o.contains o.freeSerial = false)
    (op : Operation) (completion : κ) (attribution : Attribution) :
    (o.submit op completion attribution).2.toList.Perm
      (⟨o.freeSerial, op, completion, attribution, o.nextAge⟩ :: o.toList) := by
  have others : ∀ pair ∈ o.table.toList, (!o.freeSerial == pair.1) = true := by
    rintro ⟨serial, request⟩ listed
    rw [Std.HashMap.mem_toList_iff_getElem?_eq_some] at listed
    by_contra same
    have eq : o.freeSerial = serial := by simpa using same
    simp [contains, eq, ← Std.HashMap.isSome_getElem?_eq_contains, listed] at free
  have pairs := Std.HashMap.toList_insert_perm (m := o.table) (k := o.freeSerial)
    (v := ⟨o.freeSerial, op, completion, attribution, o.nextAge⟩)
  rw [List.filter_eq_self.2 (by simpa using others)] at pairs
  exact (toList_perm _).trans ((pairs.map Prod.snd).trans (o.toList_perm.symm.cons _))

/-- No two serials share one completion, if the completions in the table can be told apart. -/
theorem serial_unique {o : Outstanding κ} (apart : (o.toList.map (·.completion)).Nodup)
    {serial other : Serial} {request request' : Request κ}
    (found : o.find? serial = some request) (found' : o.find? other = some request')
    (same : request.completion = request'.completion) : serial = other := by
  by_contra differ
  have listed : request' ∈ (o.erase serial).toList :=
    mem_toList.2 ⟨other, by rw [find?_erase, if_neg differ, found']⟩
  have twice := ((toList_perm_of_find? found).map (·.completion)).nodup apart
  rw [List.map_cons, List.nodup_cons] at twice
  exact twice.1 (List.mem_map.2 ⟨request', listed, same.symm⟩)

@[simp] theorem toList_empty : (empty : Outstanding κ).toList = [] := by
  simp [empty, toList, Request.oldestFirst]

@[simp] theorem toList_clear (o : Outstanding κ) : o.clear.toList = [] := by
  simp [clear, toList, Request.oldestFirst]

theorem mem_erase {o : Outstanding κ} {serial : Serial} {request : Request κ}
    (listed : request ∈ (o.erase serial).toList) : request ∈ o.toList := by
  obtain ⟨key, found⟩ := mem_toList.1 listed
  rw [find?_erase] at found
  split at found
  · cases found
  · exact mem_toList.2 ⟨key, found⟩

/-- A request in the table after a submission was there before or is the new one. -/
theorem mem_submit {o : Outstanding κ} {op : Operation} {completion : κ}
    {attribution : Attribution} {request : Request κ}
    (listed : request ∈ (o.submit op completion attribution).2.toList) :
    request ∈ o.toList ∨ request = ⟨o.freeSerial, op, completion, attribution, o.nextAge⟩ := by
  obtain ⟨key, found⟩ := mem_toList.1 listed
  rw [find?_submit] at found
  split at found
  · exact .inr (Option.some.inj found).symm
  · exact .inl (mem_toList.2 ⟨key, found⟩)

/-! ## Ages -/

/-- Every request is in the table under its own serial, and was entered before the next one. -/
def Sound (o : Outstanding κ) : Prop :=
  ∀ serial request, o.find? serial = some request →
    request.serial = serial ∧ request.age < o.nextAge

theorem sound_empty : (empty : Outstanding κ).Sound := by
  intro serial request found
  simp at found

theorem Sound.erase {o : Outstanding κ} (sound : o.Sound) (serial : Serial) :
    (o.erase serial).Sound := by
  intro key request found
  rw [find?_erase] at found
  split at found
  · cases found
  · exact sound key request found

theorem sound_clear (o : Outstanding κ) : o.clear.Sound := by
  intro serial request found
  simp at found

/-- A new request stands under its own serial, with an age of its own. -/
theorem Sound.submit {o : Outstanding κ} (sound : o.Sound) (op : Operation) (completion : κ)
    (attribution : Attribution) : (o.submit op completion attribution).2.Sound := by
  intro key request found
  rw [find?_submit] at found
  split at found
  · rename_i same
    cases found
    exact ⟨same, Nat.lt_succ_self _⟩
  · obtain ⟨keyed, aged⟩ := sound key request found
    exact ⟨keyed, Nat.lt_succ_of_lt aged⟩

/-- A new request is not mistaken for one that was there. -/
theorem Sound.new {o : Outstanding κ} (sound : o.Sound) {request : Request κ}
    (age : request.age = o.nextAge) : request ∉ o.toList := by
  intro listed
  obtain ⟨serial, found⟩ := mem_toList.1 listed
  have := (sound serial request found).2
  omega

def AgesApart (o : Outstanding κ) : Prop :=
  ∀ request ∈ o.toList, ∀ other ∈ o.toList, request.age = other.age → request = other

theorem agesApart_empty : (empty : Outstanding κ).AgesApart := by
  intro request listed
  simp at listed

theorem AgesApart.erase {o : Outstanding κ} (apart : o.AgesApart) (serial : Serial) :
    (o.erase serial).AgesApart :=
  fun request listed other listed' => apart request (mem_erase listed) other (mem_erase listed')

theorem agesApart_clear (o : Outstanding κ) : o.clear.AgesApart := by
  intro request listed
  simp at listed

/-- A new request is younger than all others. -/
theorem AgesApart.submit {o : Outstanding κ} (apart : o.AgesApart) (sound : o.Sound)
    (op : Operation) (completion : κ) (attribution : Attribution) :
    (o.submit op completion attribution).2.AgesApart := by
  intro request listed other listed' same
  rcases mem_submit listed with before | rfl
  · rcases mem_submit listed' with before' | rfl
    · exact apart request before other before' same
    · exact absurd before (sound.new same)
  · rcases mem_submit listed' with before' | rfl
    · exact absurd before' (sound.new same.symm)
    · rfl

/-! ## The order of submission -/

theorem pairwise_oldestFirst (requests : List (Request κ)) :
    (Request.oldestFirst requests).Pairwise fun request later => request.age ≤ later.age := by
  refine (List.pairwise_mergeSort ?_ ?_ _).imp fun {a b} before => of_decide_eq_true before
  · intro a b c
    simp only [decide_eq_true_eq]
    exact Nat.le_trans
  · intro a b
    simp only [Bool.or_eq_true, decide_eq_true_eq]
    exact Nat.le_total _ _

/-- Requests are listed in the order of their submission. -/
theorem pairwise_toList (o : Outstanding κ) :
    o.toList.Pairwise fun request later => request.age ≤ later.age :=
  pairwise_oldestFirst _

/-- There is but one list of the requests in a table by their age. -/
theorem AgesApart.eq_toList {o : Outstanding κ} (apart : o.AgesApart) {requests : List (Request κ)}
    (perm : requests.Perm o.toList)
    (ordered : requests.Pairwise fun request later => request.age ≤ later.age) :
    requests = o.toList := by
  refine perm.eq_of_pairwise ?_ ordered (pairwise_toList o)
  intro a b listed listed' before after
  exact apart a (perm.mem_iff.1 listed) b listed' (Nat.le_antisymm before after)

/-- What is left without a request is the others, in their order. -/
theorem toList_erase {o : Outstanding κ} (sound : o.Sound) (apart : o.AgesApart) {serial : Serial}
    {request : Request κ} (found : o.find? serial = some request) :
    (o.erase serial).toList = o.toList.filter (·.serial ≠ serial) := by
  have own : request.serial = serial := (sound serial request found).1
  have others : ∀ other ∈ (o.erase serial).toList, decide (other.serial ≠ serial) = true := by
    intro other listed
    obtain ⟨key, kept⟩ := mem_toList.1 listed
    rw [find?_erase] at kept
    split at kept
    · cases kept
    · rename_i differ
      rw [(sound key other kept).1]
      exact decide_eq_true (Ne.symm differ)
  have perm : (o.erase serial).toList.Perm (o.toList.filter (·.serial ≠ serial)) := by
    refine .trans ?_ ((toList_perm_of_find? found).filter _).symm
    rw [List.filter_cons_of_neg (by simp [own]), List.filter_eq_self.2 others]
  exact ((apart.erase serial).eq_toList perm.symm ((pairwise_toList o).filter _)).symm

theorem erase_of_unknown {o : Outstanding κ} {serial : Serial} (unknown : o.find? serial = none) :
    (o.erase serial).toList.Perm o.toList := by
  have pairs : (o.table.erase serial).toList.Perm o.table.toList := by
    refine Std.HashMap.Equiv.toList_perm ?_
    refine Std.HashMap.Equiv.of_forall_getElem?_eq fun key => ?_
    rw [Std.HashMap.getElem?_erase]
    split
    · rename_i same
      rw [← eq_of_beq same]
      exact unknown.symm
    · rfl
  exact (toList_perm _).trans ((pairs.map Prod.snd).trans o.toList_perm.symm)

/-- A new request comes after all that were there. -/
theorem toList_submit {o : Outstanding κ} (sound : o.Sound) (apart : o.AgesApart)
    (free : o.contains o.freeSerial = false) (op : Operation) (completion : κ)
    (attribution : Attribution) :
    (o.submit op completion attribution).2.toList =
      o.toList ++ [⟨o.freeSerial, op, completion, attribution, o.nextAge⟩] := by
  refine ((apart.submit sound op completion attribution).eq_toList ?_ ?_).symm
  · exact (List.perm_append_singleton _ _).trans (toList_submit_perm free _ _ _).symm
  · refine List.pairwise_append.2 ⟨pairwise_toList o, List.pairwise_singleton _ _, ?_⟩
    intro request listed new isNew
    obtain rfl := List.mem_singleton.1 isNew
    obtain ⟨serial, found⟩ := mem_toList.1 listed
    exact Nat.le_of_lt (sound serial request found).2

/-- The first request of a fresh table. -/
theorem toList_submit_empty (op : Operation) (completion : κ) (attribution : Attribution) :
    ((empty : Outstanding κ).submit op completion attribution).2.toList =
      [⟨.first, op, completion, attribution, 0⟩] := by
  have free : (empty : Outstanding κ).contains empty.freeSerial = false := contains_freeSerial
    (by simp [empty, size, Serial.count])
  have entered := toList_submit sound_empty agesApart_empty free op completion attribution
  rwa [toList_empty] at entered

/-! ## The table as a list -/

theorem length_toList (o : Outstanding κ) : o.toList.length = o.size := by
  rw [o.toList_perm.length_eq, List.length_map, Std.HashMap.length_toList, size]

/-- In a sound table, a request is found under its own serial. -/
theorem Sound.find?_eq_some {o : Outstanding κ} (sound : o.Sound) {serial : Serial}
    {request : Request κ} :
    o.find? serial = some request ↔ request ∈ o.toList ∧ request.serial = serial := by
  constructor
  · intro found
    exact ⟨mem_toList.2 ⟨serial, found⟩, (sound serial request found).1⟩
  · rintro ⟨listed, rfl⟩
    obtain ⟨key, found⟩ := mem_toList.1 listed
    rw [(sound key request found).1]
    exact found

theorem Sound.find?_eq_none {o : Outstanding κ} (sound : o.Sound) {serial : Serial} :
    o.find? serial = none ↔ ∀ request ∈ o.toList, request.serial ≠ serial := by
  rw [Option.eq_none_iff_forall_ne_some]
  simp only [ne_eq, sound.find?_eq_some, not_and]

theorem Sound.contains_iff {o : Outstanding κ} (sound : o.Sound) {serial : Serial} :
    o.contains serial = true ↔ ∃ request ∈ o.toList, request.serial = serial := by
  rw [contains, ← Std.HashMap.isSome_getElem?_eq_contains, Option.isSome_iff_exists]
  simp only [← sound.find?_eq_some, find?]

/-- No two requests are outstanding under one serial. -/
theorem Sound.serials_nodup {o : Outstanding κ} (sound : o.Sound) :
    (o.toList.map (·.serial)).Nodup := by
  have keyed : o.table.toList.map (fun pair => pair.2.serial) = o.table.toList.map Prod.fst := by
    refine List.map_congr_left ?_
    rintro ⟨serial, request⟩ listed
    exact (sound serial request (Std.HashMap.mem_toList_iff_getElem?_eq_some.1 listed)).1
  have serials := o.toList_perm.map (·.serial)
  rw [List.map_map] at serials
  refine serials.nodup_iff.2 ?_
  change (o.table.toList.map fun pair => pair.2.serial).Nodup
  rw [keyed, Std.HashMap.map_fst_toList_eq_keys]
  exact Std.HashMap.nodup_keys

/-- To take a serial out leaves the requests under other serials. -/
theorem Sound.mem_toList_erase {o : Outstanding κ} (sound : o.Sound) {serial : Serial}
    {request : Request κ} :
    request ∈ (o.erase serial).toList ↔ request ∈ o.toList ∧ request.serial ≠ serial := by
  have under {o : Outstanding κ} (sound : o.Sound) :
      request ∈ o.toList ↔ o.find? request.serial = some request :=
    ⟨fun listed => sound.find?_eq_some.2 ⟨listed, rfl⟩,
      fun found => (sound.find?_eq_some.1 found).1⟩
  rw [under (sound.erase serial), under sound, find?_erase]
  by_cases same : serial = request.serial
  · simp [same]
  · simp [same, Ne.symm same]

/-- Requests are read in the order of their submission, each once. -/
theorem Sound.pairwise_age {o : Outstanding κ} (sound : o.Sound) (apart : o.AgesApart) :
    o.toList.Pairwise fun request later => request.age < later.age := by
  have distinct : o.toList.Nodup := .of_map _ sound.serials_nodup
  refine ((pairwise_toList o).and distinct).imp_of_mem ?_
  rintro request later listed listed' ⟨before, differ⟩
  exact Nat.lt_of_le_of_ne before fun same => differ (apart request listed later listed' same)

/-! ## Serials that are not reused -/

/-- Serials have been issued in their order from one on, and each outstanding one to its request. -/
structure Counting (o : Outstanding κ) : Prop where
  next : o.nextSerial.value.toNat = o.nextAge % Serial.count + 1
  issued : ∀ serial request, o.find? serial = some request → serial.value.toNat = request.age + 1

theorem counting_empty : (empty : Outstanding κ).Counting where
  next := rfl
  issued serial request found := by simp at found

/-- Removing a request leaves the issued serials issued. -/
theorem Counting.erase {o : Outstanding κ} (counting : o.Counting) (serial : Serial) :
    (o.erase serial).Counting where
  next := counting.next
  issued key request found := by
    rw [find?_erase] at found
    split at found
    · cases found
    · exact counting.issued key request found

theorem Counting.clear {o : Outstanding κ} (counting : o.Counting) : o.clear.Counting where
  next := counting.next
  issued serial request found := by simp at found

/-- Until all serials have been issued once, the next one is free. -/
theorem Counting.freeSerial {o : Outstanding κ} (counting : o.Counting) (sound : o.Sound)
    (fewer : o.nextAge < Serial.count) :
    o.freeSerial = o.nextSerial ∧ o.freeSerial.value.toNat = o.nextAge + 1 := by
  have next := counting.next
  rw [Nat.mod_eq_of_lt fewer] at next
  have free : o.contains o.nextSerial = false := by
    by_contra taken
    rw [Bool.not_eq_false, contains, ← Std.HashMap.isSome_getElem?_eq_contains,
      Option.isSome_iff_exists] at taken
    obtain ⟨request, found⟩ := taken
    have issued := counting.issued o.nextSerial request found
    have older := (sound o.nextSerial request found).2
    omega
  have same : o.freeSerial = o.nextSerial := by
    rw [Outstanding.freeSerial]
    cases o.size <;> simp [firstFree, free]
  exact ⟨same, by rw [same, next]⟩

/-- Below the number of serials, a new request gets the next serial of the cycle. -/
theorem Counting.submit {o : Outstanding κ} (counting : o.Counting) (sound : o.Sound)
    (fewer : o.nextAge < Serial.count) (op : Operation) (completion : κ)
    (attribution : Attribution) : (o.submit op completion attribution).2.Counting where
  next := by
    have value := (counting.freeSerial sound fewer).2
    change o.freeSerial.next.value.toNat = (o.nextAge + 1) % Serial.count + 1
    rw [Serial.next_value, value]
    split
    · rename_i last
      rw [last, Nat.mod_self]
    · rw [Nat.mod_eq_of_lt (by omega)]
  issued key request found := by
    rw [find?_submit] at found
    split at found
    · rename_i same
      cases found
      rw [← same, (counting.freeSerial sound fewer).2]
    · exact counting.issued key request found

end Baseband.Outstanding
