import Mathlib.Data.List.Sort
import Baseband.Version

/-!
# Versions in order

Putting versions in order, newest first and each once, loses none and adds none. What comes of it
depends only on which versions there are, not on their order or on how often they are listed.
-/

namespace Baseband.Version

theorem lt_of_le_of_ne {v w : Version} (le : v ≤ w) (differ : v ≠ w) : v < w :=
  Nat.lt_of_le_of_ne le fun same => differ (rank_injective same)

def Descending (versions : List Version) : Prop :=
  versions.Pairwise fun v w => w < v

/-- The list is built from its end, so the last one put down is older than all before. -/
theorem descending_loop {last : Version} {versions acc : List Version}
    (sorted : (last :: versions).Pairwise fun v w => w ≤ v)
    (descending : (last :: acc).Pairwise (· < ·)) :
    Descending (List.eraseRepsBy.loop (· == ·) last versions acc) ∧
      ∀ v, v ∈ List.eraseRepsBy.loop (· == ·) last versions acc ↔
        v ∈ acc ∨ v = last ∨ v ∈ versions := by
  induction versions generalizing last acc with
  | nil =>
    rw [List.eraseRepsBy.loop]
    refine ⟨List.pairwise_reverse.2 descending, fun v => ?_⟩
    simp only [List.mem_reverse, List.mem_cons, List.not_mem_nil, or_false]
    exact or_comm
  | cons next versions ih =>
    obtain ⟨newest, sorted⟩ := List.pairwise_cons.1 sorted
    rw [List.eraseRepsBy.loop]
    split
    · rename_i same
      obtain rfl : last = next := by simpa using same
      obtain ⟨later, members⟩ := ih sorted descending
      refine ⟨later, fun v => ?_⟩
      rw [members]
      simp
    · rename_i differ
      have older : next < last :=
        lt_of_le_of_ne (newest next (.head _)) (Ne.symm (by simpa using differ))
      have descending' : (next :: last :: acc).Pairwise (· < ·) := by
        refine List.pairwise_cons.2 ⟨fun v listed => ?_, descending⟩
        rcases List.mem_cons.1 listed with rfl | listed
        · exact older
        · exact Nat.lt_trans older (List.rel_of_pairwise_cons descending listed)
      obtain ⟨later, members⟩ := ih sorted descending'
      refine ⟨later, fun v => ?_⟩
      rw [members]
      simp only [List.mem_cons]
      tauto

/-- The candidates are tried newest first, each version once. -/
theorem descending_newestFirst (versions : List Version) :
    Descending (newestFirst versions) ∧ ∀ v, v ∈ newestFirst versions ↔ v ∈ versions := by
  have sorted : (versions.mergeSort fun v w => decide (w ≤ v)).Pairwise fun v w => w ≤ v := by
    refine List.Pairwise.imp (fun le => of_decide_eq_true le) (List.pairwise_mergeSort ?_ ?_ versions)
    · intro u v w first second
      simp only [decide_eq_true_eq] at first second ⊢
      exact Nat.le_trans second first
    · intro v w
      simp only [Bool.or_eq_true, decide_eq_true_eq]
      exact Nat.le_total w.rank v.rank
  have members (v : Version) : v ∈ versions.mergeSort (fun v w => decide (w ≤ v)) ↔ v ∈ versions :=
    List.mem_mergeSort
  rw [newestFirst, List.eraseReps, List.eraseRepsBy.eq_def]
  split
  · rename_i none
    refine ⟨.nil, fun v => ?_⟩
    rw [← members, none]
  · rename_i first rest split
    rw [split] at sorted members
    obtain ⟨descending, listed⟩ := descending_loop sorted (List.pairwise_singleton _ _)
    refine ⟨descending, fun v => ?_⟩
    rw [listed, ← members]
    simp

theorem mem_newestFirst {version : Version} {versions : List Version} :
    version ∈ newestFirst versions ↔ version ∈ versions :=
  (descending_newestFirst versions).2 version

theorem Descending.nodup {versions : List Version} (descending : Descending versions) :
    versions.Nodup := by
  refine List.Pairwise.imp ?_ descending
  rintro v _ older rfl
  exact Nat.lt_irrefl _ older

/-- There is but one way to list versions newest first, each once. -/
theorem Descending.eq {versions others : List Version} (descending : Descending versions)
    (descending' : Descending others) (same : ∀ v, v ∈ versions ↔ v ∈ others) :
    versions = others := by
  have perm := (List.perm_ext_iff_of_nodup descending.nodup descending'.nodup).2 same
  refine perm.eq_of_pairwise ?_ descending descending'
  intro v w _ _ older newer
  exact absurd older (Nat.lt_asymm newer)

/-- The order in which candidates are given does not matter. -/
theorem newestFirst_eq {versions others : List Version} (descending : Descending others)
    (same : ∀ v, v ∈ versions ↔ v ∈ others) : newestFirst versions = others := by
  refine (descending_newestFirst versions).1.eq descending fun v => ?_
  rw [mem_newestFirst, same]

/-- Neither the order of versions nor their repetition matters. -/
theorem newestFirst_congr {versions others : List Version} (same : ∀ v, v ∈ versions ↔ v ∈ others) :
    newestFirst versions = newestFirst others := by
  refine newestFirst_eq (descending_newestFirst others).1 fun v => ?_
  rw [mem_newestFirst, same]

end Baseband.Version
