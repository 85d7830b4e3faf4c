import Mathlib.Algebra.GroupWithZero.Nat
import Baseband.Proofs.Discovery.Rounds
import Baseband.Proofs.Loopback
import Baseband.Proofs.Version

/-!
# Discovery in a directory

Passes over a directory go down the versions, newest first, to the newest one with a live service.
Each is interrupted as long as one of the versions up to there has a lookup that is to fail, and
takes one failure away, of the newest version that has any left. So what a discovery comes to is a
matter of how many failures there are up to the newest live service, all together.
-/

namespace Baseband.Loopback

open Bench (Party)
open Probe (Pass Provider Rounds judge turn)

/-! ## Spending -/

/-- Take an amount off numbers, from the first one as much as there is, then from the others. -/
def spend : Nat → List Nat → List Nat
  | _, [] => []
  | amount, n :: rest => (n - amount) :: spend (amount - n) rest

@[simp] theorem spend_zero (numbers : List Nat) : spend 0 numbers = numbers := by
  induction numbers with
  | nil => rfl
  | cons n rest ih => rw [spend, Nat.zero_sub, ih, Nat.sub_zero]

/-- Spending twice is spending the sum. -/
theorem spend_spend (first second : Nat) (numbers : List Nat) :
    spend second (spend first numbers) = spend (first + second) numbers := by
  induction numbers generalizing first second with
  | nil => rfl
  | cons n rest ih =>
    have left : first - n + (second - (n - first)) = first + second - n := by omega
    rw [spend, spend, spend, ih, left, Nat.sub_sub]

theorem sum_spend (amount : Nat) (numbers : List Nat) :
    (spend amount numbers).sum = numbers.sum - amount := by
  induction numbers generalizing amount with
  | nil => exact (Nat.zero_sub amount).symm
  | cons n rest ih =>
    rw [spend, List.sum_cons, List.sum_cons, ih]
    omega

example : spend 3 [2, 0, 4] = [0, 0, 3] := rfl

namespace Directory

variable {d d' d'' : Directory Party Party} {version : Version} {versions rest : List Version}
  {number left : Nat}

/-! ## One lookup -/

def speaks (d : Directory Party Party) (number : Nat) : Version :=
  ((d.services[number]?).map (·.version)).getD default

def lookUp : Provider (Directory Party Party) Nat := fun d version =>
  ((d.discover version).2.map fun number => (number, (d.discover version).1.speaks number),
    (d.discover version).1)

/-- The directory after a lookup that nobody has made fail. -/
def note (d : Directory Party Party) (version : Version) : Directory Party Party :=
  { d with probed := version :: d.probed }

def Honest (d : Directory Party Party) : Prop :=
  ∀ version number, d.registered.lookup version = some number →
    d.Has number fun service => service.version = version

theorem lookup_enter {β : Type} (entries : List (Version × β)) (version : Version) (value : β) :
    (enter entries version value).lookup version = some value := by
  simp [enter]

theorem lookup_filter_of_ne {β : Type} (entries : List (Version × β)) {version other : Version}
    (differ : other ≠ version) :
    (entries.filter fun entry => entry.1 != version).lookup other = entries.lookup other := by
  induction entries with
  | nil => rfl
  | cons entry rest ih =>
    obtain ⟨listed, value⟩ := entry
    by_cases same : listed = version
    · subst same
      rw [List.filter_cons_of_neg (by simp), ih, List.lookup_cons, beq_false_of_ne differ]
    · rw [List.filter_cons_of_pos (by simpa using same), List.lookup_cons, List.lookup_cons, ih]

theorem lookup_enter_of_ne {β : Type} (entries : List (Version × β)) {version other : Version}
    (value : β) (differ : other ≠ version) :
    (enter entries version value).lookup other = entries.lookup other := by
  rw [enter, List.lookup_cons, beq_false_of_ne differ]
  exact lookup_filter_of_ne entries differ

theorem failuresLeft_failDiscovery (d : Directory Party Party) (version : Version) (times : Nat) :
    (d.failDiscovery version times).failuresLeft version = times := by
  rw [failuresLeft, failDiscovery, lookup_enter, Option.getD_some]

theorem failuresLeft_failDiscovery_of_ne (d : Directory Party Party) {version other : Version}
    (times : Nat) (differ : other ≠ version) :
    (d.failDiscovery version times).failuresLeft other = d.failuresLeft other := by
  rw [failuresLeft, failDiscovery, lookup_enter_of_ne _ times differ, failuresLeft]

/-- A lookup that is to fail is an interruption, and uses one failure up. -/
theorem lookUp_of_failing (failing : d.failuresLeft version = left + 1) :
    lookUp d version = (.error (.interrupted (.lookupInterrupted version)),
      (d.note version).failDiscovery version left) := by
  have failing' : (d.note version).failuresLeft version = left + 1 := failing
  unfold note at failing' ⊢
  simp only [lookUp, discover, failing', Except.map]

/-- A lookup of a version without a live service finds nothing. -/
theorem lookUp_of_dead (sound : d.failuresLeft version = 0) (dead : d.live? version = none) :
    lookUp d version = (.error (.notFound version), d.note version) := by
  have sound' : (d.note version).failuresLeft version = 0 := sound
  have dead' : (d.note version).live? version = none := dead
  unfold note at sound' dead' ⊢
  simp only [lookUp, discover, sound', dead', Except.map]

/-- In an honest directory, the service found for a version speaks it. -/
theorem Honest.speaks_of_live (honest : d.Honest) (live : d.live? version = some number) :
    d.speaks number = version := by
  obtain ⟨listed, -⟩ := Option.filter_eq_some_iff.1 live
  obtain ⟨service, found, speaks⟩ := honest version number listed
  rw [Directory.speaks, found]
  exact speaks

/-- A lookup of a version with a live service finds it. -/
theorem Honest.lookUp_of_live (honest : d.Honest) (sound : d.failuresLeft version = 0)
    (live : d.live? version = some number) :
    lookUp d version = (.ok (number, version), d.note version) := by
  have sound' : (d.note version).failuresLeft version = 0 := sound
  have live' : (d.note version).live? version = some number := live
  have speaks : (d.note version).speaks number = version := honest.speaks_of_live live
  unfold note at sound' live' speaks ⊢
  simp only [lookUp, discover, sound', live', Except.map, speaks]

theorem exists_of_live (live : d.live? version = some number) :
    ∃ service, d.services[number]? = some service ∧ service.alive = true := by
  obtain ⟨-, lives⟩ := Option.filter_eq_some_iff.1 live
  cases found : d.services[number]? with
  | none => simp [found] at lives
  | some service => exact ⟨service, rfl, by simpa [found] using lives⟩

/-! ## The reach of a discovery -/

/-- The versions that no other one with a live service is newer than. -/
def reach (d : Directory Party Party) (versions : List Version) : List Version :=
  versions.filter fun version =>
    versions.all fun other => (d.live? other).isNone || decide (other ≤ version)

def failuresWithin (d : Directory Party Party) (versions : List Version) : Nat :=
  ((d.reach versions).map d.failuresLeft).sum

structure Newest (d : Directory Party Party) (versions : List Version) (version : Version)
    (number : Nat) : Prop where
  listed : version ∈ versions
  live : d.live? version = some number
  newest : ∀ other ∈ versions, (d.live? other).isSome = true → other ≤ version

inductive Finds (d : Directory Party Party) (versions : List Version) :
    Except Error (Version × Nat) → Prop
  | newest {version : Version} {number : Nat} (newest : d.Newest versions version number) :
      Finds d versions (.ok (version, number))
  | nothing (dead : ∀ version ∈ versions, d.live? version = none) :
      Finds d versions (.error .unavailable)

theorem mem_reach : version ∈ d.reach versions ↔ version ∈ versions ∧
    ∀ other ∈ versions, (d.live? other).isSome = true → other ≤ version := by
  rw [reach, List.mem_filter, List.all_eq_true]
  refine and_congr_right fun _ => forall₂_congr fun other _ => ?_
  cases d.live? other <;> simp

/-- There is one newest version with a live service. -/
theorem Newest.unique {other : Version} {number' : Nat} (newest : d.Newest versions version number)
    (newest' : d.Newest versions other number') : other = version ∧ number' = number := by
  have same : other = version := Version.rank_injective <| Nat.le_antisymm
    (newest.newest other newest'.listed (by rw [newest'.live]; rfl))
    (newest'.newest version newest.listed (by rw [newest.live]; rfl))
  subst same
  exact ⟨rfl, Option.some.inj (newest'.live.symm.trans newest.live)⟩

/-- A pass in which no lookup fails finds the newest live service if there is one. -/
theorem Finds.eq_of_newest {outcome : Except Error (Version × Nat)} (finds : d.Finds versions outcome)
    (newest : d.Newest versions version number) : outcome = .ok (version, number) := by
  cases finds with
  | newest newest' =>
    obtain ⟨rfl, rfl⟩ := newest.unique newest'
    rfl
  | nothing dead => cases (dead version newest.listed).symm.trans newest.live

theorem descending_reach (d : Directory Party Party) (descending : Version.Descending versions) :
    Version.Descending (d.reach versions) :=
  descending.sublist List.filter_sublist

theorem finds_nil (d : Directory Party Party) : d.Finds [] (.error .unavailable) :=
  .nothing nofun

section Cons

variable (descending : Version.Descending (version :: rest))
include descending

/-- A live service of the first version is the newest, as versions are listed newest first. -/
theorem newest_of_live (live : d.live? version = some number) :
    d.Newest (version :: rest) version number where
  listed := .head _
  live := live
  newest := List.forall_mem_cons.2 ⟨fun _ => Nat.le_refl _, fun other listed _ =>
    Nat.le_of_lt ((List.pairwise_cons.1 descending).1 other listed)⟩

/-- With a live service, the first version is all there is in reach. -/
theorem reach_cons_of_live (live : d.live? version = some number) :
    d.reach (version :: rest) = [version] := by
  refine (d.descending_reach descending).eq (List.pairwise_singleton _ _) fun other => ?_
  rw [mem_reach, List.mem_singleton]
  constructor
  · rintro ⟨listed, reached⟩
    refine (List.mem_cons.1 listed).resolve_right fun listed => ?_
    have newer := (List.pairwise_cons.1 descending).1 other listed
    exact Nat.not_le_of_lt newer (reached version (.head _) (by rw [live]; rfl))
  · rintro rfl
    exact ⟨.head _, (newest_of_live descending live).newest⟩

/-- Without a live service, the first version is in reach before the others. -/
theorem reach_cons_of_dead (dead : d.live? version = none) :
    d.reach (version :: rest) = version :: d.reach rest := by
  obtain ⟨newer, descending'⟩ := List.pairwise_cons.1 descending
  have later : Version.Descending (version :: d.reach rest) :=
    List.pairwise_cons.2 ⟨fun other listed => newer other (mem_reach.1 listed).1,
      d.descending_reach descending'⟩
  have skip (other : Version) : ((d.live? version).isSome = true → version ≤ other) ↔ True :=
    iff_true_intro fun live => by rw [dead] at live; cases live
  refine (d.descending_reach descending).eq later fun other => ?_
  rw [List.mem_cons, mem_reach, mem_reach, List.mem_cons, List.forall_mem_cons, skip, true_and,
    or_and_right]
  refine or_congr_left (and_iff_left_of_imp ?_)
  rintro rfl older listed _
  exact Nat.le_of_lt (newer older listed)

/-- The newest version is within reach. -/
theorem exists_reach_cons : ∃ within, d.reach (version :: rest) = version :: within ∧
    version ∉ within := by
  cases live : d.live? version with
  | none =>
    refine ⟨d.reach rest, reach_cons_of_dead descending live, fun listed => ?_⟩
    exact (List.nodup_cons.1 descending.nodup).1 (mem_reach.1 listed).1
  | some number => exact ⟨[], reach_cons_of_live descending live, List.not_mem_nil⟩

theorem failuresWithin_pos (failing : d.failuresLeft version = left + 1) :
    0 < d.failuresWithin (version :: rest) := by
  obtain ⟨within, reach, -⟩ := exists_reach_cons (d := d) descending
  rw [failuresWithin, reach, List.map_cons, List.sum_cons, failing]
  omega

/-- No failure is in reach if the first version has a live service and none to come. -/
theorem failuresWithin_of_live (sound : d.failuresLeft version = 0)
    (live : d.live? version = some number) : d.failuresWithin (version :: rest) = 0 := by
  rw [failuresWithin, reach_cons_of_live descending live, List.map_singleton, List.sum_singleton,
    sound]

theorem failuresWithin_of_dead (sound : d.failuresLeft version = 0)
    (dead : d.live? version = none) :
    d.failuresWithin (version :: rest) = d.failuresWithin rest := by
  rw [failuresWithin, reach_cons_of_dead descending dead, List.map_cons, List.sum_cons, sound,
    Nat.zero_add, failuresWithin]

end Cons

/-- What is found depends only on which services live. -/
theorem Finds.congr {outcome : Except Error (Version × Nat)} (finds : d'.Finds versions outcome)
    (same : d'.live? = d.live?) : d.Finds versions outcome := by
  cases finds with
  | newest newest =>
    exact .newest ⟨newest.listed, same ▸ newest.live, fun other => same ▸ newest.newest other⟩
  | nothing dead => exact .nothing (same ▸ dead)

/-- A version without a live service changes nothing of what a pass finds. -/
theorem Finds.cons {outcome : Except Error (Version × Nat)} (finds : d.Finds rest outcome)
    (dead : d.live? version = none) : d.Finds (version :: rest) outcome := by
  cases finds with
  | newest newest =>
    refine .newest ⟨.tail _ newest.listed, newest.live, List.forall_mem_cons.2 ⟨?_, newest.newest⟩⟩
    rw [dead]
    nofun
  | nothing others => exact .nothing (List.forall_mem_cons.2 ⟨dead, others⟩)

/-! ## Passes -/

/-- Only these versions have been looked up, and this many of the lookups have failed: the failures
of the first version are used up before those of the next. -/
structure Spent (d d' : Directory Party Party) (within : List Version) (used : Nat) : Prop where
  failures : within.map d'.failuresLeft = spend used (within.map d.failuresLeft)
  others : ∀ version ∉ within, d'.failuresLeft version = d.failuresLeft version
  probed : ∃ looked, d'.probed = looked ++ d.probed ∧ ∀ version ∈ looked, version ∈ within

/-- Lookups have been made, and nothing else has become of the directory. -/
structure Searched (d d' : Directory Party Party) (within : List Version) (used : Nat) : Prop
    extends d.Spent d' within used where
  services : d'.services = d.services
  registered : d'.registered = d.registered

/-- A search leaves all services alive as they are. -/
theorem Searched.live? {within : List Version} {used : Nat} (searched : d.Searched d' within used) :
    d'.live? = d.live? := by
  funext version
  rw [Directory.live?, Directory.live?, searched.services, searched.registered]

/-- A search after a search uses up the failures of both. -/
theorem Searched.trans {within : List Version} {used more : Nat}
    (first : d.Searched d' within used) (second : d'.Searched d'' within more) :
    d.Searched d'' within (used + more) where
  services := second.services.trans first.services
  registered := second.registered.trans first.registered
  failures := by rw [second.failures, first.failures, spend_spend]
  others version outside := (second.others version outside).trans (first.others version outside)
  probed := by
    obtain ⟨looked, probed, reached⟩ := first.probed
    obtain ⟨looked', probed', reached'⟩ := second.probed
    refine ⟨looked' ++ looked, by rw [probed', probed, List.append_assoc], fun version listed => ?_⟩
    exact (List.mem_append.1 listed).elim (reached' version) (reached version)

/-- What else becomes of services is no matter. -/
theorem Spent.withServices {within : List Version} {used : Nat} (spent : d.Spent d' within used)
    (services : List (Service Party Party)) : d.Spent { d' with services } within used :=
  ⟨spent.failures, spent.others, spent.probed⟩

/-- A version with no failures left makes no difference. -/
theorem Searched.cons {within : List Version} {used : Nat} (searched : d.Searched d' within used)
    (sound : d.failuresLeft version = 0) (outside : version ∉ within) :
    d.Searched d' (version :: within) used where
  services := searched.services
  registered := searched.registered
  failures := by
    rw [List.map_cons, List.map_cons, searched.failures, searched.others version outside, sound,
      spend, Nat.zero_sub, Nat.sub_zero]
  others other absent := searched.others other fun listed => absent (.tail _ listed)
  probed := by
    obtain ⟨looked, probed, reached⟩ := searched.probed
    exact ⟨looked, probed, fun other listed => .tail _ (reached other listed)⟩

theorem searched_note {within : List Version} (d : Directory Party Party)
    (listed : version ∈ within) : d.Searched (d.note version) within 0 where
  services := rfl
  registered := rfl
  failures := (spend_zero _).symm
  others _ _ := rfl
  probed := ⟨[version], rfl, fun _ looked => List.mem_singleton.1 looked ▸ listed⟩

/-- A lookup that fails uses one failure of its version up. -/
theorem searched_of_failing {within : List Version} (failing : d.failuresLeft version = left + 1)
    (outside : version ∉ within) :
    d.Searched ((d.note version).failDiscovery version left) (version :: within) 1 where
  services := rfl
  registered := rfl
  failures := by
    rw [List.map_cons, List.map_cons, failing, failuresLeft_failDiscovery, spend,
      Nat.sub_eq_zero_of_le (Nat.le_add_left 1 left), spend_zero]
    refine congrArg (left :: ·) (List.map_congr_left fun other listed => ?_)
    exact failuresLeft_failDiscovery_of_ne _ _ fun same => outside (same ▸ listed)
  others other absent := failuresLeft_failDiscovery_of_ne _ _ fun same => absent (same ▸ .head _)
  probed := ⟨[version], rfl, fun _ looked => List.mem_singleton.1 looked ▸ .head _⟩

/-- A pass stops at the first lookup that fails. -/
theorem pass_of_failing (failing : d.failuresLeft version = left + 1) :
    Probe.pass lookUp d (version :: rest) =
      ⟨[(version, .error (.interrupted (.lookupInterrupted version)))],
        .error (.interrupted (.lookupInterrupted version)),
        (d.note version).failDiscovery version left⟩ := by
  have looked := lookUp_of_failing failing
  have verdict : judge version (lookUp d version).1 =
      .stop (.interrupted (.lookupInterrupted version)) := by
    rw [looked]
    rfl
  rw [Probe.pass_of_stop verdict, looked]

/-- A pass goes on over a version without a live service. -/
theorem pass_of_dead (sound : d.failuresLeft version = 0) (dead : d.live? version = none) :
    Probe.pass lookUp d (version :: rest) =
      (Probe.pass lookUp (d.note version) rest).after version (.error (.notFound version)) := by
  have looked := lookUp_of_dead sound dead
  have verdict : judge version (lookUp d version).1 = .next := by
    rw [looked]
    rfl
  rw [Probe.pass_of_next verdict, looked]

/-- A pass ends at the first version with a live service. -/
theorem Honest.pass_of_live (honest : d.Honest) (sound : d.failuresLeft version = 0)
    (live : d.live? version = some number) :
    Probe.pass lookUp d (version :: rest) =
      ⟨[(version, .ok (number, version))], .ok (version, number), d.note version⟩ := by
  have looked := honest.lookUp_of_live sound live
  have verdict : judge version (lookUp d version).1 = .found number := by
    rw [looked]
    exact if_pos rfl
  rw [Probe.pass_of_found verdict, looked]

/-- A pass takes one failure away and is interrupted by it, if there is one within reach; otherwise
it finds the newest live service, or nothing. -/
theorem Honest.pass_searched (honest : d.Honest) (descending : Version.Descending versions) :
    d.Searched (Probe.pass lookUp d versions).provider (d.reach versions)
        (min (d.failuresWithin versions) 1) ∧
      (d.failuresWithin versions = 0 → d.Finds versions (Probe.pass lookUp d versions).outcome) ∧
      (0 < d.failuresWithin versions → (Probe.pass lookUp d versions).Interrupted) := by
  induction versions generalizing d with
  | nil =>
    refine ⟨?_, fun _ => d.finds_nil, fun some => absurd some (Nat.lt_irrefl 0)⟩
    exact ⟨⟨rfl, fun _ _ => rfl, [], rfl, nofun⟩, rfl, rfl⟩
  | cons version rest ih =>
    -- a failure of the newest version ends the pass, and otherwise its service does if it lives
    cases failing : d.failuresLeft version with
    | succ left =>
      have failures := failuresWithin_pos descending failing
      obtain ⟨within, reach, outside⟩ := exists_reach_cons (d := d) descending
      rw [pass_of_failing failing, Nat.min_eq_right failures, reach]
      exact ⟨searched_of_failing failing outside, fun none => absurd none failures.ne',
        fun _ => ⟨_, rfl⟩⟩
    | zero =>
      cases live : d.live? version with
      | some number =>
        rw [honest.pass_of_live failing live, failuresWithin_of_live descending failing live,
          reach_cons_of_live descending live]
        exact ⟨d.searched_note (.head _), fun _ => .newest (newest_of_live descending live),
          fun some => absurd some (Nat.lt_irrefl 0)⟩
      | none =>
        have honest' : (d.note version).Honest := honest
        obtain ⟨searched, finds, interrupted⟩ := ih honest' (List.pairwise_cons.1 descending).2
        have outside : version ∉ (d.note version).reach rest := fun listed =>
          (List.nodup_cons.1 descending.nodup).1 (mem_reach.1 listed).1
        rw [pass_of_dead failing live, failuresWithin_of_dead descending failing live,
          reach_cons_of_dead descending live]
        refine ⟨?_, fun none => ?_, interrupted⟩
        · have both := (d.searched_note (.head _)).trans (searched.cons failing outside)
          rw [Nat.zero_add] at both
          exact both
        · have same : d.Finds rest _ := (finds none).congr rfl
          exact same.cons live

/-! ## Passes in turn -/

theorem Searched.honest {within : List Version} {used : Nat} (searched : d.Searched d' within used)
    (honest : d.Honest) : d'.Honest := by
  intro version number listed
  rw [searched.registered] at listed
  obtain ⟨service, found, speaks⟩ := honest version number listed
  exact ⟨service, searched.services ▸ found, speaks⟩

theorem Searched.reach {within : List Version} {used : Nat} (searched : d.Searched d' within used)
    (versions : List Version) : d'.reach versions = d.reach versions := by
  rw [Directory.reach, Directory.reach, searched.live?]

/-- Each pass takes one failure away until none is left within reach. -/
theorem Honest.turn_searched (honest : d.Honest) (descending : Version.Descending versions)
    (i : Nat) :
    d.Searched (turn (fun d => Probe.pass lookUp d versions) d i).provider (d.reach versions)
        (min (d.failuresWithin versions) (i + 1)) ∧
      (d.failuresWithin versions ≤ i →
        d.Finds versions (turn (fun d => Probe.pass lookUp d versions) d i).outcome) ∧
      (i < d.failuresWithin versions →
        (turn (fun d => Probe.pass lookUp d versions) d i).Interrupted) := by
  induction i generalizing d with
  | zero =>
    obtain ⟨searched, finds, interrupted⟩ := honest.pass_searched descending
    exact ⟨searched, fun none => finds (Nat.le_zero.1 none), interrupted⟩
  | succ i ih =>
    -- after the first pass, the others are those over a directory with one failure fewer
    obtain ⟨searched, -, -⟩ := honest.pass_searched descending
    obtain ⟨later, finds, interrupted⟩ := ih (searched.honest honest)
    have left : (Probe.pass lookUp d versions).provider.failuresWithin versions =
        d.failuresWithin versions - min (d.failuresWithin versions) 1 := by
      rw [failuresWithin, searched.reach, searched.failures, sum_spend, failuresWithin]
    rw [searched.reach, left] at later
    rw [left] at finds interrupted
    refine ⟨?_, fun enough => (finds (by omega)).congr searched.live?, fun more =>
      interrupted (by omega)⟩
    have both := searched.trans later
    rwa [show min (d.failuresWithin versions) 1 + min (d.failuresWithin versions -
      min (d.failuresWithin versions) 1) (i + 1) = min (d.failuresWithin versions) (i + 1 + 1) by
      omega] at both

/-- A discovery ends with the newest live service, or with nothing, if there are not more failures
within reach than passes after the first; otherwise it ends with an interruption. Either way it uses
up one failure for each pass but the one that finds out. -/
theorem Honest.rounds_searched {grow : Growth} {backoff : Option Backoff} (honest : d.Honest)
    (descending : Version.Descending versions)
    (computable : ∀ b, backoff = some b → b.Computable grow) :
    ∃ outcome, (Probe.rounds grow (fun d => Probe.pass lookUp d versions) backoff d).ending =
        .ok outcome ∧
      d.Searched (Probe.rounds grow (fun d => Probe.pass lookUp d versions) backoff d).provider
        (d.reach versions) (min (d.failuresWithin versions) (Probe.budget backoff + 1)) ∧
      (d.failuresWithin versions ≤ Probe.budget backoff → d.Finds versions outcome) ∧
      (Probe.budget backoff < d.failuresWithin versions → ∃ why, outcome = .error why) := by
  have each := honest.turn_searched descending
  have interrupted : ∀ i < d.failuresWithin versions,
      (turn (fun d => Probe.pass lookUp d versions) d i).Interrupted :=
    fun i fewer => (each i).2.2 fewer
  obtain ⟨-, -, ending, provider⟩ := Probe.rounds_eq computable interrupted
    fun ⟨fault, outcome⟩ => by
      have finds := (each _).2.1 (Nat.le_refl _)
      rw [outcome] at finds
      nomatch finds
  refine ⟨_, ending, ?_, fun enough => ?_, fun more => ?_⟩
  · have searched := (each (min (d.failuresWithin versions) (Probe.budget backoff))).1
    rw [provider]
    rwa [show min (d.failuresWithin versions)
      (min (d.failuresWithin versions) (Probe.budget backoff) + 1) =
        min (d.failuresWithin versions) (Probe.budget backoff + 1) by omega] at searched
  · rw [Nat.min_eq_left enough]
    exact (each _).2.1 (Nat.le_refl _)
  · rw [Nat.min_eq_right (Nat.le_of_lt more)]
    obtain ⟨fault, outcome⟩ := (each _).2.2 more
    exact ⟨_, outcome⟩

end Directory

end Baseband.Loopback
