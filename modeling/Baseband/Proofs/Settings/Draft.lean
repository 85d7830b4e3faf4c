import Mathlib.Data.List.Induction
import Baseband.Settings

/-!
# What a draft comes to

The settings of a draft are told by the list of its changes alone. A plain setting is that of its
last change behind the last whole set, or that of the whole set. The retry settings are those of the
whole set as long as none of them is changed. Once one is, each of them is that of its last change
wherever it stands, or else that of the whole set.

## Main definitions

* `Draft.Latest`: the value of the last change of a kind.
* `Draft.Since`: the last whole set, and the changes behind it.
* `Draft.Effective`: the settings that changes come to.

## Main statements

* `Draft.settings_of_changes`: a draft is finished with these settings, if they pass the check.
-/

namespace Baseband.Draft

variable {α : Type} {changes since : List Change} {base s : Settings}

/-! ## What changes come to -/

/-- The value of the last change of a kind, or another one if there is no such change. -/
inductive Latest (kind : α → Change) (otherwise : α) : List Change → α → Prop
  | made {earlier later : List Change} {value : α} (last : ∀ v, kind v ∉ later) :
      Latest kind otherwise (earlier ++ kind value :: later) value
  | unmade {changes : List Change} (never : ∀ v, kind v ∉ changes) :
      Latest kind otherwise changes otherwise

/-- The last whole set of settings, or the standard settings if there is none, and the changes
behind it. -/
inductive Since : List Change → Settings → List Change → Prop
  | whole {earlier since : List Change} {base : Settings} (last : ∀ s, .settings s ∉ since) :
      Since (earlier ++ .settings base :: since) base since
  | standard {changes : List Change} (never : ∀ s, .settings s ∉ changes) :
      Since changes .standard changes

def Change.aboutRetry : Change → Bool
  | .maxAttempts _ | .multiplier _ | .initialDelay _ | .maxDelay _ => true
  | _ => false

structure Merges (changes : List Change) (base policy : RetryPolicy) : Prop where
  maxAttempts : Latest .maxAttempts base.maxAttempts changes policy.maxAttempts
  multiplier : Latest .multiplier base.multiplier changes policy.multiplier
  initialDelay : Latest .initialDelay base.initialDelay changes policy.initialDelay
  maxDelay : Latest .maxDelay base.maxDelay changes policy.maxDelay

inductive Retries (changes : List Change) (base : Option RetryPolicy) : Option RetryPolicy → Prop
  | kept (never : ∀ c ∈ changes, c.aboutRetry = false) : Retries changes base base
  | merged {c : Change} {policy : RetryPolicy} (made : c ∈ changes) (about : c.aboutRetry = true)
      (merges : Merges changes (base.getD .standard) policy) : Retries changes base (some policy)

/-- The settings that changes come to. -/
inductive Effective (changes : List Change) (s : Settings) : Prop
  | intro {base : Settings} {since : List Change} (split : Since changes base since)
      (candidates : Latest .candidates base.candidates since s.candidates)
      (mobileNetwork : Latest .mobileNetwork base.mobileNetwork since s.mobileNetwork)
      (attribution : Latest .attribution base.attribution since s.attribution)
      (inboxCapacity : Latest .inboxCapacity base.inboxCapacity since s.inboxCapacity)
      (standalone : s.standalone = base.standalone)
      (nonStandalone : s.nonStandalone = base.nonStandalone)
      (retries : Retries changes base.retry s.retry) : Effective changes s

theorem exists_latest (kind : α → Change) (otherwise : α) (changes : List Change) :
    ∃ value, Latest kind otherwise changes value := by
  induction changes using List.reverseRecOn with
  | nil => exact ⟨otherwise, .unmade (by simp)⟩
  | append_singleton changes c ih =>
    by_cases now : ∃ v, kind v = c
    · obtain ⟨value, rfl⟩ := now
      exact ⟨value, .made (by simp)⟩
    · have other : ∀ v, kind v ∉ [c] := by simpa using now
      obtain ⟨value, latest⟩ := ih
      refine ⟨value, ?_⟩
      cases latest with
      | @made earlier later _ last =>
        rw [List.append_assoc, List.cons_append]
        refine .made fun v mem => ?_
        exact (List.mem_append.1 mem).elim (last v) (other v)
      | unmade never =>
        refine .unmade fun v mem => ?_
        exact (List.mem_append.1 mem).elim (never v) (other v)

theorem exists_since (changes : List Change) : ∃ base since, Since changes base since := by
  obtain ⟨base, latest⟩ := exists_latest .settings .standard changes
  cases latest with
  | made last => exact ⟨_, _, .whole last⟩
  | unmade never => exact ⟨_, _, .standard never⟩

theorem exists_merges (changes : List Change) (base : RetryPolicy) :
    ∃ policy, Merges changes base policy := by
  obtain ⟨_, maxAttempts⟩ := exists_latest .maxAttempts base.maxAttempts changes
  obtain ⟨_, multiplier⟩ := exists_latest .multiplier base.multiplier changes
  obtain ⟨_, initialDelay⟩ := exists_latest .initialDelay base.initialDelay changes
  obtain ⟨_, maxDelay⟩ := exists_latest .maxDelay base.maxDelay changes
  exact ⟨⟨_, _, _, _⟩, maxAttempts, multiplier, initialDelay, maxDelay⟩

theorem exists_retries (changes : List Change) (base : Option RetryPolicy) :
    ∃ retry, Retries changes base retry := by
  by_cases made : ∃ c ∈ changes, c.aboutRetry = true
  · obtain ⟨c, mem, about⟩ := made
    obtain ⟨policy, merges⟩ := exists_merges changes (base.getD .standard)
    exact ⟨some policy, .merged mem about merges⟩
  · exact ⟨base, .kept (by simpa using made)⟩

/-- Any changes come to some settings. -/
theorem exists_effective (changes : List Change) : ∃ s, Effective changes s := by
  obtain ⟨base, since, split⟩ := exists_since changes
  obtain ⟨_, candidates⟩ := exists_latest .candidates base.candidates since
  obtain ⟨_, mobileNetwork⟩ := exists_latest .mobileNetwork base.mobileNetwork since
  obtain ⟨_, attribution⟩ := exists_latest .attribution base.attribution since
  obtain ⟨_, inboxCapacity⟩ := exists_latest .inboxCapacity base.inboxCapacity since
  obtain ⟨_, retries⟩ := exists_retries changes base.retry
  exact ⟨⟨_, _, _, base.standalone, base.nonStandalone, _, _⟩,
    .intro split candidates mobileNetwork attribution inboxCapacity rfl rfl retries⟩

/-! ## Parts of a draft -/

theorem changeAll_append (d : Draft) (earlier later : List Change) :
    d.changeAll (earlier ++ later) = (d.changeAll earlier).changeAll later :=
  List.foldl_append

/-- Changes that leave a part of a draft alone leave it alone together. -/
theorem part_changeAll (part : Draft → α) {d : Draft}
    (alone : ∀ c ∈ changes, ∀ d : Draft, part (d.change c) = part d) :
    part (d.changeAll changes) = part d := by
  induction changes generalizing d with
  | nil => rfl
  | cons c changes ih =>
    rw [List.forall_mem_cons] at alone
    exact (ih alone.2).trans (alone.1 d)

/-- A part of a draft that only one kind of change sets has the value of the last of them. -/
theorem part_of_latest {kind : α → Change} (part : Draft → α) (d : Draft) {otherwise value : α}
    (latest : Latest kind otherwise changes value) (start : part d = otherwise)
    (sets : ∀ (d : Draft) v, part (d.change (kind v)) = v)
    (others : ∀ c ∈ changes, (∀ v, kind v ≠ c) → ∀ d : Draft, part (d.change c) = part d) :
    part (d.changeAll changes) = value := by
  cases latest with
  | @made earlier later _ last =>
    have alone : ∀ c ∈ later, ∀ d : Draft, part (d.change c) = part d := by
      intro c mem
      refine others c (by simp [mem]) ?_
      rintro v rfl
      exact last v mem
    rw [changeAll_append]
    exact (part_changeAll part alone).trans (sets _ value)
  | unmade never =>
    rw [← start]
    apply part_changeAll part
    intro c mem
    refine others c mem ?_
    rintro v rfl
    exact never v mem

/-- A draft knows whether some change was about the retry policy. -/
theorem setsRetry_changeAll (d : Draft) (changes : List Change) :
    (d.changeAll changes).setsRetry = (d.setsRetry || changes.any Change.aboutRetry) := by
  induction changes generalizing d with
  | nil => simp [changeAll]
  | cons c changes ih =>
    have now : (d.change c).setsRetry = (d.setsRetry || c.aboutRetry) := by
      cases c <;> simp [change, setsRetry, Change.aboutRetry]
    change ((d.change c).changeAll changes).setsRetry = _
    rw [ih, now, List.any_cons, Bool.or_assoc]

/-- Behind the last whole set, the draft starts from it. -/
theorem Since.exists_draft (split : Since changes base since) :
    (∀ s, .settings s ∉ since) ∧
      ∃ d : Draft, d.settings = base ∧ empty.changeAll changes = d.changeAll since := by
  cases split with
  | @whole earlier _ _ last =>
    refine ⟨last, (empty.changeAll earlier).change (.settings base), rfl, ?_⟩
    rw [changeAll_append]
    rfl
  | standard never => exact ⟨never, empty, rfl, rfl⟩

/-! ## The settings of a draft -/

def outcome (d : Draft) : Settings :=
  { d.settings with retry := d.retry }

/-- The policy that merges changes is the one with the latest value of each kind. -/
theorem Merges.eq {policy merged : RetryPolicy} (merges : Merges changes policy merged) :
    merged = {
      maxAttempts := (empty.changeAll changes).maxAttempts.getD policy.maxAttempts
      multiplier := (empty.changeAll changes).multiplier.getD policy.multiplier
      initialDelay := (empty.changeAll changes).initialDelay.getD policy.initialDelay
      maxDelay := (empty.changeAll changes).maxDelay.getD policy.maxDelay } := by
  have maxAttempts := part_of_latest (fun d => d.maxAttempts.getD policy.maxAttempts) empty
    merges.maxAttempts rfl (fun _ _ => rfl) fun c _ other d => by cases c <;> grind [change]
  have multiplier := part_of_latest (fun d => d.multiplier.getD policy.multiplier) empty
    merges.multiplier rfl (fun _ _ => rfl) fun c _ other d => by cases c <;> grind [change]
  have initialDelay := part_of_latest (fun d => d.initialDelay.getD policy.initialDelay) empty
    merges.initialDelay rfl (fun _ _ => rfl) fun c _ other d => by cases c <;> grind [change]
  have maxDelay := part_of_latest (fun d => d.maxDelay.getD policy.maxDelay) empty
    merges.maxDelay rfl (fun _ _ => rfl) fun c _ other d => by cases c <;> grind [change]
  rw [maxAttempts, multiplier, initialDelay, maxDelay]

/-- The retry policy of a draft is the given one with the latest changes, if there are any. -/
theorem Retries.eq {old retry : Option RetryPolicy} (retries : Retries changes old retry)
    (kept : (empty.changeAll changes).settings.retry = old) :
    retry = (empty.changeAll changes).retry := by
  have made : (empty.changeAll changes).setsRetry = changes.any Change.aboutRetry :=
    setsRetry_changeAll empty changes
  cases retries with
  | kept never =>
    have none : changes.any Change.aboutRetry = false := by simpa using never
    rw [Draft.retry, made, none, kept]
    rfl
  | merged mem about merges =>
    have some : changes.any Change.aboutRetry = true := List.any_eq_true.2 ⟨_, mem, about⟩
    rw [Draft.retry, made, some, kept, merges.eq]
    rfl

/-- The effective settings are those that the draft comes to. -/
theorem Effective.eq (effective : Effective changes s) : s = (empty.changeAll changes).outcome := by
  obtain @⟨base, since, split, candidates, mobileNetwork, attribution, inboxCapacity, standalone,
    nonStandalone, retries⟩ := effective
  obtain ⟨last, d, rfl, behind⟩ := split.exists_draft
  -- no whole set is among the changes left, so each of them sets one part and keeps the others
  have candidates := part_of_latest (fun d => d.settings.candidates) d candidates rfl
    (fun _ _ => rfl) fun c mem other d => by cases c <;> grind [change]
  have mobileNetwork := part_of_latest (fun d => d.settings.mobileNetwork) d mobileNetwork rfl
    (fun _ _ => rfl) fun c mem other d => by cases c <;> grind [change]
  have attribution := part_of_latest (fun d => d.settings.attribution) d attribution rfl
    (fun _ _ => rfl) fun c mem other d => by cases c <;> grind [change]
  have inboxCapacity := part_of_latest (fun d => d.settings.inboxCapacity) d inboxCapacity rfl
    (fun _ _ => rfl) fun c mem other d => by cases c <;> grind [change]
  have kept : (d.changeAll since).settings.standalone = d.settings.standalone ∧
      (d.changeAll since).settings.nonStandalone = d.settings.nonStandalone ∧
      (d.changeAll since).settings.retry = d.settings.retry := by
    refine ⟨part_changeAll (fun d => d.settings.standalone) ?_,
      part_changeAll (fun d => d.settings.nonStandalone) ?_,
      part_changeAll (fun d => d.settings.retry) ?_⟩ <;>
    · intro c mem d
      cases c <;> grind [change]
  rw [← behind] at candidates mobileNetwork attribution inboxCapacity kept
  have retry := retries.eq kept.2.2
  cases s
  simp_all [outcome]

/-- From any list of changes comes exactly one set of settings. The draft of these changes is
finished with them if they pass the check, and with the error of the check if they do not. -/
theorem settings_of_changes (changes : List Change) :
    ∃ s, Effective changes s ∧ (∀ s', Effective changes s' → s' = s) ∧
      (∀ result, (empty.changeAll changes).finish = .ok result ↔
        result = s ∧ s.check = .ok ()) ∧
      ∀ e, (empty.changeAll changes).finish = .error e ↔ s.check = .error e := by
  obtain ⟨s, effective⟩ := exists_effective changes
  have finished : (empty.changeAll changes).finish = s.check.map fun _ => s := by
    rw [effective.eq]
    rfl
  refine ⟨s, effective, fun s' effective' => effective'.eq.trans effective.eq.symm,
    fun result => ?_, fun e => ?_⟩
  · rw [finished]
    cases s.check <;> simp [Except.map, eq_comm]
  · rw [finished]
    cases s.check <;> simp [Except.map]

/-- Retry settings are kept over a whole set, plain ones are not. -/
example : (empty.changeAll [.maxAttempts 7, .inboxCapacity 0, .settings .standard,
    .candidates [⟨1, 1⟩]]).finish =
      .ok { Settings.standard with
        candidates := [⟨1, 1⟩]
        retry := some { RetryPolicy.standard with maxAttempts := 7 } } := by decide

end Baseband.Draft
