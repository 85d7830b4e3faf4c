import Mathlib.Logic.Relation
import Baseband.Proofs.Loopback

/-!
# Who is told of a death

A service that dies tells those who want to hear of it one after another. Whoever is told can call
the service in turn, before the next one is told: register for a death again, or kill the service
once more. Whatever is called and when, everybody who was ever accepted is told once, in the order
of their registration, and nobody else is told.

## Main definitions

* `Watch`: a service with those who were accepted, those to be told and those who were.
* `Watch.Leads`: calls from outside and from those who are told, in any order.

## Main statements

* `Watch.Orderly.leads`: those who were accepted are waiting, being told or told, in order.
* `Watch.recipients_told_once`: who is accepted, who is told, and how often.
-/

namespace Baseband.Loopback

variable {ω σ : Type}

/-- A service under calls, which may come from whoever is being told of its death. -/
structure Watch (ω σ : Type) where
  service : Service ω σ
  /-- Those whom each kill that has not yet returned has still to tell, the innermost kill first. -/
  telling : List (List (Recipient ω))
  /-- Those who have registered and were accepted, in order. -/
  linked : List (Recipient ω)
  /-- Those who have been told, in order. -/
  told : List (Recipient ω)

namespace Watch

def start (version : Version) : Watch ω σ :=
  ⟨.new version, [], [], []⟩

def link (w : Watch ω σ) (recipient : Recipient ω) : Watch ω σ :=
  match w.service.link recipient with
  | .ok service => { w with service, linked := w.linked ++ [recipient] }
  | .error _ => w

def kill (w : Watch ω σ) : Watch ω σ :=
  { w with service := w.service.kill.1, telling := w.service.kill.2 :: w.telling }

inductive Proceeds : Watch ω σ → Watch ω σ → Prop
  | tell {w : Watch ω σ} {recipient : Recipient ω} {rest : List (Recipient ω)}
      {outer : List (List (Recipient ω))} (next : w.telling = (recipient :: rest) :: outer) :
      Proceeds w { w with telling := rest :: outer, told := w.told ++ [recipient] }
  | finish {w : Watch ω σ} {outer : List (List (Recipient ω))} (done : w.telling = [] :: outer) :
      Proceeds w { w with telling := outer }

/-- One step: a call, from outside or from whoever was told last, or what a kill does next. -/
inductive Step : Watch ω σ → Watch ω σ → Prop
  | link (w : Watch ω σ) (recipient : Recipient ω) : Step w (w.link recipient)
  | kill (w : Watch ω σ) : Step w w.kill
  | proceed {w after : Watch ω σ} (proceeds : Proceeds w after) : Step w after

abbrev Leads : Watch ω σ → Watch ω σ → Prop :=
  Relation.ReflTransGen Step

/-- As long as the service lives, all who were accepted wait to be told. Once it is dead, they have
been told or are being told, in the order of their registration. -/
structure Orderly (w : Watch ω σ) : Prop where
  distinct : (w.linked.map (·.cookie)).Nodup
  waiting : w.service.alive = true →
    w.service.recipients = w.linked ∧ w.telling = [] ∧ w.told = []
  dying : w.service.alive = false →
    w.service.recipients = [] ∧ w.linked = w.told ++ w.telling.flatten

variable {w after : Watch ω σ}

theorem orderly_start (version : Version) : (start version : Watch ω σ).Orderly where
  distinct := List.nodup_nil
  waiting _ := ⟨rfl, rfl, rfl⟩
  dying dead := by cases dead

theorem link_of_dead (dead : w.service.alive = false) (recipient : Recipient ω) :
    w.link recipient = w := by
  unfold link
  split
  · rename_i accepted
    obtain ⟨alive, -⟩ := Service.link_eq_ok.1 accepted
    rw [dead] at alive
    cases alive
  · rfl

theorem kill_of_dead (dead : w.service.alive = false) :
    w.kill = { w with telling := [] :: w.telling } := by
  simp [kill, Service.kill, dead]

/-- A registration puts its recipient behind all others, or is refused. -/
theorem Orderly.link (orderly : w.Orderly) (recipient : Recipient ω) :
    (w.link recipient).Orderly := by
  unfold Watch.link
  split
  · rename_i accepted
    obtain ⟨alive, fresh, rfl⟩ := Service.link_eq_ok.1 accepted
    obtain ⟨all, idle, silent⟩ := orderly.waiting alive
    refine ⟨?_, fun _ => ⟨congrArg (· ++ [recipient]) all, idle, silent⟩, fun dead => ?_⟩
    · rw [List.map_append, List.map_singleton, List.nodup_append]
      refine ⟨orderly.distinct, List.nodup_singleton _, ?_⟩
      rintro cookie listed other isNew rfl
      exact fresh (all ▸ List.mem_singleton.1 isNew ▸ listed)
    · rw [alive] at dead
      cases dead
  · exact orderly

/-- The first kill begins to tell all who were accepted. -/
theorem Orderly.kill (orderly : w.Orderly) : w.kill.Orderly := by
  cases alive : w.service.alive with
  | true =>
    obtain ⟨all, idle, silent⟩ := orderly.waiting alive
    have killed : w.kill =
        { w with
          service := { w.service with alive := false, recipients := [] }
          telling := [w.service.recipients] } := by
      simp [Watch.kill, Service.kill, alive, idle]
    rw [killed]
    exact ⟨orderly.distinct, nofun, fun _ => ⟨rfl, by simp [silent, all]⟩⟩
  | false =>
    rw [kill_of_dead alive]
    refine ⟨orderly.distinct, fun lives => ?_, orderly.dying⟩
    rw [alive] at lives
    cases lives

theorem Orderly.proceed (orderly : w.Orderly) (proceeds : Proceeds w after) : after.Orderly := by
  have dead : w.service.alive = false := by
    by_contra lives
    obtain ⟨-, idle, -⟩ := orderly.waiting (by simpa using lives)
    cases proceeds <;> simp_all
  obtain ⟨none, all⟩ := orderly.dying dead
  cases proceeds with
  | tell next =>
    refine ⟨orderly.distinct, fun lives => ?_, fun _ => ⟨none, ?_⟩⟩
    · rw [show w.service.alive = true from lives] at dead
      cases dead
    · rw [next] at all
      simpa using all
  | finish done =>
    refine ⟨orderly.distinct, fun lives => ?_, fun _ => ⟨none, ?_⟩⟩
    · rw [show w.service.alive = true from lives] at dead
      cases dead
    · rw [done] at all
      simpa using all

/-- Order survives each step, also those taken by whoever is being told. -/
theorem Orderly.step (orderly : w.Orderly) (step : Step w after) : after.Orderly := by
  cases step with
  | link => exact orderly.link _
  | kill => exact orderly.kill
  | proceed proceeds => exact orderly.proceed proceeds

theorem Orderly.leads (orderly : w.Orderly) (leads : Leads w after) : after.Orderly := by
  induction leads with
  | refl => exact orderly
  | tail _ step ih => exact ih.step step

/-- A service that is dead stays so, and accepts nobody. -/
theorem Step.of_dead (step : Step w after) (dead : w.service.alive = false) :
    after.service.alive = false ∧ after.linked = w.linked := by
  cases step with
  | link =>
    rw [link_of_dead dead]
    exact ⟨dead, rfl⟩
  | kill =>
    rw [kill_of_dead dead]
    exact ⟨dead, rfl⟩
  | proceed proceeds => cases proceeds <;> exact ⟨dead, rfl⟩

/-- A dead service stays dead, and accepts nobody any more. -/
theorem leads_of_dead (leads : Leads w after) (dead : w.service.alive = false) :
    after.service.alive = false ∧ after.linked = w.linked := by
  induction leads with
  | refl => exact ⟨dead, rfl⟩
  | tail _ step ih =>
    obtain ⟨dead, same⟩ := step.of_dead ih.1
    exact ⟨dead, same.trans ih.2⟩

/-- If nobody who is told calls any more, then every kill returns. -/
theorem proceeds_to_end (w : Watch ω σ) :
    Relation.ReflTransGen Proceeds w
      { w with telling := [], told := w.told ++ w.telling.flatten } := by
  obtain ⟨service, telling, linked, told⟩ := w
  induction telling generalizing told with
  | nil =>
    rw [List.flatten_nil, List.append_nil]
  | cons first outer ih =>
    induction first generalizing told with
    | nil => exact .head (.finish rfl) (ih told)
    | cons recipient rest ih' =>
      have next := ih' (told ++ [recipient])
      rw [List.append_assoc] at next
      exact .head (.tell rfl) next

/-- Whatever is called, also by those who are being told: no two registered recipients have one
cookie; whoever registers is accepted just if the service lives and knows nobody under the cookie,
and otherwise nothing changes; nobody is told as long as the service lives, and nobody twice. When
the service is killed first, those registered then are told, in the order of their registration, and
whatever they call, all of them have been told once every kill has returned, and every kill can
return. After that nobody is accepted, and other kills tell nobody. -/
theorem recipients_told_once {version : Version} (leads : Leads (start version) w) :
    (w.service.recipients.map (·.cookie)).Nodup ∧
    (∀ recipient, (∃ service, w.service.link recipient = .ok service) ↔
      w.service.alive = true ∧ ∀ other ∈ w.service.recipients, other.cookie ≠ recipient.cookie) ∧
    (∀ recipient why, w.service.link recipient = .error why → w.link recipient = w) ∧
    (w.told.map (·.cookie)).Nodup ∧
    (w.service.alive = true → w.service.recipients = w.linked ∧ w.telling = [] ∧ w.told = []) ∧
    (w.service.alive = true → ∀ after, Leads w.kill after →
      after.service.alive = false ∧ after.service.recipients = [] ∧
      after.linked = w.service.recipients ∧
      after.told ++ after.telling.flatten = w.service.recipients ∧
      ∃ ended, Relation.ReflTransGen Proceeds after ended ∧ ended.telling = [] ∧
        ended.told = w.service.recipients) ∧
    (w.service.alive = false →
      (∀ recipient, w.service.link recipient = .error (.transport (.dead w.service.version))) ∧
      w.service.kill = (w.service, []) ∧ (w.telling = [] → w.told = w.linked)) := by
  have orderly := (orderly_start version).leads leads
  have prefixTold : w.told <+: w.linked := by
    cases alive : w.service.alive with
    | true =>
      rw [(orderly.waiting alive).2.2]
      exact List.nil_prefix
    | false => exact ⟨_, (orderly.dying alive).2.symm⟩
  refine ⟨?_, fun recipient => ?_, fun recipient why refused => ?_,
    orderly.distinct.sublist (prefixTold.sublist.map _), orderly.waiting, ?_, fun dead => ?_⟩
  · cases alive : w.service.alive with
    | true =>
      rw [(orderly.waiting alive).1]
      exact orderly.distinct
    | false =>
      rw [(orderly.dying alive).1]
      exact List.nodup_nil
  · simp only [Service.link_eq_ok, List.mem_map, not_exists, not_and]
    exact ⟨fun ⟨_, alive, fresh, _⟩ => ⟨alive, fresh⟩, fun ⟨alive, fresh⟩ => ⟨_, alive, fresh, rfl⟩⟩
  · simp [link, refused]
  · intro alive after leads
    have all := (orderly.waiting alive).1
    have dying : w.kill.service.alive = false := by simp [kill, Service.kill, alive]
    obtain ⟨dead, same⟩ := leads_of_dead leads dying
    obtain ⟨none, split⟩ := (orderly.kill.leads leads).dying dead
    have linked : after.linked = w.service.recipients := same.trans all.symm
    have whole := split.symm.trans linked
    exact ⟨dead, none, linked, whole, _, proceeds_to_end after, rfl, whole⟩
  · refine ⟨fun recipient => by simp [Service.link, dead], by simp [Service.kill, dead], ?_⟩
    intro idle
    rw [(orderly.dying dead).2, idle, List.flatten_nil, List.append_nil]

/-- Two recipients are told; the first of them calls for another kill and registers again, in
vain. -/
theorem recipients_told_once_of_two :
    ∃ w after : Watch Nat Nat, Leads (start ⟨1, 3⟩) w ∧ w.service.alive = true ∧
      Leads w.kill after ∧ after.telling = [] ∧ after.told = [⟨7, 0⟩, ⟨8, 1⟩] := by
  let w : Watch Nat Nat := ((start ⟨1, 3⟩).link ⟨7, 0⟩).link ⟨8, 1⟩
  have leads : Leads (start ⟨1, 3⟩) w := .tail (.single (.link _ _)) (.link _ _)
  have told : Leads w.kill _ := .single (.proceed (.tell rfl))
  have again := ((told.tail (.kill _)).tail (.link _ ⟨9, 0⟩)).tail (.proceed (.finish rfl))
  obtain ⟨-, -, -, -, ended, proceeds, idle, all⟩ :=
    (recipients_told_once leads).2.2.2.2.2.1 rfl _ again
  exact ⟨w, ended, leads, rfl, again.trans (proceeds.lift id fun _ _ => .proceed), idle, all⟩

end Watch

end Baseband.Loopback
