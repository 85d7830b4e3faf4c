import Baseband.Proofs.Discovery.Directory
import Baseband.Proofs.Network.Steps

/-!
# A client alone

As long as nobody else registers for deaths, services know the client alone, and only under the
numbers of its sessions. So a service does not refuse the client on behalf of its next session, unless
it is dead.
-/

namespace Baseband

open Bench (Party)
open Loopback (Directory Recipient Reply Service)

/-! ## Services -/

namespace Loopback

def Service.Within (service : Service Party Party) (bound : Nat) : Prop :=
  ∀ recipient ∈ service.recipients, recipient.cookie ≤ bound

namespace Directory

variable {d d' : Directory Party Party} {bound number : Nat}

structure Tidy (d : Directory Party Party) (bound : Nat) : Prop where
  honest : d.Honest
  within : ∀ (number : Nat) (service : Service Party Party),
    d.services[number]? = some service → service.Within bound

theorem tidy_empty (bound : Nat) : (empty : Directory Party Party).Tidy bound :=
  ⟨fun _ _ => nofun, fun _ _ => nofun⟩

theorem Tidy.mono {more : Nat} (tidy : d.Tidy bound) (le : bound ≤ more) : d.Tidy more where
  honest := tidy.honest
  within number service found recipient known :=
    Nat.le_trans (tidy.within number service found recipient known) le

theorem Tidy.congr (tidy : d.Tidy bound) (services : d'.services = d.services)
    (registered : d'.registered = d.registered) : d'.Tidy bound where
  honest version number listed := by
    obtain ⟨service, found, speaks⟩ := tidy.honest version number (registered ▸ listed)
    exact ⟨service, services ▸ found, speaks⟩
  within number service found := tidy.within number service (services ▸ found)

/-- A directory stays tidy if the service that changes keeps its version and the bound. -/
theorem Tidy.modify (tidy : d.Tidy bound) {f : Service Party Party → Service Party Party}
    (kept : ∀ service, d.services[number]? = some service → service.Within bound →
      (f service).version = service.version ∧ (f service).Within bound) :
    (d.modify number f).Tidy bound where
  honest version other listed := by
    obtain ⟨service, found, speaks⟩ := tidy.honest version other listed
    by_cases same : number = other
    · subst same
      exact has_modify found ((kept service found (tidy.within _ _ found)).1.trans speaks)
    · exact ⟨service, by simp [Directory.modify, same, found], speaks⟩
  within other after found := by
    by_cases same : number = other
    · subst same
      rw [Directory.modify, List.getElem?_modify_eq] at found
      obtain ⟨service, before, rfl⟩ := Option.map_eq_some_iff.1 found
      exact (kept service before (tidy.within _ _ before)).2
    · rw [Directory.modify, List.getElem?_modify_ne _ _ same] at found
      exact tidy.within other after found

theorem Tidy.register (tidy : d.Tidy bound) (version : Version) :
    (d.register version).Tidy bound where
  honest other number listed := by
    by_cases same : other = version
    · subst same
      obtain rfl := Option.some.inj ((lookup_enter _ _ _).symm.trans listed)
      exact ⟨.new other, List.getElem?_concat_length, rfl⟩
    · obtain ⟨service, found, speaks⟩ :=
        tidy.honest other number ((lookup_enter_of_ne _ _ same).symm.trans listed)
      refine ⟨service, ?_, speaks⟩
      exact (List.getElem?_append_left (List.getElem?_eq_some_iff.1 found).1).trans found
  within number service found := by
    rw [Directory.register, List.getElem?_append] at found
    split at found
    · exact tidy.within number service found
    · rw [List.getElem?_singleton] at found
      split at found
      · cases found
        exact List.forall_mem_nil _
      · cases found

theorem lookup_filter_self {β : Type} (entries : List (Version × β)) (version : Version) :
    (entries.filter fun entry => entry.1 != version).lookup version = none := by
  rw [List.lookup_eq_none_iff]
  intro entry listed
  have differs := (List.mem_filter.1 listed).2
  simp only [bne_iff_ne] at differs ⊢
  exact fun same => differs same.symm

theorem Tidy.unregister (tidy : d.Tidy bound) (version : Version) :
    (d.unregister version).Tidy bound where
  honest other number listed := by
    by_cases same : other = version
    · subst same
      cases (lookup_filter_self _ _).symm.trans listed
    · exact tidy.honest other number ((lookup_filter_of_ne _ same).symm.trans listed)
  within := tidy.within

theorem discover_registered (d : Directory Party Party) (version : Version) :
    (d.discover version).1.registered = d.registered := by
  unfold discover
  dsimp only
  split
  · rfl
  · split <;> rfl

end Directory

end Loopback

/-! ## The client -/

namespace Network

variable {κ : Type} {allowed : State κ → Act κ → Prop} {s t : State κ} {item : Item κ}
  {rest : List (Item κ)}

/-- Services know the client alone, as far as numbers of sessions go, and the client asks none for
more. -/
structure State.Alone (s : State κ) : Prop where
  tidy : s.directory.Tidy s.client.generation
  pending : ∀ id connection cookie,
    .command (.link id connection cookie) ∈ s.agenda → cookie ≤ s.client.generation

/-- By the act, somebody else than the client registers for a death. -/
def Act.isForeignLink : Act κ → Bool
  | .link .. => true
  | _ => false

/-- An act from outside leaves the directory as tidy as it was. -/
theorem State.tidy_act {bound : Nat} (tidy : s.directory.Tidy bound) {act : Act κ}
    (own : act.isForeignLink = false) : (s.act act).directory.Tidy bound := by
  cases act with
  | event | failDiscovery => exact tidy.congr rfl rfl
  | lookUp id version =>
    exact tidy.congr (s.directory.discover_services version)
      (s.directory.discover_registered version)
  | register version => exact tidy.register version
  | unregister version => exact tidy.unregister version
  | kill number =>
    rw [State.act, kill]
    split
    · exact tidy
    · rename_i service found
      refine tidy.modify fun before same within => ?_
      obtain rfl := Option.some.inj (found.symm.trans same)
      unfold Service.kill
      split
      · exact ⟨rfl, List.forall_mem_nil _⟩
      · exact ⟨rfl, within⟩
  | failSends | setHandler => exact tidy.modify fun _ _ within => ⟨rfl, within⟩
  | link => cases own
  | deliver index =>
    rw [State.act, deliver]
    split
    · exact tidy
    · dsimp only
      split <;> exact tidy

/-- A question leaves the directory tidy if the service that answers keeps its version and the
bound. -/
theorem State.Asked.tidy {bound number : Nat}
    {f : Service Party Party → Except Error (Service Party Party × Option (Reply Party))}
    {outcome : Except Error Unit} (asked : Asked s number f outcome t)
    (tidy : s.directory.Tidy bound)
    (kept : ∀ service after reply, f service = .ok (after, reply) → service.Within bound →
      after.version = service.version ∧ after.Within bound) : t.directory.Tidy bound := by
  cases asked with
  | nobody | refused => exact tidy
  | accepted found accepted =>
    refine tidy.modify fun before same within => ?_
    obtain rfl := Option.some.inj (found.symm.trans same)
    exact kept _ _ _ accepted within

/-- At its turn, nothing on the agenda leaves the directory less tidy than it was. -/
theorem State.Alone.tidy_carryOut (alone : s.Alone) (next : s.agenda = item :: rest) :
    ((s.pop rest).carryOut item).directory.Tidy s.client.generation := by
  have tidy := alone.tidy
  cases item with
  | command wanted =>
    cases wanted with
    | link id connection cookie =>
      have bounded := alone.pending id connection cookie (next ▸ .head _)
      obtain ⟨outcome, t, asked, answered⟩ := exists_asked
        ((s.pop rest).note (.command (.link id connection cookie))) connection (.linked id)
        fun service => (service.link ⟨cookie, .client⟩).map fun after => (after, none)
      rw [carryOut, perform, answered]
      refine asked.tidy (t := t) tidy fun service after reply accepted within => ?_
      cases linked : service.link ⟨cookie, .client⟩ with
      | error why => simp [linked, Except.map] at accepted
      | ok linked' =>
        obtain ⟨-, -, rfl⟩ := Service.link_eq_ok.1 linked
        simp only [linked, Except.map, Except.ok.injEq, Prod.mk.injEq] at accepted
        obtain ⟨rfl, -⟩ := accepted
        exact ⟨rfl, List.forall_mem_append.2 ⟨within, by simpa using bounded⟩⟩
    | route id connection =>
      obtain ⟨outcome, t, asked, answered⟩ := exists_asked
        ((s.pop rest).note (.command (.route id connection))) connection (.routed id)
        fun service => .ok (service.route .client, none)
      rw [carryOut, perform, answered]
      refine asked.tidy (t := t) tidy fun service after reply accepted within => ?_
      cases accepted
      exact ⟨rfl, within⟩
    | send id connection serial op payload =>
      obtain ⟨outcome, t, asked, answered⟩ := exists_asked
        ((s.pop rest).note (.command (.send id connection serial op payload))) connection
        (.sent id) fun service => service.send serial op payload
      rw [carryOut, perform, answered]
      refine asked.tidy (t := t) tidy fun service after reply accepted within => ?_
      rw [Service.eq_receive_of_send accepted]
      exact ⟨rfl, within⟩
    | _ => exact tidy
  | notify recipient =>
    obtain ⟨cookie, observer⟩ := recipient
    cases observer <;> exact tidy
  | _ => exact tidy

/-- Only an installation asks for a registration. -/
theorem State.Does.pending {u : State κ} {raised : Event κ Nat → Prop}
    {added : List (Item κ) → Prop} (does : u.Does raised added t) (valid : u.client.Valid)
    (pending : ∀ id connection cookie,
      .command (.link id connection cookie) ∈ u.agenda → cookie ≤ u.client.generation) :
    u.client.generation ≤ t.client.generation ∧ ∀ id connection cookie,
      .command (.link id connection cookie) ∈ t.agenda → cookie ≤ t.client.generation := by
  cases does with
  | @raises v event holds client services agenda =>
    rw [← client] at valid pending ⊢
    have change := (Client.handle_move valid event).session
    refine ⟨change.generation_le, fun id connection cookie listed => ?_⟩
    rcases List.mem_append.1 listed with new | old
    · obtain ⟨wanted, asked, ⟨⟩⟩ := List.mem_map.1 new
      exact Nat.le_of_eq (change.numbered (List.mem_filterMap.2 ⟨_, asked, rfl⟩))
    · exact Nat.le_trans (pending id connection cookie (agenda ▸ old)) change.generation_le
  | adds holds plain client agenda =>
    rw [client, agenda]
    refine ⟨Nat.le_refl _, fun id connection cookie listed => ?_⟩
    rcases List.mem_append.1 listed with new | old
    · exact absurd new (not_command_of_plain plain _)
    · exact pending id connection cookie old

/-- No step within the bounds of the client brings another one near its numbers. -/
theorem State.Alone.step (alone : s.Alone) (wired : s.Wired)
    (own : ∀ act, allowed s act → act.isForeignLink = false) (step : Step allowed s t) :
    t.Alone := by
  cases step with
  | act act possible admitted =>
    obtain ⟨grown, pending⟩ := (s.does_act act).pending wired.valid alone.pending
    exact ⟨(tidy_act alone.tidy (own act admitted)).mono grown, pending⟩
  | @carryOut item rest next =>
    obtain ⟨u, client, directory, agenda, -, does⟩ := s.does_carryOut item rest
    obtain ⟨grown, pending⟩ := does.pending (client ▸ wired.valid) fun id connection cookie listed =>
      client ▸ alone.pending id connection cookie (next ▸ .tail _ (agenda ▸ listed))
    exact ⟨(alone.tidy_carryOut next).mono (client ▸ grown), pending⟩

/-- The client stays alone throughout a run in which nobody registers in its name. -/
theorem alone_of_leads {settings : Settings}
    (own : ∀ (s : State κ) act, allowed s act → act.isForeignLink = false)
    (run : Leads allowed (.initial settings) s) : s.Alone := by
  induction run with
  | refl => exact ⟨Directory.tidy_empty _, fun _ _ _ => nofun⟩
  | tail run step ih => exact ih.step ((State.wired_initial settings).leads run) (own _) step

end Network

end Baseband
