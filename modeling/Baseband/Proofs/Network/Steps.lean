import Baseband.Proofs.Network.Setup

/-!
# What steps do

A step raises one event, or puts something else on the agenda. What is on the agenda is carried out
in its order, whatever comes in between.
-/

namespace Baseband.Network

open Bench (Party)
open Loopback (Reply Service)

variable {κ : Type} {allowed : State κ → Act κ → Prop} {s t : State κ} {item : Item κ}
  {rest : List (Item κ)}

/-! ## Runs -/

theorem State.wired_initial (settings : Settings) : (initial settings : State κ).Wired where
  valid := Client.valid_ofSettings settings
  known _ cached := nomatch cached
  cookies _ _ found := nomatch found
  setUp := .done fun _ cached => nomatch cached

/-- The invariant survives each step. -/
theorem State.Wired.step (wired : s.Wired) (step : Step allowed s t) : t.Wired := by
  cases step with
  | act act possible => exact wired.act possible
  | carryOut next => exact wired.carryOut next

theorem State.Wired.leads (wired : s.Wired) (leads : Leads allowed s t) : t.Wired := by
  induction leads with
  | refl => exact wired
  | tail _ step ih => exact ih.step step

/-- With nothing left to do, a cached session has been set up in full. -/
theorem State.Wired.ready_of_idle (wired : s.Wired) (idle : s.agenda = []) {session : Session Nat}
    (cached : s.client.session = some session) : s.Armed session ∧ s.Routed session := by
  have setUp := wired.setUp
  rw [State.setups, idle, List.filter_nil] at setUp
  cases setUp with
  | done ready => exact ready session cached

/-- When nothing is left to be done, the service of the session lives and knows the client. -/
theorem State.Wired.armed_of_idle (wired : s.Wired) (idle : s.agenda = []) {session : Session Nat}
    (cached : s.client.session = some session) :
    s.directory.Has session.connection fun service =>
      service.alive = true ∧ ⟨session.generation, .client⟩ ∈ service.recipients := by
  refine (wired.ready_of_idle idle cached).1.resolve_right fun told => ?_
  rw [idle] at told
  cases told

/-! ## What a step does -/

def Item.command? : Item κ → Option (Command κ Nat)
  | .command wanted => some wanted
  | _ => none

theorem not_command_of_plain {items : List (Item κ)}
    (plain : ∀ item ∈ items, item.command? = none) (wanted : Command κ Nat) :
    .command wanted ∉ items :=
  fun listed => nomatch (plain _ listed : some wanted = none)

/-- A step raises an event, or puts something on the agenda that is no command. -/
inductive State.Does (s : State κ) (raised : Event κ Nat → Prop) (added : List (Item κ) → Prop) :
    State κ → Prop
  | raises {u : State κ} {event : Event κ Nat} (holds : raised event) (client : u.client = s.client)
      (services : u.directory.services = s.directory.services) (agenda : u.agenda = s.agenda)
      (done : u.done = s.done) : Does s raised added (u.raise event)
  | adds {t : State κ} {items : List (Item κ)} (holds : added items)
      (plain : ∀ item ∈ items, item.command? = none) (client : t.client = s.client)
      (agenda : t.agenda = items ++ s.agenda) (done : t.done = s.done) : Does s raised added t

theorem State.Does.nothing {raised : Event κ Nat → Prop} {added : List (Item κ) → Prop}
    (holds : added []) (client : t.client = s.client) (agenda : t.agenda = s.agenda)
    (done : t.done = s.done) : s.Does raised added t :=
  .adds holds (List.forall_mem_nil _) client agenda done

inductive Item.Raises : Item κ → Event κ Nat → Prop
  | linked (id : CallId) (answer : Except Error Unit) :
    Raises (.linked id answer) (.linked id answer)
  | routed (id : CallId) (answer : Except Error Unit) :
    Raises (.routed id answer) (.routed id answer)
  | sent (id : CallId) (answer : Except Error Unit) : Raises (.sent id answer) (.sent id answer)
  | proceeded (id : CallId) : Raises (.proceeded id) (.proceeded id)
  | died (cookie : Nat) : Raises (.notify ⟨cookie, .client⟩) (.died cookie)

/-- At the turn of an item one thing at most is put on the agenda, and nothing of a set-up unless
the item is part of one. -/
structure Item.Adds (item : Item κ) (items : List (Item κ)) : Prop where
  few : items.length ≤ 1
  setsUp : item.setsUp = false → ∀ other ∈ items, other.setsUp = false

theorem Item.adds_nil (item : Item κ) : item.Adds [] :=
  ⟨Nat.zero_le 1, fun _ => nofun⟩

theorem Item.adds_singleton {item other : Item κ}
    (setsUp : item.setsUp = false → other.setsUp = false) : item.Adds [other] :=
  ⟨Nat.le_refl 1, fun plain _ listed => List.mem_singleton.1 listed ▸ setsUp plain⟩

theorem Item.Adds.eq_singleton {items : List (Item κ)} {other : Item κ} (adds : item.Adds items)
    (listed : other ∈ items) : items = [other] := by
  obtain ⟨only, rfl⟩ := List.length_eq_one_iff.1
    (Nat.le_antisymm adds.few (List.length_pos_of_mem listed))
  rw [List.mem_singleton.1 listed]

theorem State.does_ask (s : State κ) {raised : Event κ Nat → Prop} {item : Item κ} (number : Nat)
    {answer : Except Error Unit → Item κ}
    (f : Service Party Party → Except Error (Service Party Party × Option (Reply Party)))
    (plain : ∀ outcome, (answer outcome).command? = none)
    (setsUp : item.setsUp = false → ∀ outcome, (answer outcome).setsUp = false) :
    s.Does raised item.Adds (s.ask number answer f) := by
  obtain ⟨outcome, t, asked, answered⟩ := s.exists_asked number answer f
  rw [answered]
  have one : ∀ item ∈ [answer outcome], item.command? = none := by
    intro item listed
    obtain rfl := List.mem_singleton.1 listed
    exact plain outcome
  cases asked <;>
    exact .adds (Item.adds_singleton fun foreign => setsUp foreign _) one rfl rfl rfl

/-- What the parties do at a command is put on the agenda and raises nothing at once. -/
theorem State.does_perform (s : State κ) {raised : Event κ Nat → Prop} (wanted : Command κ Nat) :
    s.Does raised (Item.command wanted).Adds (s.perform wanted) := by
  cases wanted with
  | link id connection cookie => exact s.does_ask connection _ (fun _ => rfl) nofun
  | route id connection =>
    exact s.does_ask connection (fun service => .ok (service.route .client, Option.none))
      (fun _ => rfl) nofun
  | send id connection => exact s.does_ask connection _ (fun _ => rfl) fun _ _ => rfl
  | complete | proceed =>
    exact .adds (Item.adds_singleton fun _ => rfl) (by simp [Item.command?]) rfl rfl rfl
  | discard | discover | rest | letIn | finish | breakOff =>
    exact .nothing (Item.adds_nil _) rfl rfl rfl

/-- At its turn, a thing is taken off the agenda, and a command is carried out with it. -/
theorem State.does_carryOut (s : State κ) (item : Item κ) (rest : List (Item κ)) :
    ∃ u : State κ, u.client = s.client ∧ u.directory = s.directory ∧ u.agenda = rest ∧
      u.done = item.command?.toList ++ s.done ∧
      u.Does item.Raises item.Adds ((s.pop rest).carryOut item) := by
  cases item with
  | command wanted =>
    exact ⟨(s.pop rest).note (.command wanted), rfl, rfl, rfl, rfl, does_perform _ wanted⟩
  | linked id answer =>
    exact ⟨s.pop rest, rfl, rfl, rfl, rfl, .raises (.linked id answer) rfl rfl rfl rfl⟩
  | routed id answer =>
    exact ⟨s.pop rest, rfl, rfl, rfl, rfl, .raises (.routed id answer) rfl rfl rfl rfl⟩
  | sent id answer =>
    exact ⟨s.pop rest, rfl, rfl, rfl, rfl, .raises (.sent id answer) rfl rfl rfl rfl⟩
  | proceeded id =>
    exact ⟨s.pop rest, rfl, rfl, rfl, rfl, .raises (.proceeded id) rfl rfl rfl rfl⟩
  | running => exact ⟨s.pop rest, rfl, rfl, rfl, rfl, .nothing (Item.adds_nil _) rfl rfl rfl⟩
  | notify recipient =>
    obtain ⟨cookie, observer⟩ := recipient
    refine ⟨s.pop rest, rfl, rfl, rfl, rfl, ?_⟩
    cases observer with
    | client => exact .raises (.died cookie) rfl rfl rfl rfl
    | recorder => exact .nothing (Item.adds_nil _) rfl rfl rfl

/-- What comes from outside raises one event, and puts nothing of a set-up on the agenda. -/
theorem State.does_act (s : State κ) (act : Act κ) :
    s.Does (fun event => act.isSynchronous = true → event.isSynchronous = true)
      (fun items => ∀ item ∈ items, item.setsUp = false) (s.act act) := by
  cases act with
  | event raised => exact .raises id rfl rfl rfl rfl
  | lookUp id version =>
    exact .raises (u := { s with directory := (s.directory.discover version).1 })
      (fun synchronous => absurd synchronous Bool.false_ne_true) rfl
      (s.directory.discover_services version) rfl rfl
  | register | unregister | failDiscovery | failSends | setHandler | link =>
    exact .nothing (List.forall_mem_nil _) rfl rfl rfl
  | kill number =>
    rw [State.act, kill]
    split
    · exact .nothing (List.forall_mem_nil _) rfl rfl rfl
    · rename_i service _
      have notices : ∀ item ∈ service.kill.2.map (Item.notify (κ := κ)),
          ∃ recipient, item = .notify recipient := by
        intro item listed
        obtain ⟨recipient, -, rfl⟩ := List.mem_map.1 listed
        exact ⟨recipient, rfl⟩
      refine .adds (fun item listed => ?_) (fun item listed => ?_) rfl rfl rfl
      all_goals
        obtain ⟨recipient, rfl⟩ := notices item listed
        rfl
  | deliver index =>
    rw [State.act, deliver]
    split
    · exact .nothing (List.forall_mem_nil _) rfl rfl rfl
    · dsimp only
      split
      · exact .raises (u := { s with replies := s.replies.eraseIdx index })
          (fun synchronous => absurd synchronous Bool.false_ne_true) rfl rfl rfl rfl
      · exact .nothing (List.forall_mem_nil _) rfl rfl rfl

/-! ## Requests are not confused -/

/-- The table stays sound whatever is done. -/
theorem State.Does.table {u : State κ} {raised : Event κ Nat → Prop} {added : List (Item κ) → Prop}
    (does : u.Does raised added t) (valid : u.client.Valid) (sound : u.client.outstanding.Sound)
    (apart : u.client.outstanding.AgesApart) :
    t.client.outstanding.Sound ∧ t.client.outstanding.AgesApart := by
  cases does with
  | @raises v event _ client =>
    rw [← client] at valid sound apart
    have change := (Client.handle_move valid event).table
    exact ⟨change.sound sound, change.agesApart sound apart⟩
  | adds _ _ client =>
    rw [client]
    exact ⟨sound, apart⟩

/-- Along any run, requests are outstanding under their own serials and in the order of their
submission. -/
theorem table_of_leads {settings : Settings} (run : Leads allowed (.initial settings) s) :
    s.client.outstanding.Sound ∧ s.client.outstanding.AgesApart := by
  induction run with
  | refl => exact ⟨Outstanding.sound_empty, Outstanding.agesApart_empty⟩
  | @tail u v run step ih =>
    obtain ⟨sound, apart⟩ := ih
    have valid := ((State.wired_initial settings).leads run).valid
    cases step with
    | act act => exact (u.does_act act).table valid sound apart
    | @carryOut item rest =>
      obtain ⟨w, client, -, -, -, does⟩ := u.does_carryOut item rest
      rw [← client] at valid sound apart
      exact does.table valid sound apart

/-! ## The agenda is worked off -/

/-- Where nothing can come in between, only what has its turn goes on. -/
theorem Leads.of_barred (leads : Leads allowed s t) (idle : t.agenda = [])
    (next : s.agenda = item :: rest) (barred : ∀ act, ¬allowed s act) :
    Leads allowed ((s.pop rest).carryOut item) t := by
  cases leads.cases_head with
  | inl same =>
    subst same
    rw [idle] at next
    cases next
  | inr first =>
    obtain ⟨u, step, leads⟩ := first
    cases step with
    | act act _ admitted => exact absurd admitted (barred act)
    | carryOut next' =>
      cases next.symm.trans next'
      exact leads

def State.due (s : State κ) : List (Command κ Nat) :=
  s.agenda.filterMap Item.command?

theorem filterMap_command (commands : List (Command κ Nat)) :
    (commands.map Item.command).filterMap Item.command? = commands := by
  rw [List.filterMap_map]
  exact List.filterMap_some

/-- Whatever comes in between, all commands on the agenda are carried out in their order. -/
theorem Leads.carries_out (leads : Leads allowed s t) (idle : t.agenda = []) :
    ∃ since, t.done = since ++ s.done ∧ s.due.Sublist since.reverse := by
  have grows {u v : State κ} {raised : Event κ Nat → Prop} {added : List (Item κ) → Prop}
      (does : u.Does raised added v) :
      v.done = u.done ∧ ∃ more, v.due = more ++ u.due := by
    cases does with
    | raises holds client services agenda done =>
      exact ⟨done, _, by rw [State.due, State.raise, List.filterMap_append, agenda, State.due]⟩
    | adds _ _ client agenda done =>
      exact ⟨done, _, by rw [State.due, agenda, List.filterMap_append, State.due]⟩
  induction leads using Relation.ReflTransGen.head_induction_on with
  | refl => exact ⟨[], rfl, by rw [State.due, idle]; exact .slnil⟩
  | @head s _ step leads ih =>
    obtain ⟨since, done, sublist⟩ := ih
    cases step with
    | act act =>
      obtain ⟨same, more, due⟩ := grows (State.does_act _ act)
      rw [same] at done
      rw [due] at sublist
      exact ⟨since, done, (List.sublist_append_right _ _).trans sublist⟩
    | @carryOut item rest next =>
      obtain ⟨u, -, -, agenda, done', does⟩ := s.does_carryOut item rest
      obtain ⟨same, more, due⟩ := grows does
      rw [same, done'] at done
      rw [due] at sublist
      refine ⟨since ++ item.command?.toList, by rw [done, List.append_assoc], ?_⟩
      have left : u.due.Sublist since.reverse := (List.sublist_append_right _ _).trans sublist
      have first : s.due = item.command?.toList ++ u.due := by
        rw [State.due, State.due, next, agenda]
        cases command : item.command? <;> simp [command]
      rw [first, List.reverse_append]
      have single : item.command?.toList.reverse = item.command?.toList := by
        cases item.command? <;> rfl
      rw [single]
      exact left.append_left _

end Baseband.Network
