import Baseband.Proofs.Network.Steps

/-!
# The death of the connected service is not missed

Whenever nothing is left to be done, the service of the cached session lives and knows the client as
the one observer of that session. So a death ends the session, whomever else the service has to
tell, and fails every request. And no call returns a session over a dead service, unless something
gets in between its turn and that of others.
-/

namespace Baseband.Network

open Bench (Party)
open Loopback (Directory Recipient Reply Service)

variable {κ : Type} {allowed : State κ → Act κ → Prop} {s t : State κ} {item : Item κ}
  {rest : List (Item κ)}

/-! ## A service is killed -/

def FindsNothing (event : Event κ Nat) : Prop :=
  ∀ id answer, event ≠ .found id answer

theorem Item.Raises.findsNothing {event : Event κ Nat} (raises : item.Raises event) :
    FindsNothing event := by
  rintro id answer rfl
  cases raises

theorem findsNothing_of_synchronous {event : Event κ Nat}
    (synchronous : event.isSynchronous = true) : FindsNothing event := by
  rintro id answer rfl
  cases synchronous

/-- Without a session, what is done about a death or a completion finds none. -/
theorem State.Does.session {u : State κ} {raised : Event κ Nat → Prop}
    {added : List (Item κ) → Prop} (does : u.Does raised added t) (valid : u.client.Valid)
    (finds : ∀ event, raised event → FindsNothing event)
    (none : u.client.session = none) : t.client.session = Option.none := by
  cases does with
  | @raises v event holds client =>
    have arranges := (Client.handle_move valid event).arranges
    rw [← client] at arranges none
    change (v.client.handle event).1.session = Option.none
    generalize (v.client.handle event).2 = asked at arranges
    cases arranges with
    | nothing _ session => exact session.elim (·.trans none) id
    | link found => exact absurd found (finds event holds _ _)
    | route _ _ kept => exact kept.trans none
  | adds _ _ client => rwa [client]

/-- While nothing comes but from completions, no session is installed. -/
theorem State.Wired.session_none (wired : s.Wired) (leads : Leads ByCompletions s t)
    (none : s.client.session = none) : t.client.session = Option.none := by
  induction leads with
  | refl => exact none
  | @tail u v leads step ih =>
    have valid := (wired.leads leads).valid
    cases step with
    | act act possible allowed =>
      exact (u.does_act act).session valid
        (fun _ synchronous => findsNothing_of_synchronous (synchronous allowed.2)) ih
    | @carryOut item rest next =>
      obtain ⟨w, client, -, -, -, does⟩ := u.does_carryOut item rest
      rw [← client] at valid ih
      exact does.session valid (fun _ => Item.Raises.findsNothing) ih

/-- While something else than a completion has its turn, only that goes on. -/
theorem leads_of_taken (leads : Leads ByCompletions s t) (idle : t.agenda = [])
    (next : s.agenda = item :: rest) (differs : item ≠ .running) :
    Leads ByCompletions ((s.pop rest).carryOut item) t := by
  refine leads.of_barred idle next ?_
  rintro act ⟨⟨others, running⟩, -⟩
  rw [running] at next
  cases next
  exact differs rfl

/-- News under another cookie than that of the session changes nothing. -/
theorem tell_of_other {recipient : Recipient Party} {session : Session Nat}
    (cached : s.client.session = some session) (other : recipient.cookie ≠ session.generation) :
    (s.tell recipient).client = s.client ∧ (s.tell recipient).agenda = s.agenda ∧
      (s.tell recipient).done = s.done := by
  obtain ⟨cookie, observer⟩ := recipient
  cases observer with
  | recorder => exact ⟨rfl, rfl, rfl⟩
  | client =>
    have superseded : s.client.isCurrent cookie = false := by
      rw [Bool.eq_false_iff, ne_eq, Client.isCurrent_iff]
      rintro ⟨session', cached', rfl⟩
      cases cached.symm.trans cached'
      exact other rfl
    have ignored : s.client.handle (.died cookie) = (s.client, []) :=
      Client.teardown_of_not_current superseded
    refine ⟨congrArg Prod.fst ignored, ?_, rfl⟩
    change (s.client.handle (.died cookie)).2.map Item.command ++ s.agenda = s.agenda
    rw [ignored]
    rfl

/-- The news of the death of the session's service comes after news under other cookies, and loses
the session with all its requests. -/
theorem lost_of_told {before : List (Recipient Party)} {session : Session Nat}
    (others : ∀ recipient ∈ before, recipient.cookie ≠ session.generation)
    (agenda : s.agenda = before.map .notify ++ .notify ⟨session.generation, .client⟩ :: rest)
    (cached : s.client.session = some session) (leads : Leads ByCompletions s t)
    (idle : t.agenda = []) :
    ∃ u : State κ, Leads ByCompletions s u ∧ Leads ByCompletions u t ∧
      u.client = s.client.lost ∧ u.done = s.done ∧
      ∃ more, u.due = Client.failAll s.client.outstanding.toList .unavailable ++ more := by
  induction before generalizing s with
  | nil =>
    have lost : s.client.handle (.died session.generation) =
        (s.client.lost, Client.failAll s.client.outstanding.toList .unavailable) :=
      Client.teardown_of_current (Client.isCurrent_iff.2 ⟨session, cached, rfl⟩)
    refine ⟨_, .single (.carryOut agenda), leads_of_taken leads idle agenda nofun,
      congrArg Prod.fst lost, rfl, rest.filterMap Item.command?, ?_⟩
    change ((s.client.handle (.died session.generation)).2.map Item.command ++ rest).filterMap _ = _
    rw [lost, List.filterMap_append, filterMap_command]
  | cons recipient before ih =>
    have leads := leads_of_taken leads idle agenda nofun
    have step : Step ByCompletions s _ := .carryOut agenda
    obtain ⟨client, agenda, done⟩ := tell_of_other
      (s := s.pop (before.map .notify ++ .notify ⟨session.generation, .client⟩ :: rest)) cached
      (others recipient (.head _))
    change Leads ByCompletions (State.tell _ recipient) t at leads
    change Step ByCompletions s (State.tell _ recipient) at step
    generalize State.tell _ recipient = told at leads step client agenda done
    obtain ⟨u, first, leads, same, done', due⟩ := ih (fun _ listed => others _ (.tail _ listed))
      agenda (client ▸ cached) leads
    rw [client] at same due
    exact ⟨u, .head step first, leads, same, done'.trans done, due⟩

/-- The recipients of a cookie, if no two recipients have one. -/
theorem filter_cookie {recipients : List (Recipient Party)} {recipient : Recipient Party}
    (apart : (recipients.map (·.cookie)).Nodup) (known : recipient ∈ recipients) :
    recipients.filter (fun other => other.cookie = recipient.cookie) = [recipient] := by
  obtain ⟨before, after, rfl⟩ := List.append_of_mem known
  rw [List.map_append, List.map_cons, List.nodup_middle, List.nodup_cons] at apart
  have absent (others : List (Recipient Party)) (elsewhere : others ⊆ before ++ after) :
      others.filter (fun other => other.cookie = recipient.cookie) = [] := by
    refine List.filter_eq_nil_iff.2 fun other listed same => apart.1 ?_
    rw [← List.map_append, ← of_decide_eq_true same]
    exact List.mem_map_of_mem (elsewhere listed)
  rw [List.filter_append, List.filter_cons_of_pos (by simp),
    absent before (List.subset_append_left _ _), absent after (List.subset_append_right _ _)]
  rfl

/-- A service that is killed costs its client the session and all requests. -/
theorem State.Wired.loses (wired : s.Wired) (idle : s.agenda = []) {session : Session Nat}
    (cached : s.client.session = some session)
    (leads : Leads ByCompletions (s.kill session.connection) t) (done : t.agenda = []) :
    t.client.session = none ∧ ∃ since, t.done = since ++ s.done ∧
      (Client.failAll s.client.outstanding.toList .unavailable).Sublist since.reverse := by
  obtain ⟨service, found, alive, knows⟩ := wired.armed_of_idle idle cached
  obtain ⟨before, after, split⟩ := List.append_of_mem knows
  have others : ∀ recipient ∈ before, recipient.cookie ≠ session.generation := by
    have apart := wired.cookies _ _ found
    rw [split, List.map_append, List.map_cons, List.nodup_middle, List.nodup_cons] at apart
    intro recipient listed same
    have known : recipient.cookie ∈ (before ++ after).map (·.cookie) :=
      List.mem_map_of_mem (List.mem_append_left _ listed)
    rw [same, List.map_append] at known
    exact apart.1 known
  have killed := wired.kill session.connection
  have agenda : (s.kill session.connection).agenda =
      before.map .notify ++ .notify ⟨session.generation, .client⟩ :: after.map .notify := by
    rw [State.kill, found]
    simp [State.push, State.modify, idle, Service.kill, alive, split]
  have client : (s.kill session.connection).client = s.client ∧
      (s.kill session.connection).done = s.done := by
    rw [State.kill, found]
    exact ⟨rfl, rfl⟩
  obtain ⟨u, first, later, lost, same, more, due⟩ :=
    lost_of_told others agenda (client.1.symm ▸ cached) leads done
  refine ⟨(killed.leads first).session_none later (congrArg Client.session lost), ?_⟩
  obtain ⟨since, carriedOut, inOrder⟩ := later.carries_out done
  refine ⟨since, by rw [carriedOut, same, client.2], ?_⟩
  rw [due, client.1] at inOrder
  exact (List.sublist_append_left _ _).trans inOrder

/-- Completions at the head of the agenda can be carried out one after another. -/
theorem leads_past_completions {requests : List (Request κ)} {why : Error}
    (agenda : s.agenda = (Client.failAll requests why).map .command ++ rest) :
    ∃ t, Leads allowed s t ∧ t.agenda = rest := by
  induction requests generalizing s with
  | nil => exact ⟨s, .refl, agenda⟩
  | cons request requests ih =>
    have begun : Step allowed s _ := .carryOut agenda
    obtain ⟨t, leads, left⟩ := ih (s := State.pop _ _) rfl
    exact ⟨t, .head begun (.head (.carryOut rfl) leads), left⟩

theorem leads_past_news {recipients : List (Recipient Party)}
    (agenda : s.agenda = recipients.map .notify) : ∃ t, Leads allowed s t ∧ t.agenda = [] := by
  induction recipients generalizing s with
  | nil => exact ⟨s, .refl, agenda⟩
  | cons recipient recipients ih =>
    have told : Step allowed s _ := .carryOut agenda
    obtain ⟨cookie, observer⟩ := recipient
    cases observer with
    | recorder =>
      obtain ⟨t, leads, idle⟩ := ih (s := s.pop (recipients.map .notify)) rfl
      exact ⟨t, .head told leads, idle⟩
    | client =>
      have failed : ∃ requests, (s.client.handle (.died cookie)).2 =
          Client.failAll requests .unavailable := by
        change ∃ requests, (s.client.teardown cookie).2 = _
        unfold Client.teardown
        split
        · exact ⟨_, rfl⟩
        · exact ⟨[], rfl⟩
      obtain ⟨requests, failed⟩ := failed
      have agenda : ((s.pop (recipients.map .notify)).raise (.died cookie)).agenda =
          (Client.failAll requests .unavailable).map .command ++ recipients.map .notify := by
        rw [← failed]
        rfl
      obtain ⟨u, leads, left⟩ : ∃ u, Leads allowed _ u ∧ u.agenda = recipients.map .notify :=
        leads_past_completions agenda
      obtain ⟨t, later, idle⟩ := ih left
      exact ⟨t, .head told (leads.trans later), idle⟩

/-- The death of a service comes to an end. -/
theorem kill_ends (idle : s.agenda = []) (number : Nat) :
    ∃ t, Leads allowed (s.kill number) t ∧ t.agenda = [] := by
  unfold State.kill
  split
  · exact ⟨s, .refl, idle⟩
  · rename_i service _
    have news : ((s.modify number fun _ => service.kill.1).push
        (service.kill.2.map .notify)).agenda = service.kill.2.map .notify := by
      rw [State.push, State.modify, idle, List.append_nil]
    exact leads_past_news news

/-! ## A call returns a session -/

/-- When a service is about to answer to the client, it lives, unless the news of its death is on
the way. -/
theorem State.Wired.alive_of_routed (wired : s.Wired) {id : CallId} {answer : Except Error Unit}
    (agenda : s.agenda = [.routed id answer]) {session : Session Nat}
    (cached : s.client.session = some session) :
    s.directory.Has session.connection fun service => service.alive = true := by
  have setUp := wired.setUp
  rw [State.setups, agenda, List.filter_cons_of_pos rfl, List.filter_nil] at setUp
  cases setUp with
  | routed stage ready =>
    have knows : s.client.session = none ∨ s.client.session = some _ := wired.valid.knowsOf stage
    rw [cached] at knows
    obtain rfl := Option.some.inj (knows.resolve_left (Option.some_ne_none _))
    rcases (ready cached).1 with known | told
    · exact known.mono fun _ => And.left
    · rw [agenda] at told
      cases List.mem_singleton.1 told

/-- The item lets a call go on later, or is its return. -/
def Item.isReturn : Item κ → Bool
  | .command (.letIn _) | .command (.finish ..) => true
  | _ => false

/-- The return of a call, or the way to it, is no part of a set-up and asks nothing of a service. -/
theorem Item.settled_of_isReturn (isReturn : item.isReturn = true) (s : State κ) :
    item.setsUp = false ∧ (s.carryOut item).agenda = s.agenda ∧
      (s.carryOut item).directory = s.directory := by
  unfold Item.isReturn at isReturn
  split at isReturn
  · exact ⟨rfl, rfl, rfl⟩
  · exact ⟨rfl, rfl, rfl⟩
  · cases isReturn

/-- What holds while one thing is done after the other: a question or answer of a set-up is the only
thing on the agenda, and while a session is on its way back to a call, nothing is on the agenda that
could end it. -/
structure State.Calm (s : State κ) : Prop where
  alone : ∀ item ∈ s.agenda, item.setsUp = true → s.agenda = [item]
  returning : ∀ id session, .command (.finish id (.session (.ok session))) ∈ s.agenda →
    s.directory.Has session.connection (fun service => service.alive = true) ∧
      ∀ item ∈ s.agenda, item.isReturn = true

structure Harmless (items : List (Item κ)) : Prop where
  setsUp : ∀ item ∈ items, item.setsUp = false
  returns : ∀ id session, .command (.finish id (.session (.ok session))) ∉ items

/-- What is no command returns no session. -/
theorem harmless_of_plain {items : List (Item κ)} (setsUp : ∀ item ∈ items, item.setsUp = false)
    (plain : ∀ item ∈ items, item.command? = none) : Harmless items :=
  ⟨setsUp, fun _ _ => not_command_of_plain plain _⟩

theorem Harmless.append {items others : List (Item κ)} (harmless : Harmless items)
    (behind : Harmless others) : Harmless (items ++ others) where
  setsUp item listed :=
    (List.mem_append.1 listed).elim (harmless.setsUp item) (behind.setsUp item)
  returns id session listed :=
    (List.mem_append.1 listed).elim (harmless.returns id session) (behind.returns id session)

/-- A state with nothing but harmless things to do is calm. -/
theorem Harmless.calm (harmless : Harmless s.agenda) : s.Calm where
  alone item listed setsUp := nomatch (harmless.setsUp item listed).symm.trans setsUp
  returning id session listed := absurd listed (harmless.returns id session)

/-- What an event leaves if nothing else is on the agenda. -/
theorem State.calm_raise (valid : s.client.Valid) (idle : s.agenda = []) {event : Event κ Nat}
    (alive : ∀ id session, .finish id (.session (.ok session)) ∈ (s.client.handle event).2 →
      s.directory.Has session.connection fun service => service.alive = true) :
    (s.raise event).Calm := by
  have move := Client.handle_move valid event
  have agenda : (s.raise event).agenda = (s.client.handle event).2.map .command := by
    rw [State.raise, idle, List.append_nil]
  constructor
  · intro item listed setsUp
    rw [agenda] at listed ⊢
    have arranges := move.arranges
    generalize (s.client.handle event).2 = commands at arranges listed
    obtain ⟨wanted, among, rfl⟩ := List.mem_map.1 listed
    cases arranges with
    | nothing plain => exact absurd setsUp (List.filter_eq_nil_iff.1 plain wanted among)
    | link | route =>
      obtain rfl := List.mem_singleton.1 among
      rfl
  · intro id session listed
    rw [agenda] at listed ⊢
    obtain ⟨_, returned, ⟨⟩⟩ := List.mem_map.1 listed
    obtain ⟨-, next, commands⟩ := move.acquires returned
    refine ⟨alive id session returned, fun item listed => ?_⟩
    rw [commands, List.map_append] at listed
    rcases List.mem_append.1 listed with letIn | finish
    · cases next with
      | none => cases letIn
      | some =>
        obtain rfl := List.mem_singleton.1 letIn
        rfl
    · obtain rfl := List.mem_singleton.1 finish
      rfl

/-- An event that neither begins or continues a set-up nor lets a call return a session leaves
nothing of the kind to be done. -/
theorem Harmless.raise (harmless : Harmless s.agenda) (valid : s.client.Valid)
    {event : Event κ Nat} (finds : FindsNothing event)
    (linked : ∀ id answer, event ≠ .linked id answer)
    (acquires : Command.collect Command.acquired? (s.client.handle event).2 = []) :
    Harmless (s.raise event).agenda := by
  refine .append ⟨fun item listed => ?_, fun id session listed => ?_⟩ harmless
  · obtain ⟨wanted, among, rfl⟩ := List.mem_map.1 listed
    have arranges := (Client.handle_move valid event).arranges
    generalize (s.client.handle event).2 = commands at arranges among
    cases arranges with
    | nothing plain => simpa using List.filter_eq_nil_iff.1 plain wanted among
    | link found => exact absurd found (finds _ _)
    | route answered => exact absurd answered (linked _ _)
  · obtain ⟨_, returned, ⟨⟩⟩ := List.mem_map.1 listed
    have acquired := Command.mem_collect_acquired.2 ⟨id, returned⟩
    rw [acquires] at acquired
    cases acquired

/-- If the next thing is not part of a set-up, then nothing else on the agenda is. -/
theorem State.Calm.setsUp_eq_false (calm : s.Calm) (next : s.agenda = item :: rest)
    (foreign : item.setsUp = false) : ∀ other ∈ s.agenda, other.setsUp = false := by
  intro other listed
  by_contra setsUp
  have alone := calm.alone other listed (Bool.not_eq_false _ ▸ setsUp)
  rw [next] at alone
  obtain ⟨rfl, -⟩ := List.cons.inj alone
  exact setsUp foreign

/-- While a completion runs, nothing can be lost. -/
theorem State.Calm.harmless_of_running (calm : s.Calm) (running : s.agenda = .running :: rest) :
    Harmless s.agenda := by
  refine ⟨calm.setsUp_eq_false running rfl, fun id session listed => ?_⟩
  have first : .running ∈ s.agenda := running ▸ .head _
  exact Bool.false_ne_true ((calm.returning id session listed).2 _ first)

/-- What comes in its turn leaves the state calm. -/
theorem State.Calm.act (calm : s.Calm) (wired : s.Wired) {act : Act κ} (turn : InTurn s act) :
    (s.act act).Calm := by
  have does := s.does_act act
  generalize s.act act = t at does
  rcases turn with idle | ⟨⟨rest, running⟩, synchronous⟩
  · cases does with
    | @raises u event holds client services agenda =>
      have valid : u.client.Valid := client ▸ wired.valid
      refine calm_raise valid (agenda.trans idle) fun id session returned => ?_
      have cached := ((Client.handle_move valid event).acquires returned).1
      obtain ⟨service, found, alive, -⟩ := wired.armed_of_idle idle (client ▸ cached)
      exact ⟨service, services ▸ found, alive⟩
    | adds setsUp plain client agenda =>
      rw [idle, List.append_nil] at agenda
      exact Harmless.calm (agenda ▸ harmless_of_plain setsUp plain)
  · have harmless := calm.harmless_of_running running
    cases does with
    | @raises u event holds client services agenda =>
      rw [← agenda] at harmless
      refine (harmless.raise (client ▸ wired.valid)
        (findsNothing_of_synchronous (holds synchronous)) ?_
        (Client.acquired_of_synchronous _ (holds synchronous))).calm
      rintro id answer rfl
      cases holds synchronous
    | adds setsUp plain client agenda =>
      exact Harmless.calm (agenda ▸ (harmless_of_plain setsUp plain).append harmless)

/-- A question or answer of a set-up stands alone on the agenda, and so does what follows from
it. -/
theorem State.Wired.calm_of_setsUp (wired : s.Wired) (next : s.agenda = [item])
    (part : item.setsUp = true) : ((s.pop []).carryOut item).Calm := by
  obtain ⟨u, client, directory, agenda, -, does⟩ := s.does_carryOut item []
  have valid : u.client.Valid := client ▸ wired.valid
  generalize (s.pop []).carryOut item = t at does
  cases does with
  | @raises v event holds client' services agenda' =>
    refine calm_raise (client' ▸ valid) (agenda'.trans agenda) fun id session returned => ?_
    have acquired := Command.mem_collect_acquired.2 ⟨id, returned⟩
    cases holds with
    | routed other answer =>
      have cached := ((Client.handle_move (client' ▸ valid) _).acquires returned).1
      rw [client', client] at cached
      obtain ⟨service, found, alive⟩ := wired.alive_of_routed next cached
      exact ⟨service, services ▸ directory ▸ found, alive⟩
    | linked =>
      rw [Client.acquired_of_linked] at acquired
      cases acquired
    | sent | proceeded | died => cases part
  | adds few plain client' agenda' =>
    rw [agenda, List.append_nil] at agenda'
    refine ⟨fun other listed _ => ?_, fun id session listed => ?_⟩
    · rw [agenda'] at listed ⊢
      exact few.eq_singleton listed
    · exact (not_command_of_plain plain _ (agenda' ▸ listed)).elim

/-- While a session is on its way back to a call, nothing is put on the agenda. -/
theorem State.Calm.carryOut_of_returning (calm : s.Calm) (next : s.agenda = item :: rest)
    {id : CallId} {session : Session Nat}
    (returned : .command (.finish id (.session (.ok session))) ∈ rest) :
    ((s.pop rest).carryOut item).Calm := by
  have isReturn := (calm.returning id session (next ▸ .tail _ returned)).2
  obtain ⟨foreign, agenda, directory⟩ :=
    Item.settled_of_isReturn (isReturn item (next ▸ .head _)) (s.pop rest)
  refine ⟨fun other listed part => ?_, fun id session listed => ?_⟩
  · rw [agenda] at listed
    have setsUp := calm.setsUp_eq_false next foreign other (next ▸ .tail _ listed)
    exact nomatch setsUp.symm.trans part
  · rw [agenda] at listed ⊢
    rw [directory]
    exact ⟨(calm.returning id session (next ▸ .tail _ listed)).1, fun other listed =>
      isReturn other (next ▸ .tail _ listed)⟩

/-- Where nothing can be lost, a thing that is not part of a set-up leaves it so. -/
theorem Harmless.carryOut (harmless : Harmless rest) (valid : s.client.Valid)
    (foreign : item.setsUp = false) : Harmless ((s.pop rest).carryOut item).agenda := by
  obtain ⟨u, client, -, agenda, -, does⟩ := s.does_carryOut item rest
  generalize (s.pop rest).carryOut item = t at does
  rw [← agenda] at harmless
  rw [← client] at valid
  cases does with
  | @raises v event holds client services agenda =>
    rw [← agenda] at harmless
    refine harmless.raise (client ▸ valid) holds.findsNothing ?_ ?_
    · rintro id answer rfl
      cases holds
      cases foreign
    · cases holds with
      | linked | routed => cases foreign
      | sent => exact Client.acquired_of_sent _ _ _
      | proceeded => exact Client.acquired_of_proceeded _ _
      | died => exact Client.acquired_of_synchronous _ rfl
  | adds adds plain client agenda =>
    exact agenda ▸ (harmless_of_plain (adds.setsUp foreign) plain).append harmless

/-- Doing the next thing leaves the state calm. -/
theorem State.Calm.carryOut (calm : s.Calm) (wired : s.Wired) (next : s.agenda = item :: rest) :
    ((s.pop rest).carryOut item).Calm := by
  cases part : item.setsUp with
  | true =>
    have alone := calm.alone item (next ▸ .head _) part
    rw [next] at alone
    obtain ⟨-, rfl⟩ := List.cons.inj alone
    exact wired.calm_of_setsUp next part
  | false =>
    by_cases returns : ∃ id session, .command (.finish id (.session (.ok session))) ∈ rest
    · obtain ⟨id, session, returned⟩ := returns
      exact calm.carryOut_of_returning next returned
    · simp only [not_exists] at returns
      have setsUp (other : Item κ) (listed : other ∈ rest) : other.setsUp = false :=
        calm.setsUp_eq_false next part other (next ▸ .tail _ listed)
      exact (Harmless.carryOut ⟨setsUp, returns⟩ wired.valid part).calm

/-- A run in which everything comes in its turn is calm throughout. -/
theorem State.calm_of_leads (settings : Settings)
    (turns : ∀ (s : State κ) act, allowed s act → InTurn s act)
    (run : Leads allowed (.initial settings) s) : s.Calm := by
  induction run with
  | refl => exact Harmless.calm ⟨nofun, fun _ _ => nofun⟩
  | tail run step ih =>
    have wired := (wired_initial settings).leads run
    cases step with
    | act act _ admitted => exact ih.act wired (turns _ act admitted)
    | carryOut next => exact ih.carryOut wired next

/-! ## No death is missed -/

/-- Whatever happens to a client and its services, whenever nothing is left to be done, the service
of the cached session lives and knows exactly one recipient under the number of the session, which
is the client. So when that service is killed then, the session is lost by the time nothing is left
to be done, and this time comes; and all requests that were outstanding have failed in their order.
As long as one thing is done after the other, a session is returned to a call only while its service
lives. -/
theorem death_not_missed (settings : Settings) (run : Leads allowed (.initial settings) s) :
    (s.agenda = [] → ∀ session, s.client.session = some session →
      (∃ service, s.directory.services[session.connection]? = some service ∧
        service.version = session.version ∧ service.alive = true ∧
        service.recipients.filter (fun recipient => recipient.cookie = session.generation) =
          [⟨session.generation, .client⟩]) ∧
      (∃ t, Leads ByCompletions (s.act (.kill session.connection)) t ∧ t.agenda = []) ∧
      ∀ t, Leads ByCompletions (s.act (.kill session.connection)) t → t.agenda = [] →
        t.client.session = none ∧ ∃ since, t.done = since ++ s.done ∧
          (s.client.outstanding.toList.map fun request =>
            .complete request.completion (.error .unavailable)).Sublist since.reverse) ∧
    ((∀ (s : State κ) act, allowed s act → InTurn s act) → ∀ id session rest,
      s.agenda = .command (.finish id (.session (.ok session))) :: rest →
        s.directory.Has session.connection fun service => service.alive = true) := by
  have wired := (State.wired_initial settings).leads run
  refine ⟨fun idle session cached => ⟨?_, kill_ends idle _, fun t leads => ?_⟩, ?_⟩
  · obtain ⟨service, found, alive, knows⟩ := wired.armed_of_idle idle cached
    obtain ⟨service', found', speaks⟩ := wired.known session cached
    obtain rfl := Option.some.inj (found.symm.trans found')
    exact ⟨service, found, speaks, alive, filter_cookie (wired.cookies _ _ found) knows⟩
  · exact wired.loses idle cached leads
  · intro turns id session rest next
    exact ((State.calm_of_leads settings turns run).returning id session (next ▸ .head _)).1

/-- A call acquires a session over the first service, which dies while it owes an answer. -/
theorem death_not_missed_of_first :
    ∃ r s t : State Nat,
      Leads InTurn (.initial { Settings.standard with candidates := [⟨1, 3⟩] }) r ∧
        r.agenda = [.command (.finish 0 (.session (.ok ⟨⟨1, 3⟩, 0, 1⟩)))] ∧
        (r.directory.Has 0 fun service => service.alive = true) ∧
      Leads InTurn r s ∧ s.agenda = [] ∧ s.client.session = some ⟨⟨1, 3⟩, 0, 1⟩ ∧
        s.client.outstanding.toList = [⟨.first, .getSlotStatus, 7, .standard, 0⟩] ∧
      Leads ByCompletions (s.act (.kill 0)) t ∧ t.agenda = [] ∧ t.client.session = none ∧
        .complete 7 (.error .unavailable) ∈ t.done := by
  obtain ⟨r, s, run, agenda, later, idle, cached, table⟩ : ∃ r s : State Nat,
      Leads InTurn (.initial { Settings.standard with candidates := [⟨1, 3⟩] }) r ∧
        r.agenda = [.command (.finish 0 (.session (.ok ⟨⟨1, 3⟩, 0, 1⟩)))] ∧
      Leads InTurn r s ∧ s.agenda = [] ∧ s.client.session = some ⟨⟨1, 3⟩, 0, 1⟩ ∧
        s.client.outstanding = (Outstanding.empty.submit .getSlotStatus 7 .standard).2 := by
    rw [initial_of_candidates [⟨1, 3⟩] (by decide +kernel)]
    refine ⟨_, _, .tail (.tail (.tail (.tail (.tail (.tail (.tail (.tail .refl
      (.act (.register ⟨1, 3⟩) trivial (.inl rfl)))
      (.act (.event (.call 0 .acquire)) trivial (.inl rfl)))
      (.carryOut rfl))
      (.act (.event (.found 0 (.ok (0, ⟨1, 3⟩)))) ⟨_, rfl, rfl⟩ (.inl rfl)))
      (.carryOut rfl)) (.carryOut rfl)) (.carryOut rfl)) (.carryOut rfl), rfl,
      .tail (.tail (.tail (.tail (.tail .refl
      (.carryOut rfl))
      (.act (.event (.call 1 (.request .getSlotStatus 7))) trivial (.inl rfl)))
      (.carryOut rfl)) (.carryOut rfl)) (.carryOut rfl), rfl, rfl, rfl⟩
  have waiting : s.client.outstanding.toList = [⟨.first, .getSlotStatus, 7, .standard, 0⟩] := by
    rw [table]
    exact Outstanding.toList_submit_empty _ _ _
  have returned := (death_not_missed _ run).2 (fun _ _ => id) _ _ _ agenda
  obtain ⟨-, ⟨t, leads, ends⟩, lost⟩ := (death_not_missed _ (run.trans later)).1 idle _ cached
  obtain ⟨none, since, done, failed⟩ := lost t leads ends
  rw [waiting] at failed
  have ran := List.mem_reverse.1 (failed.subset (.head _))
  exact ⟨r, s, t, run, agenda, returned, later, idle, cached, waiting, leads, ends, none,
    done ▸ List.mem_append_left _ ran⟩

end Baseband.Network
