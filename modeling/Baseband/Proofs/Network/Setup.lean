import Baseband.Proofs.Loopback
import Baseband.Proofs.Network.Basic

/-!
# The service of a session knows its client

A service lives and will tell the client of its death as long as the client holds a session over it,
or the news of its death is on its way. While the session is being set up this is not so yet, but
then exactly one question or answer of the set-up is on the agenda. Nothing that can happen between
any two things on the agenda gets in between.
-/

namespace Baseband.Network

open Bench (Party)
open Loopback (Directory Recipient Reply Service)

variable {κ : Type} {s t : State κ} {item : Item κ} {rest : List (Item κ)}

@[simp] def Item.setsUp : Item κ → Bool
  | .command wanted => wanted.setsUp
  | .linked .. | .routed .. => true
  | _ => false

namespace State

def setups (s : State κ) : List (Item κ) :=
  s.agenda.filter Item.setsUp

/-- The service of a session lives and knows the client as the observer of the session, or the
client is about to be told of its death. -/
def Armed (s : State κ) (session : Session Nat) : Prop :=
  s.directory.Has session.connection (fun service =>
    service.alive = true ∧ ⟨session.generation, .client⟩ ∈ service.recipients) ∨
  .notify ⟨session.generation, .client⟩ ∈ s.agenda

def Routed (s : State κ) (session : Session Nat) : Prop :=
  s.directory.Has session.connection fun service => service.sink = some .client

/-- How far the set-up of the cached session has come, by what is on the agenda of it. -/
inductive SetUp (s : State κ) : List (Item κ) → Prop
  | done (ready : ∀ session, s.client.session = some session → s.Armed session ∧ s.Routed session) :
      SetUp s []
  | link {id : CallId} {goal : Goal κ} {session : Session Nat}
      (stage : s.client.call? id = some (.connecting goal (.linking session))) :
      SetUp s [.command (.link id session.connection session.generation)]
  | refused {id : CallId} {goal : Goal κ} {session : Session Nat} (why : Error)
      (stage : s.client.call? id = some (.connecting goal (.linking session))) :
      SetUp s [.linked id (.error why)]
  | linked {id : CallId} {goal : Goal κ} {session : Session Nat}
      (stage : s.client.call? id = some (.connecting goal (.linking session)))
      (armed : s.client.session = some session → s.Armed session) : SetUp s [.linked id (.ok ())]
  | route {id : CallId} {goal : Goal κ} {session : Session Nat}
      (stage : s.client.call? id = some (.connecting goal (.routing session)))
      (armed : s.client.session = some session → s.Armed session) :
      SetUp s [.command (.route id session.connection)]
  | routed {id : CallId} {goal : Goal κ} {session : Session Nat}
      (stage : s.client.call? id = some (.connecting goal (.routing session)))
      (ready : s.client.session = some session → s.Armed session ∧ s.Routed session) :
      SetUp s [.routed id (.ok ())]

structure Wired (s : State κ) : Prop where
  valid : s.client.Valid
  /-- A session is over a service of its version. -/
  known : ∀ session, s.client.session = some session →
    s.directory.Has session.connection fun service => service.version = session.version
  cookies : s.directory.CookiesApart
  setUp : s.SetUp s.setups

/-! ## What keeps the set-up -/

theorem Armed.tends {session : Session Nat} (armed : s.Armed session)
    (tends : s.directory.Tends t.directory)
    (told : .notify ⟨session.generation, .client⟩ ∈ s.agenda →
      .notify ⟨session.generation, .client⟩ ∈ t.agenda) : t.Armed session :=
  armed.imp (fun known => known.tends tends fun _ _ keeps ⟨alive, knows⟩ =>
    ⟨keeps.alive alive, keeps.recipients _ knows⟩) told

/-- A set-up is where it was if no call that sets a session up has gone on, and if the session that
is cached, if any, is as ready as it was. -/
theorem SetUp.mono {items : List (Item κ)} (setUp : s.SetUp items)
    (session : ∀ session, t.client.session = some session → s.client.session = some session)
    (stages : ∀ id goal stage session, stage.settingUp? = some session →
      s.client.call? id = some (.connecting goal stage) →
        t.client.call? id = some (.connecting goal stage))
    (armed : ∀ session, t.client.session = some session → s.Armed session → t.Armed session)
    (routed : ∀ session, s.Routed session → t.Routed session) : t.SetUp items := by
  cases setUp with
  | done ready =>
    refine .done fun current cached => ?_
    obtain ⟨armed', routed'⟩ := ready current (session current cached)
    exact ⟨armed current cached armed', routed current routed'⟩
  | link stage => exact .link (stages _ _ _ _ rfl stage)
  | refused why stage => exact .refused why (stages _ _ _ _ rfl stage)
  | linked stage armed' =>
    exact .linked (stages _ _ _ _ rfl stage) fun cached =>
      armed _ cached (armed' (session _ cached))
  | route stage armed' =>
    exact .route (stages _ _ _ _ rfl stage) fun cached =>
      armed _ cached (armed' (session _ cached))
  | routed stage ready =>
    refine .routed (stages _ _ _ _ rfl stage) fun cached => ?_
    obtain ⟨armed', routed'⟩ := ready (session _ cached)
    exact ⟨armed _ cached armed', routed _ routed'⟩

/-- Nothing of a set-up is on the agenda, or a call waits for it. -/
theorem SetUp.call {items : List (Item κ)} (setUp : s.SetUp items) :
    items = [] ∨ ∃ id goal stage session, stage.settingUp? = some session ∧
      s.client.call? id = some (.connecting goal stage) := by
  cases setUp with
  | done => exact .inl rfl
  | link stage | refused _ stage | linked stage | route stage | routed stage =>
    exact .inr ⟨_, _, _, _, rfl, stage⟩

/-- What else is put on the agenda and whatever becomes of the services that keep what they know of
the client: the set-up is where it was. -/
theorem Wired.extend (wired : s.Wired) (client : t.client = s.client)
    (tends : s.directory.Tends t.directory) (items : List (Item κ))
    (agenda : t.agenda = items ++ s.agenda) (foreign : items.filter Item.setsUp = []) :
    t.Wired where
  valid := client ▸ wired.valid
  known session cached :=
    (wired.known session (client ▸ cached)).tends tends fun _ _ keeps speaks =>
      keeps.version.trans speaks
  cookies := tends.cookies wired.cookies
  setUp := by
    have same : t.setups = s.setups := by
      rw [setups, agenda, List.filter_append, foreign, List.nil_append, setups]
    rw [same]
    refine wired.setUp.mono (fun _ cached => client ▸ cached) ?_ ?_ ?_
    · intro id goal stage session _ found
      rw [client]
      exact found
    · intro session _ armed
      exact armed.tends tends fun told => agenda ▸ List.mem_append_right _ told
    · intro session routed
      exact routed.tends tends fun _ _ keeps => keeps.sink

theorem filter_map_command (commands : List (Command κ Nat)) :
    (commands.map Item.command).filter Item.setsUp =
      (commands.filter Command.setsUp).map Item.command := by
  rw [List.filter_map]
  rfl

theorem setups_raise (s : State κ) (event : Event κ Nat) :
    (s.raise event).setups =
      ((s.client.handle event).2.filter Command.setsUp).map Item.command ++ s.setups := by
  rw [setups, raise, List.filter_append, filter_map_command, setups]

theorem setups_push (s : State κ) (items : List (Item κ)) :
    (s.push items).setups = items.filter Item.setsUp ++ s.setups :=
  List.filter_append ..

/-- An event that is not an answer to a set-up may only begin one. -/
theorem Wired.after_raise (wired : s.Wired) {event : Event κ Nat}
    (linked : ∀ id answer, event ≠ .linked id answer)
    (routed : ∀ id answer, event ≠ .routed id answer)
    (truthful : ∀ id connection version, event = .found id (.ok (connection, version)) →
      s.directory.Has connection fun service => service.version = version) :
    (s.raise event).Wired := by
  have stages (id goal stage session) (settingUp : stage.settingUp? = some session)
      (found : s.client.call? id = some (.connecting goal stage)) :
      (s.raise event).client.call? id = some (.connecting goal stage) :=
    Client.call?_handle_of_settingUp found settingUp (linked id) (routed id)
  have armed (session : Session Nat) (armed : s.Armed session) : (s.raise event).Armed session :=
    armed.imp_right (List.mem_append_right _)
  have arranges := (Client.handle_move wired.valid event).arranges
  have setups := setups_raise s event
  generalize asking : (s.client.handle event).2 = asked at arranges setups
  cases arranges with
  | nothing plain session =>
    have session (current : Session Nat)
        (cached : (s.raise event).client.session = some current) :
        s.client.session = some current := by
      rcases session with kept | none
      · exact kept.symm.trans cached
      · exact nomatch none.symm.trans cached
    refine ⟨wired.valid.handle event, fun current cached => wired.known current (session _ cached),
      wired.cookies, ?_⟩
    rw [setups, plain]
    exact wired.setUp.mono session stages (fun current _ => armed current) fun _ => id
  | @link id goal session found holder cached stage =>
    subst found
    -- while a call sets a session up, it alone is past the gate, and no lookup is made for it
    have idle : s.setups = [] := by
      rcases wired.setUp.call with nothing | ⟨other, goal', stage', session', settingUp, busy⟩
      · exact nothing
      · have past : stage'.isInside = true := by cases stage' <;> first | rfl | cases settingUp
        have inside := wired.valid.inside other goal' stage' (Client.mem_calls_of_call? busy) past
        obtain rfl : id = other := Option.some.inj (holder.symm.trans inside)
        have ignored : s.client.handle (.found id (.ok (session.connection, session.version))) =
            (s.client, []) :=
          Client.handle_of_settingUp busy settingUp rfl (linked id) (routed id)
        rw [ignored] at asking
        cases asking
    refine ⟨wired.valid.handle _, fun current same => ?_, wired.cookies, ?_⟩
    · obtain rfl := Option.some.inj (cached.symm.trans same)
      exact truthful _ _ _ rfl
    · rw [setups, idle]
      exact .link stage
  | route answered => exact absurd answered (linked _ _)

/-! ## What is taken off the agenda -/

/-- News of a death are no part of a set-up. -/
theorem notify_mem_of_setsUp {recipient : Recipient Party} (next : s.agenda = item :: rest)
    (setsUp : item.setsUp = true) (told : .notify recipient ∈ s.agenda) :
    .notify recipient ∈ rest := by
  rw [next, List.mem_cons] at told
  refine told.resolve_left ?_
  rintro rfl
  cases setsUp

/-- What is no part of a set-up and no news of the death that the client has to hear of can go. -/
theorem Wired.after_pop (wired : s.Wired) (next : s.agenda = item :: rest)
    (foreign : item.setsUp = false) (unrelated : ∀ session, s.client.session = some session →
      item ≠ .notify ⟨session.generation, .client⟩) : (s.pop rest).Wired where
  valid := wired.valid
  known := wired.known
  cookies := wired.cookies
  setUp := by
    have same : (s.pop rest).setups = s.setups := by
      rw [setups, setups, next, List.filter_cons_of_neg (ne_true_of_eq_false foreign)]
      rfl
    rw [same]
    refine wired.setUp.mono (fun _ => id) (fun _ _ _ _ _ => id) ?_ fun _ => id
    rintro session cached (known | told)
    · exact .inl known
    · rw [next, List.mem_cons] at told
      exact .inr (told.resolve_left (unrelated session cached).symm)

/-- A death that is reported of the current session ends it. -/
theorem Wired.after_tell (wired : s.Wired) {recipient : Recipient Party}
    (next : s.agenda = .notify recipient :: rest) : ((s.pop rest).tell recipient).Wired := by
  obtain ⟨cookie, observer⟩ := recipient
  cases observer with
  | recorder number =>
    refine wired.after_pop next rfl fun session _ same => ?_
    cases same
  | client =>
    cases current : s.client.isCurrent cookie with
    | false =>
      refine (wired.after_pop next rfl fun session cached same => ?_).after_raise nofun nofun nofun
      cases same
      exact Bool.false_ne_true (current.symm.trans (Client.isCurrent_iff.2 ⟨session, cached, rfl⟩))
    | true =>
      have lost : s.client.handle (.died cookie) =
          (s.client.lost, Client.failAll s.client.outstanding.toList .unavailable) :=
        Client.teardown_of_current current
      have none : ((s.pop rest).tell ⟨cookie, .client⟩).client.session = none :=
        congrArg (fun effect => effect.1.session) lost
      have same : ((s.pop rest).tell ⟨cookie, .client⟩).setups = s.setups := by
        change ((s.pop rest).raise (.died cookie)).setups = s.setups
        rw [setups_raise, State.pop, lost, Client.filter_failAll, setups, setups, next]
        rfl
      refine ⟨wired.valid.handle _, fun session cached => ?_, wired.cookies, ?_⟩
      · exact nomatch none.symm.trans cached
      · rw [same]
        refine wired.setUp.mono (fun _ cached => nomatch none.symm.trans cached) ?_
          (fun _ cached => nomatch none.symm.trans cached) fun _ => id
        intro id goal stage session _ found
        exact (Client.call?_teardown _ _ _).trans found

/-! ## Questions -/

/-- What a service has answered to a question, and the state with the service as it is then. -/
inductive Asked (s : State κ) (number : Nat)
    (f : Service Party Party → Except Error (Service Party Party × Option (Reply Party))) :
    Except Error Unit → State κ → Prop
  | nobody (none : s.directory.services[number]? = none) : Asked s number f (.ok ()) s
  | accepted {service after : Service Party Party} {reply : Option (Reply Party)}
      (found : s.directory.services[number]? = some service)
      (accepted : f service = .ok (after, reply)) :
      Asked s number f (.ok ())
        { s.modify number fun _ => after with replies := s.replies ++ reply.toList }
  | refused {service : Service Party Party} {why : Error}
      (found : s.directory.services[number]? = some service) (refused : f service = .error why) :
      Asked s number f (.error why) s

/-- Every question is answered in one of the ways listed, and the answer is put on the agenda. -/
theorem exists_asked (s : State κ) (number : Nat) (answer : Except Error Unit → Item κ)
    (f : Service Party Party → Except Error (Service Party Party × Option (Reply Party))) :
    ∃ outcome t, Asked s number f outcome t ∧ s.ask number answer f = t.push [answer outcome] := by
  unfold ask
  split
  · rename_i none
    exact ⟨_, _, .nobody none, rfl⟩
  · rename_i service found
    split
    · rename_i accepted
      exact ⟨_, _, .accepted found accepted, rfl⟩
    · rename_i refused
      exact ⟨_, _, .refused found refused, rfl⟩

/-- If every service keeps what it knows of the client, whatever it is asked, then so do all. -/
theorem Asked.tends {number : Nat}
    {f : Service Party Party → Except Error (Service Party Party × Option (Reply Party))}
    {outcome : Except Error Unit} (asked : Asked s number f outcome t)
    (keeps : ∀ service after reply, f service = .ok (after, reply) → service.Keeps after) :
    t.client = s.client ∧ t.agenda = s.agenda ∧ s.directory.Tends t.directory := by
  cases asked with
  | nobody | refused => exact ⟨rfl, rfl, Directory.tends_of_services rfl⟩
  | accepted found accepted =>
    refine ⟨rfl, rfl, Directory.tends_modify _ _ fun before same => ?_⟩
    obtain rfl := Option.some.inj (found.symm.trans same)
    exact keeps _ _ _ accepted

/-- The version of a session stays that of its service. -/
theorem Wired.knownTends (wired : s.Wired) (client : t.client = s.client)
    (tends : s.directory.Tends t.directory) (session : Session Nat)
    (cached : t.client.session = some session) :
    t.directory.Has session.connection fun service => service.version = session.version :=
  (wired.known session (client ▸ cached)).tends tends fun _ _ keeps speaks =>
    keeps.version.trans speaks

/-- A service that is asked to tell of its death lives and knows the client from then on, or
refuses. -/
theorem Wired.after_link (wired : s.Wired) {id : CallId} {connection cookie : Nat}
    (next : s.agenda = .command (.link id connection cookie) :: rest)
    (happening : Happening κ Nat) :
    (((s.pop rest).note happening).perform (.link id connection cookie)).Wired := by
  have setUp := wired.setUp
  rw [setups, next, List.filter_cons_of_pos rfl] at setUp
  generalize others : rest.filter Item.setsUp = waiting at setUp
  cases setUp with
  | @link _ goal session stage =>
    obtain ⟨outcome, t, asked, answered⟩ := exists_asked ((s.pop rest).note happening)
      session.connection (.linked id) fun service =>
        (service.link ⟨session.generation, .client⟩).map fun after => (after, none)
    have accepts {service after : Service Party Party} {reply : Option (Reply Party)}
        (mapped : ((service.link ⟨session.generation, .client⟩).map fun after => (after, none)) =
          .ok (after, reply)) : service.link ⟨session.generation, .client⟩ = .ok after := by
      cases linked : service.link ⟨session.generation, .client⟩ with
      | error why =>
        rw [linked] at mapped
        cases mapped
      | ok linked' =>
        rw [linked] at mapped
        cases mapped
        rfl
    obtain ⟨client, agenda, tends⟩ :=
      asked.tends fun _ _ _ accepted => Loopback.Service.keeps_link (accepts accepted)
    have same : (t.push [.linked id outcome]).setups = [.linked id outcome] := by
      rw [setups_push, setups, agenda]
      exact congrArg (.linked id outcome :: ·) others
    change (State.ask _ _ _ _).Wired
    rw [answered]
    refine ⟨client ▸ wired.valid, wired.knownTends client tends, tends.cookies wired.cookies, ?_⟩
    rw [same]
    rw [← show t.client = s.client from client] at stage
    cases asked with
    | nobody missing =>
      refine .linked stage fun cached => ?_
      obtain ⟨service, found, -⟩ := wired.known session cached
      exact nomatch missing.symm.trans found
    | accepted found accepted =>
      refine .linked stage fun _ => .inl ?_
      obtain ⟨alive, -, rfl⟩ := Loopback.Service.link_eq_ok.1 (accepts accepted)
      exact Directory.has_modify found ⟨alive, List.mem_append_right _ (List.mem_singleton.2 rfl)⟩
    | refused found refused => exact .refused _ stage

/-- A service that is asked to answer to the client does so. -/
theorem Wired.after_route (wired : s.Wired) {id : CallId} {connection : Nat}
    (next : s.agenda = .command (.route id connection) :: rest) (happening : Happening κ Nat) :
    (((s.pop rest).note happening).perform (.route id connection)).Wired := by
  have setUp := wired.setUp
  rw [setups, next, List.filter_cons_of_pos rfl] at setUp
  generalize others : rest.filter Item.setsUp = waiting at setUp
  cases setUp with
  | @route _ goal session stage armed =>
    obtain ⟨outcome, t, asked, answered⟩ := exists_asked ((s.pop rest).note happening)
      session.connection (.routed id) fun service => .ok (service.route .client, none)
    obtain ⟨client, agenda, tends⟩ := asked.tends fun service after reply accepted => by
      cases accepted
      exact service.keeps_route
    have same : (t.push [.routed id outcome]).setups = [.routed id outcome] := by
      rw [setups_push, setups, agenda]
      exact congrArg (.routed id outcome :: ·) others
    rw [perform, answered]
    refine ⟨client ▸ wired.valid, wired.knownTends client tends, tends.cookies wired.cookies, ?_⟩
    rw [same]
    rw [← show t.client = s.client from client] at stage armed
    cases asked with
    | nobody missing =>
      refine .routed stage fun cached => ?_
      obtain ⟨service, found, -⟩ := wired.known session cached
      exact nomatch missing.symm.trans found
    | accepted found accepted =>
      refine .routed stage fun cached => ⟨?_, ?_⟩
      · refine (armed cached).tends tends fun told => ?_
        exact List.mem_append_right _ (notify_mem_of_setsUp next rfl told)
      · cases accepted
        exact Directory.has_modify found rfl
    | refused found refused => cases refused

/-! ## Answers -/

/-- The answer to the registration for the death of a service moves the set-up on, or ends it. -/
theorem Wired.after_linked (wired : s.Wired) {id : CallId} {answer : Except Error Unit}
    (next : s.agenda = .linked id answer :: rest) :
    ((s.pop rest).raise (.linked id answer)).Wired := by
  have setUp := wired.setUp
  rw [setups, next, List.filter_cons_of_pos rfl] at setUp
  generalize others : rest.filter Item.setsUp = waiting at setUp
  cases setUp with
  | @refused _ goal session why stage =>
    have given : s.client.handle (.linked id (.error why)) = s.client.abandon id goal session := by
      simp [Client.handle, Client.advance, stage, Client.connect]
    obtain ⟨none, nothing⟩ := wired.valid.session_of_refused stage rfl
    rw [← given] at none nothing
    have ended (current : Session Nat) :
        ((s.pop rest).raise (.linked id (.error why))).client.session ≠ some current :=
      fun cached => Option.some_ne_none current (cached.symm.trans none)
    refine ⟨wired.valid.handle _, fun _ cached => absurd cached (ended _), wired.cookies, ?_⟩
    rw [setups_raise, State.pop, nothing, setups, others]
    exact .done fun _ cached => absurd cached (ended _)
  | @linked _ goal session stage armed =>
    have moved := Client.handle_linked stage
    refine ⟨wired.valid.handle _, ?_, wired.cookies, ?_⟩
    · intro current cached
      change (s.client.handle (.linked id (.ok ()))).1.session = _ at cached
      rw [moved] at cached
      exact wired.known current cached
    · rw [setups_raise, State.pop, moved, setups, others]
      have routing : (s.client.handle (.linked id (.ok ()))).1.call? id =
          some (.connecting goal (.routing session)) := by
        rw [moved]
        exact Client.call?_putCall _ _ _
      refine .route routing fun cached => ?_
      change (s.client.handle (.linked id (.ok ()))).1.session = _ at cached
      rw [moved] at cached
      refine (armed cached).imp_right fun told => ?_
      exact List.mem_append_right _ (notify_mem_of_setsUp next rfl told)

/-- With the answer to the last question the session is set up. -/
theorem Wired.after_routed (wired : s.Wired) {id : CallId} {answer : Except Error Unit}
    (next : s.agenda = .routed id answer :: rest) :
    ((s.pop rest).raise (.routed id answer)).Wired := by
  have setUp := wired.setUp
  rw [setups, next, List.filter_cons_of_pos rfl] at setUp
  generalize others : rest.filter Item.setsUp = waiting at setUp
  cases setUp with
  | @routed _ goal session stage ready =>
    have arranges := (Client.handle_move wired.valid (.routed id (.ok ()))).arranges
    generalize asking : (s.client.handle (.routed id (.ok ()))).2 = asked at arranges
    cases arranges with
    | nothing plain kept =>
      have before (current : Session Nat)
          (cached : ((s.pop rest).raise (.routed id (.ok ()))).client.session = some current) :
          s.client.session = some current := by
        rcases kept with kept | none
        · exact kept.symm.trans cached
        · exact nomatch none.symm.trans cached
      refine ⟨wired.valid.handle _, fun current cached => wired.known current (before _ cached),
        wired.cookies, ?_⟩
      rw [setups_raise, State.pop, asking, plain, setups, others]
      refine .done fun current cached => ?_
      have same : s.client.session = none ∨ s.client.session = some session :=
        wired.valid.knowsOf stage
      rw [before current cached] at same
      obtain rfl := Option.some.inj (same.resolve_left (Option.some_ne_none _))
      obtain ⟨armed, routed⟩ := ready (before current cached)
      refine ⟨armed.imp_right fun told => ?_, routed⟩
      exact List.mem_append_right _ (notify_mem_of_setsUp next rfl told)
    | link found => cases found
    | route linked => cases linked

/-! ## Steps -/

/-- What is on the agenda keeps everything in order. -/
theorem Wired.carryOut (wired : s.Wired) (next : s.agenda = item :: rest) :
    ((s.pop rest).carryOut item).Wired := by
  have foreign (plain : item.setsUp = false)
      (unrelated : ∀ recipient, item ≠ .notify recipient) : (s.pop rest).Wired :=
    wired.after_pop next plain fun _ _ => unrelated _
  cases item with
  | command wanted =>
    cases wanted with
    | link id connection cookie => exact wired.after_link next _
    | route id connection => exact wired.after_route next _
    | send id connection serial op payload =>
      obtain ⟨outcome, t, asked, answered⟩ :=
        exists_asked ((s.pop rest).note (.command (.send id connection serial op payload)))
          connection (.sent id) fun service => service.send serial op payload
      obtain ⟨client, agenda, tends⟩ := asked.tends fun _ _ _ => Loopback.Service.keeps_send
      rw [State.carryOut, perform, answered]
      refine (foreign rfl nofun).extend client tends [.sent id outcome] ?_ rfl
      exact congrArg (.sent id outcome :: ·) agenda
    | proceed id =>
      exact (foreign rfl nofun).extend rfl (Directory.tends_of_services rfl)
        [.proceeded id] rfl rfl
    | complete completion outcome =>
      exact (foreign rfl nofun).extend rfl (Directory.tends_of_services rfl)
        [.running] rfl rfl
    | discard | discover | rest | letIn | finish | breakOff =>
      exact (foreign rfl nofun).extend rfl (Directory.tends_of_services rfl) [] rfl rfl
  | linked id answer => exact wired.after_linked next
  | routed id answer => exact wired.after_routed next
  | sent id answer | proceeded id => exact (foreign rfl nofun).after_raise nofun nofun nofun
  | notify recipient => exact wired.after_tell next
  | running => exact foreign rfl nofun

/-- A service that dies tells all that it knows of. -/
theorem Wired.kill (wired : s.Wired) (number : Nat) : (s.kill number).Wired := by
  unfold State.kill
  split
  · exact wired
  · rename_i service found
    have notices : (service.kill.2.map (Item.notify (κ := κ))).filter Item.setsUp = [] := by
      rw [List.filter_map]
      exact List.map_eq_nil_iff.2 (List.filter_eq_nil_iff.2 fun _ _ => nofun)
    have kept {P : Service Party Party → Prop} {other : Nat} (has : s.directory.Has other P)
        (killed : ∀ service, P service → P service.kill.1) :
        (s.directory.modify number fun _ => service.kill.1).Has other P := by
      obtain ⟨before, listed, holds⟩ := has
      by_cases same : number = other
      · subst same
        obtain rfl := Option.some.inj (found.symm.trans listed)
        exact Directory.has_modify found (killed _ holds)
      · exact ⟨before, by simp [Directory.modify, same, listed], holds⟩
    refine ⟨wired.valid, fun session cached => kept (wired.known session cached) ?_, ?_, ?_⟩
    · intro service speaks
      unfold Service.kill
      split <;> exact speaks
    · refine wired.cookies.modify fun before listed apart => ?_
      obtain rfl := Option.some.inj (found.symm.trans listed)
      unfold Service.kill
      split
      · exact List.nodup_nil
      · exact apart
    · rw [setups_push, notices]
      refine wired.setUp.mono (fun _ => id) (fun _ _ _ _ _ => id) ?_ fun session routed => ?_
      · rintro session - (⟨before, listed, alive, knows⟩ | told)
        · by_cases same : number = session.connection
          · subst same
            obtain rfl := Option.some.inj (found.symm.trans listed)
            refine .inr (List.mem_append_left _ (List.mem_map_of_mem ?_))
            rw [Service.kill, if_pos alive]
            exact knows
          · refine .inl ⟨before, ?_, alive, knows⟩
            simp [push, modify, Directory.modify, same, listed]
        · exact .inr (List.mem_append_right _ told)
      · refine kept routed fun service answers => ?_
        unfold Service.kill
        split <;> exact answers

/-- An answer of the directory to a lookup keeps the client wired. -/
theorem Wired.lookUp (wired : s.Wired) (id : CallId) (version : Version) :
    (s.lookUp id version).Wired := by
  have services := s.directory.discover_services version
  have listed {number : Nat} (found : (s.directory.discover version).2 = .ok number) :=
    Directory.has_of_discover found
  unfold State.lookUp
  generalize s.directory.discover version = found at services listed
  obtain ⟨directory, answer⟩ := found
  have looked : ({ s with directory } : State κ).Wired :=
    wired.extend rfl (Directory.tends_of_services services) [] rfl rfl
  refine looked.after_raise nofun nofun ?_
  intro other connection speaks found
  cases answer with
  | error why => cases found
  | ok number =>
    cases found
    obtain ⟨service, found, -⟩ := listed rfl
    refine ⟨service, services ▸ found, ?_⟩
    rw [State.speaks, services, found]
    rfl

/-- No act from outside gets anything out of order. -/
theorem Wired.act (wired : s.Wired) {act : Act κ} (possible : s.Possible act) :
    (s.act act).Wired := by
  have plainly {t : State κ} (client : t.client = s.client) (agenda : t.agenda = s.agenda)
      (tends : s.directory.Tends t.directory) : t.Wired :=
    wired.extend client tends [] agenda rfl
  cases act with
  | event raised =>
    refine wired.after_raise ?_ ?_ ?_
    · rintro id answer rfl
      exact possible
    · rintro id answer rfl
      exact possible
    · rintro id connection version rfl
      exact possible
  | lookUp id version => exact wired.lookUp id version
  | register version => exact plainly rfl rfl (s.directory.tends_register version)
  | unregister version => exact plainly rfl rfl (Directory.tends_of_services rfl)
  | failDiscovery version times => exact plainly rfl rfl (Directory.tends_of_services rfl)
  | kill number => exact wired.kill number
  | failSends number fail =>
    exact plainly rfl rfl (Directory.tends_modify _ _ fun _ _ => ⟨rfl, id, fun _ => id, id, id⟩)
  | setHandler number handler =>
    exact plainly rfl rfl (Directory.tends_modify _ _ fun _ _ => ⟨rfl, id, fun _ => id, id, id⟩)
  | link number recipient =>
    refine plainly rfl rfl (Directory.tends_modify _ _ fun service _ => ?_)
    split
    · rename_i linked
      exact Loopback.Service.keeps_link linked
    · exact .refl service
  | deliver index =>
    rw [State.act, State.deliver]
    split
    · exact wired
    · have popped : ({ s with replies := s.replies.eraseIdx index } : State κ).Wired :=
        plainly rfl rfl (Directory.tends_of_services rfl)
      dsimp only
      split
      · exact popped.after_raise nofun nofun nofun
      · exact popped

end State
end Baseband.Network
