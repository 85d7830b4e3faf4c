import Baseband.Proofs.Client.Served
import Baseband.Proofs.Network.Alone
import Baseband.Proofs.Network.Rounds
import Baseband.Proofs.Run.Discovery

/-!
# Discovery among services

A call that acquires a session while nothing else happens looks for the service in the directory,
pass after pass, and sets up a session over what it finds. All of this has but one course, and its
end can be told beforehand: the session is one over the newest live service, unless the lookups up
to that version fail too often.
-/

namespace Baseband.Network

open Bench (Party)
open Client (Effect)
open Command (collect returned?)
open Loopback (Directory Reply Service)
open Probe (Pass follow judge)

variable {κ : Type} {s t u v : State κ} {id : CallId} {goal : Goal κ} {c : Client κ Nat}
  {d : Directory Party Party} {effect : Effect κ Nat} {version : Version} {rest : List Version}
  {backoff : Option Backoff}

/-! ## Nothing but a search -/

/-- Nothing happens but that a call looks for the service: when nothing is left to be done, the
directory answers its lookup, or its rest is over. -/
inductive Searching (id : CallId) (s : State κ) : Act κ → Prop
  | lookUp {goal : Goal κ} {version : Version} {rest : List Version} {backoff : Option Backoff}
      (idle : s.agenda = [])
      (asks : s.client.call? id = some (.connecting goal (.probing version rest backoff))) :
      Searching id s (.lookUp id version)
  | rested {goal : Goal κ} {backoff : Option Backoff} (idle : s.agenda = [])
      (rests : s.client.call? id = some (.connecting goal (.resting backoff))) :
      Searching id s (.event (.rested id))

section Searching

variable {act act' : Act κ}

theorem Searching.idle (searching : Searching id s act) : s.agenda = [] := by
  cases searching <;> assumption

theorem Searching.call?_ne_none (searching : Searching id s act) : s.client.call? id ≠ none := by
  cases searching with
  | lookUp _ asks => rw [asks]; exact Option.some_ne_none _
  | rested _ rests => rw [rests]; exact Option.some_ne_none _

/-- While a call looks for the service there is one thing that can happen. -/
theorem Searching.unique (searching : Searching id s act) (other : Searching id s act') :
    act = act' := by
  cases searching with
  | lookUp _ asks =>
    cases other with
    | lookUp _ asks' =>
      cases asks.symm.trans asks'
      rfl
    | rested _ rests => cases asks.symm.trans rests
  | rested _ rests =>
    cases other with
    | lookUp _ asks => cases rests.symm.trans asks
    | rested => rfl

end Searching

/-- There is never a choice. -/
theorem step_unique (id : CallId) : Relator.RightUnique (Step (κ := κ) (Searching id)) := by
  intro s t t' step step'
  cases step with
  | act act _ admitted =>
    cases step' with
    | act act' _ admitted' => rw [admitted.unique admitted']
    | carryOut next => cases admitted.idle.symm.trans next
  | carryOut next =>
    cases step' with
    | act act' _ admitted' => cases admitted'.idle.symm.trans next
    | carryOut next' =>
      cases next.symm.trans next'
      rfl

/-- Where the call is over and nothing is left to be done, there all searches end. -/
theorem leads_to_end (leads : Leads (Searching id) s t) (idle : t.agenda = [])
    (ended : t.client.call? id = none) (other : Leads (Searching id) s u) :
    Leads (Searching id) u t := by
  rcases Relation.ReflTransGen.total_of_right_unique (step_unique id) other leads with
    before | after
  · exact before
  · rcases after.cases_head with same | ⟨v, step, -⟩
    · exact same ▸ .refl
    · cases step with
      | act _ _ admitted => exact absurd ended admitted.call?_ne_none
      | carryOut next => cases idle.symm.trans next

/-- The search leads from one state to another, and meanwhile no session is returned. -/
structure Goes (id : CallId) (s t : State κ) : Prop where
  leads : Leads (Searching id) s t
  returns : collect returned? t.done = collect returned? s.done

theorem Goes.refl (id : CallId) (s : State κ) : Goes id s s :=
  ⟨.refl, rfl⟩

theorem Goes.trans (first : Goes id s t) (second : Goes id t u) : Goes id s u :=
  ⟨first.leads.trans second.leads, second.returns.trans first.returns⟩

/-- The state is one that an effect leaves when nothing else is to be done, with this directory. -/
structure State.Upon (s : State κ) (effect : Effect κ Nat) (d : Directory Party Party) : Prop where
  client : s.client = effect.1
  agenda : s.agenda = effect.2.map .command
  directory : s.directory = d

/-! ## Lookups and rests -/

/-- The directory answers a lookup as it would in a pass. -/
theorem State.lookUp_eq (s : State κ) (id : CallId) (version : Version) :
    s.lookUp id version = { s with directory := (s.directory.lookUp version).2 }.raise
      (.found id (s.directory.lookUp version).1) :=
  rfl

/-- The directory answers the lookup that the call waits for. -/
theorem goes_of_lookUp
    (upon : s.Upon (c.putCall id (.connecting goal (.probing version rest backoff)),
      [.discover id version]) d)
    (handled : (c.putCall id (.connecting goal (.probing version rest backoff))).handle
      (.found id (d.lookUp version).1) = effect) :
    ∃ t, Goes id s t ∧ t.Upon effect (d.lookUp version).2 := by
  let w := (s.pop []).carryOut (.command (.discover id version))
  have client : w.client = c.putCall id (.connecting goal (.probing version rest backoff)) :=
    upon.client
  have directory : w.directory = d := upon.directory
  have asks : w.client.call? id = some (.connecting goal (.probing version rest backoff)) := by
    rw [client]
    exact Client.call?_putCall _ _ _
  have answered : Step (Searching id) w (w.lookUp id version) :=
    .act (.lookUp id version) trivial (.lookUp rfl asks)
  refine ⟨_, ⟨.tail (.single (.carryOut upon.agenda)) answered, rfl⟩, ?_⟩
  rw [← client, ← directory] at handled
  rw [State.lookUp_eq, ← handled, ← directory]
  exact ⟨rfl, List.append_nil _, rfl⟩

/-- The rest of the call is over. -/
theorem goes_of_rest {delay : Duration}
    (upon : s.Upon (c.putCall id (.connecting goal (.resting backoff)), [.rest id delay]) d)
    (handled : (c.putCall id (.connecting goal (.resting backoff))).handle (.rested id) = effect) :
    ∃ t, Goes id s t ∧ t.Upon effect d := by
  let w := (s.pop []).carryOut (.command (.rest id delay))
  have client : w.client = c.putCall id (.connecting goal (.resting backoff)) := upon.client
  have rests : w.client.call? id = some (.connecting goal (.resting backoff)) := by
    rw [client]
    exact Client.call?_putCall _ _ _
  have rested : Step (Searching id) w (w.raise (.rested id)) :=
    .act (.event (.rested id)) trivial (.rested rfl rests)
  refine ⟨_, ⟨.tail (.single (.carryOut upon.agenda)) rested, rfl⟩, ?_⟩
  rw [← client] at handled
  rw [← handled]
  exact ⟨rfl, List.append_nil _, upon.directory⟩

/-- A pass is made over the directory. -/
theorem goes_of_pass {versions : List Version} (upon : s.Upon (c.probe id goal backoff versions) d) :
    ∃ t, Goes id s t ∧
      t.Upon (c.closePass id goal backoff (Probe.pass Directory.lookUp d versions).outcome)
        (Probe.pass Directory.lookUp d versions).provider := by
  induction versions generalizing s d with
  | nil => exact ⟨s, .refl id s, upon⟩
  | cons version rest ih =>
    have probing := Client.call?_putCall c id (.connecting goal (.probing version rest backoff))
    cases verdict : judge version (d.lookUp version).1 with
    | found number =>
      rw [Probe.pass_of_found verdict]
      refine goes_of_lookUp upon ((Client.handle_found_of_found probing verdict).trans ?_)
      exact Client.install_putCall c id _ goal version number
    | next =>
      rw [Probe.pass_of_next verdict]
      obtain ⟨t, first, upon⟩ := goes_of_lookUp upon
        ((Client.handle_found_of_next probing verdict).trans
          (Client.probe_putCall c id _ goal backoff rest))
      obtain ⟨u, later, upon⟩ := ih upon
      exact ⟨u, first.trans later, upon⟩
    | stop why =>
      rw [Probe.pass_of_stop verdict]
      refine goes_of_lookUp upon ((Client.handle_found_of_stop probing verdict).trans ?_)
      exact Client.endPass_putCall c id _ goal backoff why

/-- What follows on a pass is done. -/
theorem goes_of_follow {made : Pass (Directory Party Party) Nat}
    (upon : s.Upon (c.closePass id goal backoff made.outcome) made.provider) :
    let whole := follow c.growth (c.pass Directory.lookUp) backoff made
    ∃ t, Goes id s t ∧ t.Upon (c.settle id goal whole.ending) whole.provider := by
  intro whole
  -- every rest takes a delay away, so those that are left bound the passes to come
  induction left : Probe.budget backoff using Nat.strongRecOn generalizing s backoff made with
  | ind n ih =>
    cases outcome : made.outcome with
    | ok found =>
      rw [outcome] at upon
      have last : whole = .last made := Probe.follow_of_ok outcome
      refine ⟨s, .refl id s, ?_⟩
      rw [last, Probe.Rounds.ending, outcome]
      exact upon
    | error why =>
      rw [outcome] at upon
      change s.Upon (c.endPass id goal backoff why) _ at upon
      rcases demands : Backoff.afterPass c.growth backoff why with _ | ⟨delay, later⟩ | failure
      · rw [Client.endPass_of_over demands] at upon
        have last : whole = .last made := Probe.follow_of_over outcome demands
        refine ⟨s, .refl id s, ?_⟩
        rw [last, Probe.Rounds.ending, outcome]
        exact upon
      · rw [Client.endPass_of_again demands] at upon
        obtain ⟨b, rfl, next⟩ := Backoff.next?_of_again demands
        have resting := Client.call?_putCall c id (.connecting goal (.resting (some later)))
        obtain ⟨t, first, upon⟩ := goes_of_rest upon
          ((Client.handle_rested resting).trans (Client.probe_putCall c id _ goal _ _))
        obtain ⟨u, second, upon⟩ := goes_of_pass upon
        have fewer : later.left < n := Nat.lt_of_lt_of_eq (Backoff.left_lt_of_next next) left
        obtain ⟨v, third, upon⟩ := ih _ fewer upon rfl
        have whole' : whole = .again made delay _ := Probe.follow_of_again outcome demands
        refine ⟨v, (first.trans second).trans third, ?_⟩
        rw [whole']
        exact upon
      · rw [Client.endPass_of_failed demands] at upon
        have brokenOff : whole = .brokenOff made failure := Probe.follow_of_failed outcome demands
        refine ⟨s, .refl id s, ?_⟩
        rw [brokenOff]
        exact upon

/-! ## A session is set up -/

/-- A service is asked for something at the command of the client, and agrees. -/
theorem goes_of_ask (id : CallId) {wanted : Command κ Nat} {number : Nat}
    (answer : Except Error Unit → Item κ)
    (f : Service Party Party → Except Error (Service Party Party × Option (Reply Party)))
    {event : Event κ Nat} {service after : Service Party Party}
    (upon : s.Upon (c, [wanted]) d) (asks : ∀ u : State κ, u.perform wanted = u.ask number answer f)
    (raises : ∀ u : State κ, u.carryOut (answer (.ok ())) = u.raise event)
    (silent : wanted.returned? = none) (found : d.services[number]? = some service)
    (accepted : f service = .ok (after, none)) (handled : c.handle event = effect) :
    ∃ t, Goes id s t ∧ t.Upon effect (d.modify number fun _ => after) := by
  obtain ⟨client, agenda, directory⟩ := upon
  have found' : ((s.pop []).note (.command wanted)).directory.services[number]? = some service := by
    rw [← found, ← directory]
    rfl
  let w : State κ := ⟨s.client, s.directory.modify number fun _ => after, s.replies ++ [],
    [answer (.ok ())], .command wanted :: s.history⟩
  have asked : (s.pop []).carryOut (.command wanted) = w :=
    (asks _).trans (State.ask_eq found' accepted)
  have begun : Step (Searching id) s w := asked ▸ .carryOut agenda
  have answered : Step (Searching id) w ((w.pop []).raise event) := raises _ ▸ .carryOut rfl
  have returns : collect returned? ((w.pop []).raise event).done = collect returned? s.done := by
    change collect returned? (wanted :: s.done) = _
    rw [Command.collect_cons, silent]
    rfl
  refine ⟨_, ⟨.tail (.single begun) answered, returns⟩, ?_⟩
  have handled' : w.client.handle event = effect := client ▸ handled
  rw [← handled', ← directory]
  exact ⟨rfl, List.append_nil _, rfl⟩

/-- A session is set up over a service that lives and does not know the client under its number. -/
theorem goes_of_install {number : Nat} {service : Service Party Party}
    (upon : s.Upon (c.install id goal version number) d)
    (found : d.services[number]? = some service) (alive : service.alive = true)
    (within : service.Within c.generation) :
    let session : Session Nat := ⟨version, number, c.generation + 1⟩
    ∃ t services, Goes id s t ∧
      t.Upon ({ c with session := some session, generation := session.generation }.leaveGate id goal
        (.ok session)) { d with services } := by
  intro session
  let c' : Client κ Nat := { c with session := some session, generation := session.generation }
  have fresh : session.generation ∉ service.recipients.map (·.cookie) := by
    intro known
    obtain ⟨recipient, listed, same⟩ := List.mem_map.1 known
    exact Nat.not_succ_le_self _ (same ▸ within recipient listed)
  obtain ⟨linked, accepted⟩ : ∃ linked, service.link ⟨session.generation, .client⟩ = .ok linked :=
    ⟨_, Service.link_eq_ok.2 ⟨alive, fresh, rfl⟩⟩
  have moved := Client.handle_linked (Client.call?_putCall c' id (.connecting goal (.linking session)))
  rw [Client.putCall_putCall] at moved
  have current : c'.isCurrent session.generation = true :=
    Client.isCurrent_iff.2 ⟨session, rfl, rfl⟩
  have left := Client.handle_routed
    (Client.call?_putCall c' id (.connecting goal (.routing session))) current
  rw [Client.leaveGate_putCall] at left
  obtain ⟨u, first, upon⟩ := goes_of_ask id (.linked id)
    (fun service => (service.link ⟨session.generation, .client⟩).map fun after => (after, none))
    upon (fun _ => rfl) (fun _ => rfl) rfl found (by rw [accepted]; rfl) moved
  obtain ⟨v, second, upon⟩ := goes_of_ask id (.routed id)
    (fun service => .ok (service.route .client, none)) upon (fun _ => rfl) (fun _ => rfl) rfl
    (Directory.services_modify found _) rfl left
  exact ⟨v, _, first.trans second, upon⟩

/-! ## What a discovery comes to -/

theorem State.Does.madeWith {settings : Settings} {raised : Event κ Nat → Prop}
    {added : List (Item κ) → Prop} (does : u.Does raised added t) (valid : u.client.Valid)
    (made : u.client.MadeWith settings) : t.client.MadeWith settings := by
  cases does with
  | @raises v event _ client =>
    rw [← client] at valid made
    exact (Client.handle_move valid event).madeWith made
  | adds _ _ client => rwa [client]

theorem madeWith_of_leads {settings : Settings} {allowed : State κ → Act κ → Prop}
    (run : Leads allowed (.initial settings) s) : s.client.MadeWith settings := by
  induction run with
  | refl => exact Client.madeWith_ofSettings settings
  | @tail u v run step ih =>
    have valid := ((State.wired_initial settings).leads run).valid
    cases step with
    | act act => exact (u.does_act act).madeWith valid ih
    | @carryOut item rest =>
      obtain ⟨w, client, -, -, -, does⟩ := u.does_carryOut item rest
      rw [← client] at valid ih
      exact does.madeWith valid ih

/-- What a discovery among these versions has come to, with at most this many passes after the
first: a session over the newest live service, or nothing and no other change of the client. -/
structure State.Discovered (s t : State κ) (versions : List Version) (budget : Nat)
    (found : Except Error (Session Nat)) : Prop where
  found_iff : ∀ session : Session Nat, found = .ok session ↔
    s.directory.Newest versions session.version session.connection ∧
      session.generation = s.client.generation + 1 ∧
      s.directory.failuresWithin versions ≤ budget
  cached : ∀ session, found = .ok session →
    t.client = { s.client with session := some session, generation := session.generation }
  unavailable : ∀ why, found = .error why → why = .unavailable ∧ t.client = s.client
  spent : s.directory.Spent t.directory (s.directory.reach versions)
    (min (s.directory.failuresWithin versions) (budget + 1))

section Discovered

variable {versions : List Version} {budget : Nat}
  (spent : s.directory.Spent t.directory (s.directory.reach versions)
    (min (s.directory.failuresWithin versions) (budget + 1)))
include spent

/-- A discovery may find nothing where no service is in reach within the passes left. -/
theorem State.discovered_of_nothing (client : t.client = s.client)
    (nothing : ∀ version number, s.directory.Newest versions version number →
      ¬s.directory.failuresWithin versions ≤ budget) :
    s.Discovered t versions budget (.error .unavailable) where
  found_iff _ := ⟨nofun, fun ⟨newest, _, few⟩ => absurd few (nothing _ _ newest)⟩
  cached _ := nofun
  unavailable := by
    rintro _ ⟨⟩
    exact ⟨rfl, client⟩
  spent := spent

/-- A discovery that leaves a session over the newest live service has found it. -/
theorem State.discovered_of_newest {number : Nat}
    (newest : s.directory.Newest versions version number)
    (few : s.directory.failuresWithin versions ≤ budget) {session : Session Nat}
    (found : session = ⟨version, number, s.client.generation + 1⟩)
    (client : t.client =
      { s.client with session := some session, generation := session.generation }) :
    s.Discovered t versions budget (.ok session) where
  found_iff other := by
    subst found
    refine ⟨?_, fun ⟨newest', next, _⟩ => ?_⟩
    · rintro ⟨⟩
      exact ⟨newest, rfl, few⟩
    · obtain ⟨version', connection, generation⟩ := other
      obtain ⟨rfl, rfl⟩ := newest.unique newest'
      cases next
      rfl
  cached := by
    rintro _ ⟨⟩
    exact client
  unavailable _ := nofun
  spent := spent

end Discovered

/-- The call returns what it has found, and that is all. -/
theorem Goes.exists_return {found : Except Error (Session Nat)} (goes : Goes id s t)
    (upon : t.Upon (c, [.finish id (.session found)]) d) :
    ∃ u, Leads (Searching id) s u ∧ u.Upon (c, []) d ∧
      collect returned? u.done = (id, found) :: collect returned? s.done := by
  obtain ⟨client, agenda, directory⟩ := upon
  refine ⟨_, goes.leads.tail (.carryOut agenda), ⟨client, rfl, directory⟩, ?_⟩
  exact congrArg ((id, found) :: ·) goes.returns

section Discovery

variable {settings : Settings} (made : s.client.MadeWith settings)
  (supported : settings.mobileNetwork = true) (idle : s.agenda = [])
  (disconnected : s.client.session = none) (empty : s.client.gate = .empty)
  (unused : s.client.call? id = none)
include made supported idle disconnected empty unused

/-- The search of a call that begins at an empty gate goes on to the end of its rounds. -/
theorem goes_of_call :
    let whole := s.client.rounds (s.client.pass Directory.lookUp) s.directory
    ∃ t, Goes id (s.act (.event (.call id .acquire))) t ∧
      t.Upon ({ s.client with gate := s.client.gate.enter id }.settle id .acquire whole.ending)
        whole.provider := by
  intro whole
  have free : s.client.gate.holder = none := by rw [empty]; rfl
  have handled := Client.handle_call_of_free (made.supported.trans supported) disconnected unused free
    .acquire
  have begun : (s.act (.event (.call id .acquire))).Upon
      ({ s.client with gate := s.client.gate.enter id }.probe id .acquire s.client.freshBackoff
        s.client.candidates) s.directory := by
    rw [← handled]
    refine ⟨rfl, ?_, rfl⟩
    rw [State.act, State.raise, idle, List.append_nil]
  obtain ⟨t, first, upon⟩ := goes_of_pass begun
  obtain ⟨u, second, upon⟩ := goes_of_follow upon
  exact ⟨u, first.trans second, upon⟩

/-- The search comes to its end, and the call returns what it has found. -/
theorem exists_discovered (alone : s.Alone) (computable : settings.Computable) :
    ∃ t found, Leads (Searching id) (s.act (.event (.call id .acquire))) t ∧ t.agenda = [] ∧
      t.client.call? id = none ∧
      collect returned? t.done = (id, found) :: collect returned? s.done ∧
      s.Discovered t (Version.newestFirst settings.candidates) settings.attempts found := by
  obtain ⟨t, goes, upon⟩ := goes_of_call made supported idle disconnected empty unused
  have descending : Version.Descending s.client.candidates :=
    made.candidates ▸ (Version.descending_newestFirst settings.candidates).1
  obtain ⟨outcome, ending, searched, finds, interrupted⟩ :=
    alone.tidy.honest.rounds_searched descending (made.computable computable)
  rw [made.budget_eq] at searched finds interrupted
  change (s.client.rounds (s.client.pass Directory.lookUp) s.directory).ending = _ at ending
  rw [ending] at upon
  rw [← made.candidates]
  cases outcome with
  | error why =>
    change t.Upon (Client.leaveGate _ id .acquire (.error .unavailable)) _ at upon
    rw [Client.leaveGate_of_entered empty unused] at upon
    obtain ⟨u, leads, ⟨client, agenda, directory⟩, returned⟩ := goes.exists_return upon
    refine ⟨u, _, leads, agenda, client ▸ unused, returned,
      State.discovered_of_nothing (directory ▸ searched.toSpent) client ?_⟩
    intro version number newest few
    cases (finds few).eq_of_newest newest
  | ok found =>
    obtain ⟨version, number⟩ := found
    have few : s.directory.failuresWithin s.client.candidates ≤ settings.attempts := by
      by_contra more
      obtain ⟨why, failed⟩ := interrupted (Nat.lt_of_not_le more)
      cases failed
    obtain ⟨newest⟩ := finds few
    let session : Session Nat := ⟨version, number, s.client.generation + 1⟩
    let c : Client κ Nat :=
      { s.client with session := some session, generation := session.generation }
    obtain ⟨service, listed, alive⟩ := Directory.exists_of_live newest.live
    obtain ⟨u, services, sets, upon⟩ := goes_of_install upon (searched.services ▸ listed) alive
      (alone.tidy.within number service listed)
    change u.Upon ({ c with gate := c.gate.enter id }.leaveGate id .acquire (.ok session)) _ at upon
    rw [Client.leaveGate_of_entered (c := c) empty unused] at upon
    obtain ⟨v, leads, ⟨client, agenda, directory⟩, returned⟩ := (goes.trans sets).exists_return upon
    exact ⟨v, _, leads, agenda, client ▸ unused, returned, State.discovered_of_newest
      (directory ▸ searched.toSpent.withServices services) newest few rfl client⟩

end Discovery

/-- The candidates are listed newest first, each once. A call that acquires a session while there is
none, and while nothing else happens and nobody else has ever registered for a death, comes to one
end, whichever services are registered and live and however often lookups are to fail. It returns a
session over the newest candidate that has a live service, under the next number, if such a candidate
exists and the failures of the candidates that are not older are no more than the passes that the
policy allows after the first, all together; otherwise it returns that the service is unavailable. It
uses up as many of these failures as there are, but at most one for each pass, those of newer
candidates first, and looks up no older candidate. -/
theorem newest_discovered {settings : Settings} {allowed : State κ → Act κ → Prop}
    (run : Leads allowed (.initial settings) s)
    (own : ∀ (s : State κ) act, allowed s act → act.isForeignLink = false)
    (computable : settings.Computable) (supported : settings.mobileNetwork = true)
    (idle : s.agenda = []) (disconnected : s.client.session = none)
    (free : s.client.gate.holder = none) (unused : s.client.call? id = none) :
    (Version.Descending (Version.newestFirst settings.candidates) ∧
      ∀ version, version ∈ Version.newestFirst settings.candidates ↔
        version ∈ settings.candidates) ∧
    ∃ t found, Leads (Searching id) (s.act (.event (.call id .acquire))) t ∧
      (∀ u, Leads (Searching id) (s.act (.event (.call id .acquire))) u →
        Leads (Searching id) u t) ∧
      t.agenda = [] ∧ collect returned? t.done = (id, found) :: collect returned? s.done ∧
      s.Discovered t (Version.newestFirst settings.candidates) settings.attempts found := by
  refine ⟨Version.descending_newestFirst settings.candidates, ?_⟩
  have empty : s.client.gate = .empty :=
    ((State.wired_initial settings).leads run).valid.gate_eq_empty free
  obtain ⟨t, found, leads, done, ended, returned, discovered⟩ :=
    exists_discovered (madeWith_of_leads run) supported idle disconnected empty unused
      (alone_of_leads own run) computable
  exact ⟨t, found, leads, fun u => leads_to_end leads done ended, done, returned, discovered⟩

/-- The newest candidate has a live service, and the older one as well, but its first lookup fails. The
call tries again, and acquires a session over the newest one. -/
theorem newest_discovered_of_interruption :
    ∃ s t : State Nat,
      Leads (fun _ act => act.isForeignLink = false)
        (.initial { Settings.standard with
          candidates := [⟨1, 0⟩, ⟨1, 3⟩]
          retry := some { RetryPolicy.standard with maxAttempts := 1 } }) s ∧
        s.directory.failuresLeft ⟨1, 3⟩ = 1 ∧
        Leads (Searching 0) (s.act (.event (.call 0 .acquire))) t ∧
        collect returned? t.done = [(0, .ok ⟨⟨1, 3⟩, 1, 1⟩)] ∧
        t.client.session = some ⟨⟨1, 3⟩, 1, 1⟩ ∧ t.directory.failuresLeft ⟨1, 3⟩ = 0 := by
  let settings := { Settings.standard with
    candidates := [⟨1, 0⟩, ⟨1, 3⟩], retry := some { RetryPolicy.standard with maxAttempts := 1 } }
  have order : Version.newestFirst settings.candidates = [⟨1, 3⟩, ⟨1, 0⟩] := by
    refine Version.newestFirst_eq (.cons (by decide) (List.pairwise_singleton _ _)) fun v => ?_
    simp [settings, or_comm]
  obtain ⟨s, run, client, directory, idle, returned⟩ : ∃ s : State Nat,
      Leads (fun _ act => act.isForeignLink = false) (.initial settings) s ∧
        s.client = { Client.ofSettings settings with candidates := [⟨1, 3⟩, ⟨1, 0⟩] } ∧
        s.directory =
          ((Directory.empty.register ⟨1, 0⟩).register ⟨1, 3⟩).failDiscovery ⟨1, 3⟩ 1 ∧
        s.agenda = [] ∧ s.done = [] := by
    rw [initial_of_candidates _ order]
    exact ⟨_, .tail (.tail (.tail .refl (.act (.register ⟨1, 0⟩) trivial rfl))
      (.act (.register ⟨1, 3⟩) trivial rfl)) (.act (.failDiscovery ⟨1, 3⟩ 1) trivial rfl),
      rfl, rfl, rfl, rfl⟩
  have computable : settings.Computable := by
    rintro _ ⟨⟩
    exact Backoff.computable_once
  have unused : s.client.call? 0 = none := by
    rw [client]
    rfl
  obtain ⟨-, t, found, leads, -, -, finish, discovered⟩ := newest_discovered run
    (fun _ _ own => own) computable rfl idle (by rw [client]; rfl) (by rw [client]; rfl) unused
  rw [order] at discovered
  have newest : s.directory.Newest [⟨1, 3⟩, ⟨1, 0⟩] ⟨1, 3⟩ 1 := by
    rw [directory]
    exact ⟨.head _, rfl, by decide +kernel⟩
  have failures : s.directory.failuresWithin [⟨1, 3⟩, ⟨1, 0⟩] = 1 := by
    rw [directory]
    decide +kernel
  have generation : s.client.generation = 0 := by
    rw [client]
    rfl
  have same : found = .ok ⟨⟨1, 3⟩, 1, 1⟩ :=
    (discovered.found_iff _).2 ⟨newest, by rw [generation], failures.le⟩
  refine ⟨s, t, run, by rw [directory]; rfl, leads, ?_, ?_, ?_⟩
  · rw [finish, same, returned]
    rfl
  · rw [discovered.cached _ same]
  · have reach : s.directory.reach [⟨1, 3⟩, ⟨1, 0⟩] = [⟨1, 3⟩] := by
      rw [directory]
      decide +kernel
    have failures' := discovered.spent.failures
    rw [reach, failures, directory] at failures'
    exact List.cons.inj failures' |>.1

end Baseband.Network
