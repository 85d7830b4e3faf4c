import Baseband.Proofs.Client.Sharing
import Baseband.Proofs.Run.Acquire
import Baseband.Proofs.Run.Responses

/-!
# Probing is serialised and shared

Only the call that holds the gate looks versions up, and only while there is no session. So what a
run looks up is looked up by one call after another, and no call comes back to it. Those who wait
meanwhile share the session that is set up.
-/

namespace Baseband.Run

open scoped List
open Command (collect discover?)

variable {κ α : Type} {settings : Settings} {allowed : State κ α → Event κ α → Prop}
  {s : State κ α} {past : List (State κ α)}

def Numbered (s : State κ α) : Event κ α → Prop
  | .call id _ => ∀ goal, .call id goal ∉ s.events
  | _ => True

/-- Whether the deployment is supported is said by the settings for good. -/
theorem supported_eq (run : Run settings allowed s past) :
    s.client.supported = settings.mobileNetwork := by
  induction run with
  | start => rfl
  | step run step ih =>
    cases step with
    | raise event => exact (Client.handle_move run.valid event).supported.trans ih
    | carryOut => exact ih

/-! ## Attempts -/

structure Attempt where
  id : CallId
  versions : List Version

def Attempt.lookups (attempt : Attempt) : List (CallId × Version) :=
  attempt.versions.map fun version => (attempt.id, version)

def callers (attempts : List Attempt) : List CallId :=
  attempts.map (·.id)

/-- What has been looked up is divided into the attempts of calls that have begun. A call that waits
has made none yet, and a call that connects can only go on with the latest. -/
structure Divided (s : State κ α) (log : List (CallId × Version)) (attempts : List Attempt) :
    Prop where
  whole : log = attempts.flatMap Attempt.lookups
  once : (callers attempts).Nodup
  tried : ∀ attempt ∈ attempts, attempt.versions ≠ []
  begun : ∀ id ∈ callers attempts, ∃ goal, .call id goal ∈ s.events
  waiting : ∀ id goal, (id, .connecting goal .queued) ∈ s.client.calls → id ∉ callers attempts
  latest : ∀ id goal stage, (id, .connecting goal stage) ∈ s.client.calls →
    id ∈ callers attempts → (callers attempts).getLast? = some id

/-- With its first lookup a call begins an attempt, with any other it goes on with the latest. -/
theorem exists_attempts {attempts : List Attempt} {id : CallId} (version : Version)
    (once : (callers attempts).Nodup) (tried : ∀ attempt ∈ attempts, attempt.versions ≠ [])
    (latest : id ∈ callers attempts → (callers attempts).getLast? = some id) :
    ∃ attempts', attempts'.flatMap Attempt.lookups =
        attempts.flatMap Attempt.lookups ++ [(id, version)] ∧
      (callers attempts').Nodup ∧ (∀ attempt ∈ attempts', attempt.versions ≠ []) ∧
      (callers attempts').getLast? = some id ∧
      ∀ other, other ∈ callers attempts' ↔ other ∈ callers attempts ∨ other = id := by
  by_cases known : id ∈ callers attempts
  · -- the last attempt is that of this call, so its lookups are at the end of the log
    obtain ⟨earlier, split⟩ := List.getLast?_eq_some_iff.1 (latest known)
    obtain ⟨before, now, rfl, rfl, single⟩ := List.map_eq_append_iff.1 split
    obtain ⟨last, rfl, rfl⟩ := List.map_eq_singleton_iff.1 single
    refine ⟨before ++ [⟨last.id, last.versions ++ [version]⟩], ?_, ?_, ?_, ?_, ?_⟩
    · simp [Attempt.lookups]
    · simpa [callers] using once
    · rw [List.forall_mem_append] at tried ⊢
      exact ⟨tried.1, by simp⟩
    · simp [callers]
    · simp [callers]
  · refine ⟨attempts ++ [⟨id, [version]⟩], ?_, ?_, ?_, ?_, ?_⟩
    · simp [Attempt.lookups]
    · rw [callers, List.map_append, List.map_singleton, ← List.concat_eq_append]
      exact once.concat known
    · exact List.forall_mem_append.2 ⟨tried, by simp⟩
    · simp [callers]
    · simp [callers]

/-- An event without a lookup leaves the division as it is. -/
theorem Divided.idle {log : List (CallId × Version)} {attempts : List Attempt}
    (divided : Divided s log attempts) (valid : s.client.Valid) {event : Event κ α}
    (numbered : Numbered s event) : Divided (s.raise event) log attempts where
  whole := divided.whole
  once := divided.once
  tried := divided.tried
  begun id known := by
    obtain ⟨goal, begun⟩ := divided.begun id known
    exact ⟨goal, .tail _ begun⟩
  waiting id goal listed known := by
    rcases (Client.handle_move valid event).queued listed with before | rfl
    · exact divided.waiting id goal before known
    · obtain ⟨goal', begun⟩ := divided.begun id known
      exact numbered goal' begun
  latest id goal stage listed known := by
    rcases (Client.handle_move valid event).continues listed with before | ⟨goal', asks, -⟩
    · exact divided.latest id goal stage before known
    · rcases asks with rfl | ⟨stage', found⟩
      · obtain ⟨goal'', begun⟩ := divided.begun id known
        exact absurd begun (numbered goal'')
      · exact divided.latest id goal' stage' (Client.mem_calls_of_call? found) known

/-- The call past the gate adds its lookup to the latest attempt, or begins one. -/
theorem Divided.lookup {log : List (CallId × Version)} {attempts : List Attempt}
    (divided : Divided s log attempts) (run : Run settings Numbered s past) {event : Event κ α}
    (numbered : Numbered s event) {id : CallId} {version : Version}
    (looks : s.client.Looks event (s.raise event).client id version) :
    ∃ attempts', Divided (s.raise event) (log ++ [(id, version)]) attempts' := by
  obtain ⟨inside, -, after⟩ := looks
  -- nobody else is past the gate, and who waits has made no attempt yet
  have others : ∀ other goal' stage,
      (other, .connecting goal' stage) ∈ (s.raise event).client.calls → other ≠ id →
      (other, .connecting goal' .queued) ∈ s.client.calls := by
    intro other goal' stage listed differ
    rw [after, Client.mem_calls_putCall] at listed
    obtain ⟨listed, -⟩ := listed.resolve_right fun same => differ same.1
    obtain rfl := inside.alone other goal' stage listed differ
    exact listed
  have latest : id ∈ callers attempts → (callers attempts).getLast? = some id := by
    intro known
    rcases inside.origin with ⟨rfl, -⟩ | ⟨-, -, stage, found⟩
    · obtain ⟨goal', begun⟩ := divided.begun id known
      exact absurd begun (numbered goal')
    · exact divided.latest id _ stage (Client.mem_calls_of_call? found) known
  obtain ⟨attempts', whole, once, tried, last, members⟩ :=
    exists_attempts version divided.once divided.tried latest
  refine ⟨attempts', ?_, once, tried, ?_, ?_, ?_⟩
  · rw [divided.whole, whole]
  · intro other known
    rcases (members other).1 known with known | rfl
    · obtain ⟨goal', begun⟩ := divided.begun other known
      exact ⟨goal', .tail _ begun⟩
    · exact ⟨_, run.asks_begun inside.asks⟩
  · intro other goal' listed known
    by_cases own : other = id
    · subst own
      rw [after, Client.mem_calls_putCall] at listed
      rcases listed with ⟨-, differ⟩ | ⟨-, same⟩
      · exact differ rfl
      · cases same
    · refine divided.waiting other goal' (others other goal' _ listed own) ?_
      exact ((members other).1 known).resolve_right own
  · intro other goal' stage listed known
    by_cases own : other = id
    · rw [own, last]
    · have known := ((members other).1 known).resolve_right own
      exact absurd known (divided.waiting other goal' (others other goal' stage listed own))

def discoveries (settings : Settings) (s : State κ α) : List (CallId × Version) :=
  collect discover? ((Client.ofSettings settings).left s.events)

/-- At any time of a run, what has been looked up is divided into attempts. -/
theorem discoveries_divided (run : Run settings Numbered s past) :
    ∃ attempts, Divided s (discoveries settings s) attempts := by
  induction run with
  | start => exact ⟨[], rfl, .nil, nofun, nofun, nofun, nofun⟩
  | @step s t past run step ih =>
    obtain ⟨attempts, divided⟩ := ih
    cases step with
    | raise event numbered =>
      have move := Client.handle_move run.valid event
      have log : discoveries settings (s.raise event) =
          discoveries settings s ++ collect discover? (s.client.handle event).2 := by
        rw [discoveries, State.events_raise, Client.left_cons, Command.collect_append,
          ← run.client_eq_after, discoveries]
      rw [log]
      rcases move.lookups with nothing | ⟨id, version, looks, one⟩
      · rw [nothing, List.append_nil]
        exact ⟨attempts, divided.idle run.valid numbered⟩
      · rw [one]
        exact divided.lookup run numbered looks
    | carryOut =>
      exact ⟨attempts, divided.whole, divided.once, divided.tried, divided.begun, divided.waiting,
        divided.latest⟩

/-- A version is looked up only on a deployment with the service, by the call that holds the gate,
and while no session is cached; so what a run looks up is divided into the attempts of different
calls, one after another. Once a call has set up a session that has not been lost meanwhile, or has
returned one that it had to wait for, those who wait share it. -/
theorem probing_serialised_and_shared (run : Run settings Numbered s past) :
    (∀ event id version, .discover id version ∈ (s.client.handle event).2 →
      settings.mobileNetwork = true ∧ (s.raise event).client.gate.holder = some id ∧
        (s.raise event).client.session = none) ∧
    discoveries settings s ~ s.issued discover? ∧
    (∃ attempts : List Attempt, discoveries settings s = attempts.flatMap Attempt.lookups ∧
      (attempts.map (·.id)).Nodup ∧
      ∀ attempt ∈ attempts, attempt.versions ≠ [] ∧ ∃ goal, .call attempt.id goal ∈ s.events) ∧
    (∀ id goal session, s.client.call? id = some (.connecting goal (.routing session)) →
      s.client.session = some session →
      (s.raise (.routed id (.ok ()))).client.Shared session) ∧
    ∀ event id stage session, s.client.call? id = some (.connecting .acquire stage) →
      .finish id (.session (.ok session)) ∈ (s.client.handle event).2 →
      (s.raise event).client.Shared session := by
  refine ⟨fun event id version discovers => ?_, ?_, ?_, ?_, ?_⟩
  · rw [← run.supported_eq]
    exact (Client.handle_move run.valid event).of_discover discovers
  · rw [State.issued, ← Command.collect_append]
    exact run.left_perm.filterMap _
  · obtain ⟨attempts, divided⟩ := run.discoveries_divided
    refine ⟨attempts, divided.whole, divided.once, fun attempt listed => ?_⟩
    exact ⟨divided.tried attempt listed, divided.begun _ (List.mem_map_of_mem listed)⟩
  · intro id goal session routing cached
    exact (run.valid.settled_of_routed routing cached).shared (run.valid.handle _)
  · intro event id stage session asked returned
    have settled := (Client.handle_move run.valid event).settled asked returned
    exact settled.shared (run.valid.handle event)

/-- A second call that waits while the first one connects has the first session in its turn. -/
theorem probing_serialised_and_shared_of_two :
    ∃ (s : State Nat Nat) (past : List (State Nat Nat)),
      Run { Settings.standard with candidates := [⟨1, 3⟩] } Numbered s past ∧
        (s.raise (.routed 0 (.ok ()))).client.Shared ⟨⟨1, 3⟩, 3, 1⟩ ∧
        (s.raise (.routed 0 (.ok ()))).client.call? 1 = some (.connecting .acquire .queued) := by
  have fresh : ∀ goal, (.call 1 goal : Event Nat Nat) ∉ [.call 0 .acquire] := by simp
  have run : Run (κ := Nat) (α := Nat) { Settings.standard with candidates := [⟨1, 3⟩] } Numbered
      _ _ :=
    start_of_candidates [⟨1, 3⟩] (by decide +kernel)
      |>.step (.raise (.call 0 .acquire) nofun fun _ => by decide)
      |>.step (.carryOut rfl)
      |>.step (.raise (.call 1 .acquire) fresh fun _ => by decide)
      |>.step (.raise (.found 0 (.ok (3, ⟨1, 3⟩))) trivial fun _ => by decide)
      |>.step (.carryOut rfl)
      |>.step (.raise (.linked 0 (.ok ())) trivial fun _ => by decide)
      |>.step (.carryOut rfl)
  refine ⟨_, _, run, ?_, rfl⟩
  exact (probing_serialised_and_shared run).2.2.2.1 0 .acquire _ rfl rfl

end Baseband.Run
