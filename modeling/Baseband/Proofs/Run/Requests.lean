import Baseband.Proofs.Client.Changes
import Baseband.Proofs.Run.Basic

/-!
# No request outlives its session

Requests are entered into the table under the cached session only, and a session ends together with
the table. So at every moment of a run the requests in the table belong to the session cached then,
and without a session there are none.
-/

namespace Baseband.Run

variable {κ α : Type} {settings : Settings} {allowed : State κ α → Event κ α → Prop}
  {s : State κ α} {past : List (State κ α)}

def ByCalls (_ : State κ α) : Event κ α → Prop
  | .submit .. => False
  | _ => True

/-- A request is entered into the table from one state to the next, while a session is cached over
which it is sent. -/
structure Entered (request : Request κ) (session : Session α) (before after : State κ α) :
    Prop where
  cached : before.client.session = some session
  stays : after.client.session = some session
  new : request ∉ before.client.outstanding.toList
  listed : request ∈ after.client.outstanding.toList
  sent : ∃ id payload,
    .send id session.connection request.serial request.operation payload ∈ after.agenda

/-- The table is sound throughout a run. -/
theorem sound (run : Run settings allowed s past) : s.client.outstanding.Sound := by
  refine run.invariant (P := fun s => s.client.outstanding.Sound) Outstanding.sound_empty ?_ ?_
  · intro s event valid sound _ _
    exact (Client.handle_move valid event).table.sound sound
  · intro s command rest sound _
    exact sound

/-- After a step, a request in the table was there before, under the session that is still cached,
or it has been entered in this step. -/
theorem Step.requests {t : State κ α} (step : Step ByCalls s t) (valid : s.client.Valid)
    (sound : s.client.outstanding.Sound)
    (nothing : s.client.session = none → s.client.outstanding.toList = [])
    {request : Request κ} (listed : request ∈ t.client.outstanding.toList) :
    ∃ session, t.client.session = some session ∧
      (request ∈ s.client.outstanding.toList ∧ s.client.session = some session ∨
        Entered request session s t) := by
  have under {request : Request κ} (listed : request ∈ s.client.outstanding.toList) :
      ∃ session, s.client.session = some session := by
    cases cached : s.client.session with
    | none => simp [nothing cached] at listed
    | some session => exact ⟨session, rfl⟩
  cases step with
  | raise event calls =>
    have move := Client.handle_move valid event
    have direct : ∀ op completion attribution, event ≠ .submit op completion attribution := by
      rintro op completion attribution rfl
      exact calls
    rcases move.table.origin direct listed with before | ⟨sending, sent, registered⟩
    · obtain ⟨session, cached⟩ := under before
      obtain ⟨links, change⟩ : ∃ links, Client.SessionChange s.client _ links := ⟨_, move.session⟩
      cases change with
      | kept same => exact ⟨session, same.trans cached, .inl ⟨before, cached⟩⟩
      | installed _ none => simp [none] at cached
      | ended _ _ _ table => simp [table] at listed
    · obtain ⟨session, cached, stays, connection⟩ := registered.session
      refine ⟨session, stays, .inr ⟨cached, stays, sound.new registered.age, listed, ?_⟩⟩
      refine ⟨sending.id, sending.payload, List.mem_append_left _ ?_⟩
      rw [← connection, ← registered.serial, ← registered.operation]
      exact Command.mem_collect_send.1 sent
  | carryOut =>
    obtain ⟨session, cached⟩ := under listed
    exact ⟨session, cached, .inl ⟨listed, cached⟩⟩

/-- Without a session nothing is outstanding. -/
theorem nothing_outstanding (run : Run settings ByCalls s past)
    (none : s.client.session = none) : s.client.outstanding.toList = [] := by
  induction run with
  | start => exact Outstanding.toList_empty
  | step run step ih =>
    refine List.eq_nil_iff_forall_not_mem.2 fun request listed => ?_
    obtain ⟨session, cached, -⟩ := step.requests run.valid run.sound ih listed
    simp [none] at cached

/-- At every moment of a run, no request is outstanding if no session is cached, and if one is, then
every outstanding request has been entered and sent while it was cached, and it has been cached ever
since. -/
theorem requests_under_session (run : Run settings ByCalls s past) :
    (s.client.session = none → s.client.outstanding.toList = []) ∧
    ∀ session, s.client.session = some session → ∀ request ∈ s.client.outstanding.toList,
      ∃ later after before earlier, s :: past = later ++ after :: before :: earlier ∧
        Entered request session before after ∧
        ∀ between ∈ later, between.client.session = some session := by
  refine ⟨run.nothing_outstanding, ?_⟩
  induction run with
  | start =>
    intro session cached
    cases cached
  | @step s t past run step ih =>
    intro session cached request listed
    obtain ⟨other, now, before | entered⟩ :=
      step.requests run.valid run.sound run.nothing_outstanding listed
    · obtain rfl : other = session := Option.some.inj (now.symm.trans cached)
      obtain ⟨later, after, before, earlier, split, entered, since⟩ :=
        ih other before.2 request before.1
      refine ⟨t :: later, after, before, earlier, by rw [split, List.cons_append], entered, ?_⟩
      exact List.forall_mem_cons.2 ⟨cached, since⟩
    · obtain rfl : other = session := Option.some.inj (now.symm.trans cached)
      exact ⟨[], t, s, past, rfl, entered, by simp⟩

/-- A request that has just been sent over the first session. -/
theorem requests_under_session_of_first :
    ∃ (s : State Nat Nat) (past : List (State Nat Nat)) (session : Session Nat)
      (request : Request Nat),
      Run { Settings.standard with candidates := [⟨1, 3⟩] } ByCalls s past ∧
        s.client.session = some session ∧ request ∈ s.client.outstanding.toList ∧
        ∃ later after before earlier, s :: past = later ++ after :: before :: earlier ∧
          Entered request session before after ∧
          ∀ between ∈ later, between.client.session = some session := by
  obtain ⟨s, past, run, session, -, found, -⟩ :=
    exists_request_sent ByCalls (fun _ _ _ => trivial)
      (fun s event goes => by cases event <;> trivial)
  have listed := Outstanding.mem_toList.2 ⟨_, found⟩
  exact ⟨s, past, _, _, run, session, listed,
    (requests_under_session run).2 _ session _ listed⟩

end Baseband.Run
