import Baseband.Proofs.Client.Setup

/-!
# What a call looks up

A call looks the candidates up one after another, each pass from the first candidate on. So the
version that it waits for is one that it has asked for, and it is a candidate, as are those that it
has before it in this pass. A session is installed only as the answer to such a lookup.
-/

namespace Baseband

namespace Client

variable {κ α : Type} {c c' : Client κ α} {event : Event κ α} {commands : List (Command κ α)}
  {id : CallId}

/-! ## Going through candidates -/

/-- The candidates are those that the client was made with. -/
theorem Move.candidates (move : Move c event c' commands) : c'.candidates = c.candidates := by
  cases move with
  | conclude _ conclusion => cases conclusion <;> rfl
  | leave _ conclusion => cases conclusion <;> rfl
  | _ => rfl

/-- If the call waits for a lookup now, then it has just asked for the first of these versions, and
has the others before it. -/
def Scans (effect : Effect κ α) (id : CallId) (versions : List Version) : Prop :=
  ∀ goal version rest backoff,
    effect.1.call? id = some (.connecting goal (.probing version rest backoff)) →
      version :: rest = versions ∧ .discover id version ∈ effect.2

theorem scans_of_put {d : Client κ α} {goal : Goal κ} {stage : Stage α}
    (other : ∀ version rest backoff, stage ≠ .probing version rest backoff)
    (versions : List Version) :
    Scans (d.putCall id (.connecting goal stage), commands) id versions := by
  intro goal' version rest backoff found
  cases (call?_putCall d id _).symm.trans found
  exact absurd rfl (other _ _ _)

theorem scans_of_none (unused : c.call? id = none) (versions : List Version) :
    Scans (c, commands) id versions := by
  intro goal version rest backoff found
  cases unused.symm.trans found

theorem scans_conclude (unused : c.call? id = none) (goal : Goal κ)
    (found : Except Error (Session α)) (versions : List Version) :
    Scans (c.conclude id goal found) id versions := by
  unfold conclude
  split
  · exact scans_of_none unused versions
  · exact scans_of_none unused versions
  · split
    · exact scans_of_none unused versions
    · dsimp only
      split
      · intro goal' version rest backoff sending
        cases (call?_putCall _ id _).symm.trans sending
      · exact scans_of_none unused versions

theorem scans_leaveGate (c : Client κ α) (goal : Goal κ) (found : Except Error (Session α))
    (versions : List Version) : Scans (c.leaveGate id goal found) id versions := by
  intro goal' version rest backoff probing
  obtain ⟨same, asked⟩ := scans_conclude (call?_dropCall { c with gate := c.gate.leave } id) goal
    found versions goal' version rest backoff probing
  exact ⟨same, List.mem_append_right _ asked⟩

theorem scans_endPass (c : Client κ α) (goal : Goal κ) (backoff : Option Backoff) (why : Error)
    (versions : List Version) : Scans (c.endPass id goal backoff why) id versions := by
  unfold endPass
  split
  · exact scans_leaveGate c goal _ versions
  · exact scans_of_put (by rintro _ _ _ ⟨⟩) versions
  · exact scans_of_none (call?_dropCall _ id) versions

theorem scans_probe (c : Client κ α) (goal : Goal κ) (backoff : Option Backoff)
    (versions : List Version) : Scans (c.probe id goal backoff versions) id versions := by
  cases versions with
  | nil => exact scans_endPass c goal backoff _ _
  | cons version rest =>
    intro goal' version' rest' backoff' probing
    cases (call?_putCall c id _).symm.trans probing
    exact ⟨rfl, .head _⟩

theorem scans_search (c : Client κ α) (goal : Goal κ) :
    Scans (c.search id goal) id c.candidates := by
  unfold search
  split
  · exact scans_leaveGate c goal _ _
  · exact scans_probe c goal _ _

/-- A call that begins to look asks for the first candidate. -/
theorem scans_begin (unused : c.call? id = none) (goal : Goal κ) :
    Scans (c.begin id goal) id c.candidates := by
  unfold begin
  split
  · exact scans_conclude unused goal _ _
  · split
    · exact scans_conclude unused goal _ _
    · dsimp only
      split
      · exact scans_search { c with gate := c.gate.enter id } goal
      · exact scans_of_put (by rintro _ _ _ ⟨⟩) _

theorem scans_abandon (c : Client κ α) (goal : Goal κ) (session : Session α)
    (versions : List Version) : Scans (c.abandon id goal session) id versions :=
  scans_of_put (by rintro _ _ _ ⟨⟩) versions

/-- A connecting call goes on with the first candidate or with the rest of its pass, if it looks
anything up. -/
theorem scans_connect (c : Client κ α) (goal : Goal κ) (stage : Stage α) (event : Event κ α) :
    c.connect id goal stage event = (c, []) ∨
      ∃ versions, Scans (c.connect id goal stage event) id versions ∧
        (versions = c.candidates ∨ ∃ looked backoff, stage = .probing looked versions backoff) := by
  unfold connect
  split
  · split
    · exact .inr ⟨_, scans_search c goal, .inl rfl⟩
    · exact .inl rfl
  · split
    · exact .inr ⟨_, scans_of_put (by rintro _ _ _ ⟨⟩) _, .inl rfl⟩
    · exact .inr ⟨_, scans_probe c goal _ _, .inr ⟨_, _, rfl⟩⟩
    · exact .inr ⟨_, scans_endPass c goal _ _ _, .inl rfl⟩
  · exact .inr ⟨_, scans_probe c goal _ _, .inl rfl⟩
  · split
    · exact .inr ⟨_, scans_of_put (by rintro _ _ _ ⟨⟩) _, .inl rfl⟩
    · exact .inr ⟨_, scans_abandon c goal _ _, .inl rfl⟩
  · split
    · exact .inr ⟨_, scans_leaveGate c goal _ _, .inl rfl⟩
    · exact .inr ⟨_, scans_abandon c goal _ _, .inl rfl⟩
  · exact .inr ⟨_, scans_leaveGate c goal _ _, .inl rfl⟩
  · exact .inl rfl

theorem scans_sendFailed (c : Client κ α) (serial : Serial) (generation : Nat)
    (versions : List Version) : Scans (c.sendFailed id serial generation) id versions := by
  unfold sendFailed
  dsimp only
  split
  · exact scans_of_none ((call?_teardown _ _ _).trans (call?_dropCall c id)) versions
  · split
    · exact scans_of_none (call?_dropCall { c with outstanding := _ } id) versions
    · exact scans_of_none (call?_dropCall c id) versions

/-- Cancelling a call lets at most one other in, which starts with the first candidate. -/
theorem scans_cancel (c : Client κ α) (id : CallId) :
    c.cancel id = (c, []) ∨ Scans (c.cancel id) id c.candidates := by
  unfold cancel
  split
  · split
    · split
      · exact .inr (scans_of_none (call?_dropCall _ id) _)
      · exact .inr (scans_of_none (call?_dropCall _ id) _)
    · exact .inr (scans_of_none (call?_dropCall _ id) _)
    · exact .inr (scans_of_none (call?_dropCall _ id) _)
    all_goals exact .inl rfl
  · exact .inr (scans_of_none (call?_dropCall c id) _)
  · exact .inl rfl

/-- A call that goes on asks for the candidate after the one looked up, or starts with the first. -/
theorem scans_advance (c : Client κ α) (event : Event κ α) :
    c.advance id event = (c, []) ∨
      ∃ versions, Scans (c.advance id event) id versions ∧
        (versions = c.candidates ∨
          ∃ goal looked backoff,
            c.call? id = some (.connecting goal (.probing looked versions backoff))) := by
  unfold advance
  split
  · rename_i event _ _ goal stage found
    rcases scans_connect c goal stage event with same | ⟨versions, scans, first | next⟩
    · exact .inl same
    · exact .inr ⟨versions, scans, .inl first⟩
    · obtain ⟨looked, backoff, rfl⟩ := next
      exact .inr ⟨versions, scans, .inr ⟨goal, looked, backoff, found⟩⟩
  · split
    · exact .inr ⟨_, scans_of_none (call?_dropCall c id) _, .inl rfl⟩
    · exact .inr ⟨_, scans_sendFailed c _ _ _, .inl rfl⟩
  · exact .inl rfl

/-- Whoever waits for a lookup has waited for it before, or has just asked for it: for the first
candidate, or for the next one in its pass. -/
theorem asked_of_probing {goal : Goal κ} {version : Version} {rest : List Version}
    {backoff : Option Backoff}
    (probing : (c.handle event).1.call? id =
      some (.connecting goal (.probing version rest backoff))) :
    c.call? id = some (.connecting goal (.probing version rest backoff)) ∨
      .discover id version ∈ (c.handle event).2 ∧
        (version :: rest = c.candidates ∨
          ∃ goal' looked before,
            c.call? id = some (.connecting goal' (.probing looked (version :: rest) before))) := by
  have advanced {effect : Effect κ α}
      (scans : effect = (c, []) ∨ ∃ versions, Scans effect id versions ∧
        (versions = c.candidates ∨ ∃ goal looked backoff,
          c.call? id = some (.connecting goal (.probing looked versions backoff))))
      (probing : effect.1.call? id = some (.connecting goal (.probing version rest backoff))) :
      c.call? id = some (.connecting goal (.probing version rest backoff)) ∨
        .discover id version ∈ effect.2 ∧ (version :: rest = c.candidates ∨
          ∃ goal' looked before,
            c.call? id = some (.connecting goal' (.probing looked (version :: rest) before))) := by
    rcases scans with rfl | ⟨versions, scans, origin⟩
    · exact .inl probing
    · obtain ⟨rfl, asked⟩ := scans goal version rest backoff probing
      exact .inr ⟨asked, origin⟩
  by_cases about : event.about? = some id
  · cases event with
    | call _ goal' =>
      cases about
      cases unused : c.call? id with
      | none =>
        simp only [handle, unused] at probing ⊢
        obtain ⟨first, asked⟩ := scans_begin unused goal' goal version rest backoff probing
        exact .inr ⟨asked, .inl first⟩
      | some call =>
        simp only [handle, unused] at probing
        exact .inl (unused.symm.trans probing)
    | cancel =>
      cases about
      rcases c.scans_cancel id with same | scans
      · simp only [handle, same] at probing
        exact .inl probing
      · obtain ⟨first, asked⟩ := scans goal version rest backoff probing
        exact .inr ⟨asked, .inl first⟩
    | admitted | found | rested | linked | routed | proceeded | sent =>
      cases about
      exact advanced (c.scans_advance _) probing
    | _ => cases about
  · rw [call?_handle_of_ne c about] at probing
    exact .inl probing

/-! ## Installing -/

theorem session_conclude (c : Client κ α) (goal : Goal κ) (found : Except Error (Session α)) :
    (c.conclude id goal found).1.session = c.session := by
  cases goal with
  | acquire | supports => rfl
  | request query completion =>
    cases found with
    | error why => rfl
    | ok session =>
      simp only [conclude]
      split <;> rfl

theorem session_endPass (c : Client κ α) (goal : Goal κ) (backoff : Option Backoff)
    (why : Error) : (c.endPass id goal backoff why).1.session = c.session := by
  unfold endPass
  split
  · exact session_conclude _ goal _
  · rfl
  · rfl

theorem session_probe (c : Client κ α) (goal : Goal κ) (backoff : Option Backoff)
    (versions : List Version) : (c.probe id goal backoff versions).1.session = c.session := by
  cases versions with
  | nil => exact session_endPass c goal _ _
  | cons version rest => rfl

/-- An answer that installs nothing new, or the one that the call has asked for. -/
theorem session_handle_found (c : Client κ α) (id : CallId) (connection : α) (version : Version) :
    (c.handle (.found id (.ok (connection, version)))).1.session = c.session ∨
      ∃ goal rest backoff,
        c.call? id = some (.connecting goal (.probing version rest backoff)) := by
  simp only [handle, advance]
  split
  · rename_i goal stage found
    cases stage with
    | probing looked rest backoff =>
      by_cases speaks : version = looked
      · subst speaks
        exact .inr ⟨goal, rest, backoff, found⟩
      · simp only [connect, Probe.judge, speaks, if_false]
        exact .inl (session_probe c goal backoff rest)
    | queued | resting | linking | routing | abandoning => exact .inl rfl
  · rename_i same
    cases same
  · exact .inl rfl

/-- A session is installed only when a lookup has found its connection and version. -/
theorem Move.found_of_installed (move : Move c event c' commands) {session : Session α}
    (installed : c'.session = some session) (differ : c.session ≠ some session) :
    ∃ id, event = .found id (.ok (session.connection, session.version)) := by
  cases move.arranges with
  | nothing _ kept =>
    rcases kept with same | none
    · exact absurd (same.symm.trans installed) differ
    · cases none.symm.trans installed
  | link found _ cached =>
    cases cached.symm.trans installed
    exact ⟨_, found⟩
  | route _ _ kept => exact absurd (kept.symm.trans installed) differ

/-- A session is installed as the answer to the lookup that a call waits for: it is over the
connection found, in the version asked for. -/
theorem Valid.found_of_installed (valid : c.Valid) {session : Session α}
    (installed : (c.handle event).1.session = some session)
    (differ : c.session ≠ some session) :
    ∃ id goal rest backoff, event = .found id (.ok (session.connection, session.version)) ∧
      c.call? id = some (.connecting goal (.probing session.version rest backoff)) := by
  obtain ⟨id, rfl⟩ := (handle_move valid event).found_of_installed installed differ
  rcases session_handle_found c id session.connection session.version with same | waits
  · exact absurd (same.symm.trans installed) differ
  · obtain ⟨goal, rest, backoff, found⟩ := waits
    exact ⟨id, goal, rest, backoff, rfl, found⟩

end Client

end Baseband
