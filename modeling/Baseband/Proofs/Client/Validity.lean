import Baseband.Proofs.Client.Moves

/-!
# Every move keeps the invariant

A call that goes past the gate, goes on behind it or leaves it keeps the order in which calls wait;
all other moves leave the gate alone. So whatever events befall a fresh client, the invariant holds.
-/

namespace Baseband.Client

variable {κ α : Type}

/-! ## Parts of moves -/

/-- The invariant does not look at the table of requests, nor at indications. -/
theorem Valid.congr {c d : Client κ α} (valid : c.Valid) (calls : d.calls = c.calls)
    (gate : d.gate = c.gate) (session : d.session = c.session)
    (generation : d.generation = c.generation) (supported : d.supported = c.supported) :
    d.Valid where
  distinct := calls ▸ valid.distinct
  inside id goal stage := by rw [calls, gate]; exact valid.inside id goal stage
  knows id goal stage := by rw [calls, session]; exact valid.knows id goal stage
  lined id := by rw [calls, gate]; exact valid.lined id
  orderly := gate ▸ valid.orderly
  idle := gate ▸ valid.idle
  numbered := by rw [session, generation]; exact valid.numbered
  unsupported := by rw [supported, session, calls]; exact valid.unsupported

/-- At an open gate there is nobody. -/
theorem Valid.gate_eq_empty {c : Client κ α} (valid : c.Valid) (free : c.gate.holder = none) :
    c.gate = .empty := by
  have nobody := valid.idle free
  cases gate : c.gate
  simp_all [Gate.empty]

/-- The invariant says nothing of the requests. -/
theorem Valid.withOutstanding {c : Client κ α} (valid : c.Valid) (outstanding : Outstanding κ) :
    { c with outstanding }.Valid :=
  valid.congr rfl rfl rfl rfl rfl

/-- Losing the session takes nothing from a call that it knows. -/
theorem Valid.lose {c : Client κ α} (valid : c.Valid) : c.lost.Valid where
  distinct := valid.distinct
  inside := valid.inside
  knows id goal stage listed := by cases stage <;> simp [Stage.Knows, lost]
  lined := valid.lined
  orderly := valid.orderly
  idle := valid.idle
  numbered session cached := by simp [lost] at cached
  unsupported without := ⟨rfl, (valid.unsupported without).2⟩

/-- A call that sends its request is outside the gate and may go at any time. -/
theorem Valid.dropSending {c : Client κ α} (valid : c.Valid) {id : CallId} {serial : Serial}
    {generation : Nat} (sending : c.call? id = some (.sending serial generation)) :
    (c.dropCall id).Valid where
  distinct := distinct_dropCall valid.distinct id
  inside other goal stage listed := valid.inside other goal stage (mem_calls_dropCall.1 listed).1
  knows other goal stage listed := valid.knows other goal stage (mem_calls_dropCall.1 listed).1
  lined other := by
    simp only [dropCall_gate, valid.lined other, mem_calls_dropCall]
    refine ⟨fun ⟨goal, stage, listed⟩ => ⟨goal, stage, listed, ?_⟩,
      fun ⟨goal, stage, listed, _⟩ => ⟨goal, stage, listed⟩⟩
    rintro rfl
    cases call_unique valid.distinct sending listed
  orderly := valid.orderly
  idle := valid.idle
  numbered := valid.numbered
  unsupported without :=
    ⟨(valid.unsupported without).1, fun other goal stage listed =>
      (valid.unsupported without).2 other goal stage (mem_calls_dropCall.1 listed).1⟩

/-- A call that is new may send a request, as it is outside the gate. -/
theorem Valid.putSending {c : Client κ α} (valid : c.Valid) {id : CallId}
    (unused : c.call? id = none) (serial : Serial) (generation : Nat) :
    (c.putCall id (.sending serial generation)).Valid := by
  have connecting (other : CallId) (goal : Goal κ) (stage : Stage α) :
      (other, .connecting goal stage) ∈ (c.putCall id (.sending serial generation)).calls ↔
        (other, .connecting goal stage) ∈ c.calls := by
    simp only [mem_calls_putCall, reduceCtorEq, and_false, or_false, and_iff_left_iff_imp]
    rintro listed rfl
    exact not_mem_calls_of_call? unused _ listed
  exact {
    distinct := distinct_putCall valid.distinct id _
    inside := fun other goal stage => by
      rw [connecting]; exact valid.inside other goal stage
    knows := fun other goal stage => by
      rw [connecting]; exact valid.knows other goal stage
    lined := fun other => by simp only [connecting]; exact valid.lined other
    orderly := valid.orderly
    idle := valid.idle
    numbered := valid.numbered
    unsupported := by simp only [connecting]; exact valid.unsupported }

theorem mem_connecting_putCall {c d : Client κ α} {id : CallId} {goal : Goal κ} {stage : Stage α}
    (calls : d.calls = c.calls) (other : CallId) :
    (other = id ∨ ∃ goal' stage', (other, .connecting goal' stage') ∈ c.calls) ↔
      ∃ goal' stage', (other, .connecting goal' stage') ∈
        (d.putCall id (.connecting goal stage)).calls := by
  simp only [mem_calls_putCall, calls]
  constructor
  · rintro (same | ⟨goal', stage', listed⟩)
    · exact ⟨goal, stage, .inr ⟨same, rfl⟩⟩
    · by_cases same : other = id
      · exact ⟨goal, stage, .inr ⟨same, rfl⟩⟩
      · exact ⟨goal', stage', .inl ⟨listed, same⟩⟩
  · rintro ⟨goal', stage', ⟨listed, -⟩ | ⟨same, -⟩⟩
    · exact .inr ⟨goal', stage', listed⟩
    · exact .inl same

/-- The line at the gate once a new call has come: all that connected before, and the call. -/
theorem Valid.line_enter {c : Client κ α} (valid : c.Valid) {id : CallId}
    (unused : c.call? id = none) :
    (c.gate.enter id).line.Nodup ∧ ∀ other, other ∈ (c.gate.enter id).line ↔
      other = id ∨ ∃ goal stage, (other, .connecting goal stage) ∈ c.calls := by
  rw [Gate.line_enter valid.idle]
  have fresh : id ∉ c.gate.line := by
    rw [valid.lined]
    rintro ⟨goal, stage, listed⟩
    exact not_mem_calls_of_call? unused _ listed
  refine ⟨List.nodup_append.2 ⟨valid.orderly, List.nodup_singleton id, ?_⟩, fun other => ?_⟩
  · rintro a ha b hb rfl
    rw [List.mem_singleton] at hb
    exact fresh (hb ▸ ha)
  · rw [List.mem_append, List.mem_singleton, valid.lined, or_comm]

/-- The line at the gate once the call is past it: the call and all others that connect. -/
theorem Inside.line {c : Client κ α} {event : Event κ α} {id : CallId} {goal : Goal κ}
    {gate : Gate} (inside : Inside c event id goal gate) (valid : c.Valid) :
    gate.line.Nodup ∧ ∀ other, other ∈ gate.line ↔
      other = id ∨ ∃ goal stage, (other, .connecting goal stage) ∈ c.calls := by
  rcases inside.origin with ⟨-, unused, free, rfl⟩ | ⟨-, rfl, stage, found⟩
  · exact valid.line_enter unused
  · refine ⟨valid.orderly, fun other => ?_⟩
    rw [valid.lined]
    constructor
    · exact .inr
    · rintro (rfl | connecting)
      · exact ⟨goal, stage, mem_calls_of_call? found⟩
      · exact connecting

/-- Whoever is past the gate may go on to any stage that knows the session rightly. -/
theorem Inside.putStage {c : Client κ α} {event : Event κ α} {id : CallId} {goal : Goal κ}
    {gate : Gate} (inside : Inside c event id goal gate) (valid : c.Valid) (d : Client κ α)
    (stage : Stage α) (calls : d.calls = c.calls) (gated : d.gate = gate)
    (supported : d.supported = c.supported)
    (numbered : ∀ session, d.session = some session → session.generation = d.generation)
    (knows : stage.Knows d.session) :
    (d.putCall id (.connecting goal stage)).Valid := by
  obtain ⟨orderly, line⟩ := inside.line valid
  have others {other : CallId} {goal' : Goal κ} {stage' : Stage α}
      (listed : (other, .connecting goal' stage') ∈ d.calls) (differ : other ≠ id) :
      stage' = .queued :=
    inside.alone other goal' stage' (calls ▸ listed) differ
  exact {
    distinct := distinct_putCall (calls ▸ valid.distinct) id _
    inside := fun other goal' stage' listed past => by
      rcases mem_calls_putCall.1 listed with ⟨listed, differ⟩ | ⟨rfl, -⟩
      · rw [others listed differ] at past
        cases past
      · simpa [gated] using inside.holder
    knows := fun other goal' stage' listed => by
      rcases mem_calls_putCall.1 listed with ⟨listed, differ⟩ | ⟨rfl, eq⟩
      · rw [others listed differ]
        trivial
      · cases eq
        exact knows
    lined := fun other => by
      rw [putCall_gate, gated, line]
      exact mem_connecting_putCall calls other
    orderly := by rw [putCall_gate, gated]; exact orderly
    idle := by simp [gated, inside.holder]
    numbered
    unsupported := fun without => by
      rw [putCall_supported, supported, inside.supported] at without
      cases without }

/-- Whoever is past the gate may leave it. -/
theorem Inside.leave {c : Client κ α} {event : Event κ α} {id : CallId} {goal : Goal κ}
    {gate : Gate} (inside : Inside c event id goal gate) (valid : c.Valid) :
    ({ c with gate := gate.leave }.dropCall id).Valid := by
  obtain ⟨orderly, line⟩ := inside.line valid
  have rest : gate.leave.line = gate.waiting := by
    rw [Gate.line_leave inside.holder, Gate.line_of_holder inside.holder, List.tail_cons]
  rw [Gate.line_of_holder inside.holder] at orderly line
  obtain ⟨gone, orderly⟩ := List.nodup_cons.1 orderly
  have others {other : CallId} {goal' : Goal κ} {stage' : Stage α}
      (listed : (other, .connecting goal' stage') ∈
        ({ c with gate := gate.leave }.dropCall id).calls) : stage' = .queued :=
    inside.alone other goal' stage' (mem_calls_dropCall.1 listed).1 (mem_calls_dropCall.1 listed).2
  exact {
    distinct := distinct_dropCall valid.distinct id
    inside := fun other goal' stage' listed past => by
      rw [others listed] at past
      cases past
    knows := fun other goal' stage' listed => by
      rw [others listed]
      trivial
    lined := fun other => by
      simp only [dropCall_gate, rest, mem_calls_dropCall]
      constructor
      · intro waits
        have differ : other ≠ id := fun eq => gone (eq ▸ waits)
        rcases (line other).1 (.tail _ waits) with same | ⟨goal', stage', listed⟩
        · exact absurd same differ
        · exact ⟨goal', stage', listed, differ⟩
      · rintro ⟨goal', stage', listed, differ⟩
        exact (List.mem_cons.1 ((line other).2 (.inr ⟨goal', stage', listed⟩))).resolve_left differ
    orderly := by simpa only [dropCall_gate, rest] using orderly
    idle := fun open_ => by
      cases waiting : gate.waiting with
      | nil => simp [Gate.leave, waiting]
      | cons next rest => simp [Gate.leave, waiting] at open_
    numbered := valid.numbered
    unsupported := fun without => by
      rw [dropCall_supported, inside.supported] at without
      cases without }

/-- A call may get in line at a closed gate. -/
theorem Valid.queue {c : Client κ α} (valid : c.Valid) (supported : c.supported = true)
    {id : CallId} (unused : c.call? id = none) (closed : c.gate.holder ≠ none) (goal : Goal κ) :
    ({ c with gate := c.gate.enter id }.putCall id (.connecting goal .queued)).Valid := by
  obtain ⟨orderly, line⟩ := valid.line_enter unused
  have same : (c.gate.enter id).holder = c.gate.holder := by
    cases holder : c.gate.holder with
    | none => exact absurd holder closed
    | some other => simp [Gate.enter, holder]
  exact {
    distinct := distinct_putCall valid.distinct id _
    inside := fun other goal' stage listed past => by
      rw [putCall_gate, same]
      rcases mem_calls_putCall.1 listed with ⟨listed, -⟩ | ⟨-, eq⟩
      · exact valid.inside other goal' stage listed past
      · cases eq
        cases past
    knows := fun other goal' stage listed => by
      rcases mem_calls_putCall.1 listed with ⟨listed, -⟩ | ⟨-, eq⟩
      · exact valid.knows other goal' stage listed
      · cases eq
        trivial
    lined := fun other => by
      rw [putCall_gate, line]
      exact mem_connecting_putCall rfl other
    orderly
    idle := fun open_ => absurd (same.symm.trans open_) closed
    numbered := valid.numbered
    unsupported := fun without => by
      rw [putCall_supported, supported] at without
      cases without }

/-- A call may get out of the line. -/
theorem Valid.withdraw {c : Client κ α} (valid : c.Valid) {id : CallId} {goal : Goal κ}
    (queued : c.call? id = some (.connecting goal .queued)) (outside : c.gate.holder ≠ some id) :
    ({ c with gate := c.gate.withdraw id }.dropCall id).Valid where
  distinct := distinct_dropCall valid.distinct id
  inside other goal' stage listed past :=
    valid.inside other goal' stage (mem_calls_dropCall.1 listed).1 past
  knows other goal' stage listed := valid.knows other goal' stage (mem_calls_dropCall.1 listed).1
  lined other := by
    simp only [dropCall_gate, Gate.line_withdraw outside, List.mem_filter, bne_iff_ne, ne_eq,
      valid.lined other, mem_calls_dropCall]
    constructor
    · rintro ⟨⟨goal', stage, listed⟩, differ⟩
      exact ⟨goal', stage, listed, differ⟩
    · rintro ⟨goal', stage, listed, differ⟩
      exact ⟨⟨goal', stage, listed⟩, differ⟩
  orderly := by
    rw [dropCall_gate, Gate.line_withdraw outside]
    exact valid.orderly.filter _
  idle open_ := by
    have : c.gate.waiting = [] := valid.idle open_
    simp [Gate.withdraw, this]
  numbered := valid.numbered
  unsupported without :=
    absurd (valid.supported queued) (by simpa using without)

/-! ## Whole moves -/

/-- The invariant survives the end of a call. -/
theorem Conclusion.valid {c c' : Client κ α} {id : CallId} {goal : Goal κ}
    {commands : List (Command κ α)} (conclusion : Conclusion c id goal c' commands)
    (valid : c.Valid) (unused : c.call? id = none) : c'.Valid := by
  cases conclusion with
  | found | told | unavailable | unsupported => exact valid
  | @accepted query completion session cached supports =>
    have registered := valid.withOutstanding
      (c.outstanding.submit query.operation completion c.attribution).2
    exact registered.putSending unused _ _

/-- Every move keeps the invariant. -/
theorem Move.valid {c c' : Client κ α} {event : Event κ α} {commands : List (Command κ α)}
    (move : Move c event c' commands) (valid : c.Valid) : c'.Valid := by
  cases move with
  | ignore => exact valid
  | listen => exact valid.congr rfl rfl rfl rfl rfl
  | answer | submit | take | flush | startAt => exact valid.withOutstanding _
  | lose => exact valid.lose
  | conclude unused conclusion => exact conclusion.valid valid unused
  | queue supported unused closed => exact valid.queue supported unused closed _
  | @look event id goal gate inside none =>
    exact inside.putStage valid { c with gate } (.probing _ _ _) rfl rfl rfl valid.numbered none
  | rest inside none =>
    exact inside.putStage valid c (.resting _) rfl rfl rfl valid.numbered none
  | @install id goal version connection inside none =>
    let session : Session α := ⟨version, connection, c.generation + 1⟩
    refine inside.putStage valid
      { c with generation := c.generation + 1, session := some session } (.linking session)
      rfl rfl rfl ?_ (.inr rfl)
    rintro _ ⟨⟩
    rfl
  | route inside current =>
    exact inside.putStage valid c (.routing _) rfl rfl rfl valid.numbered current
  | abandon inside cached =>
    exact inside.putStage valid c.lost .abandoning rfl rfl rfl valid.lose.numbered rfl
  | abandonLost inside none =>
    exact inside.putStage valid c .abandoning rfl rfl rfl valid.numbered none
  | leave inside conclusion => exact conclusion.valid (inside.leave valid) (call?_dropCall _ _)
  | breakOff inside | forsake inside => exact inside.leave valid
  | withdraw queued outside => exact valid.withdraw queued outside
  | sent sending | resolved _ sending | cancelSend sending => exact valid.dropSending sending
  | unsent _ sending => exact valid.lose.dropSending sending
  | @stranded id serial generation request why sending superseded found =>
    have sending : { c with outstanding := c.outstanding.erase serial }.call? id =
        some (.sending serial generation) := sending
    exact (valid.withOutstanding _).dropSending sending

/-- The invariant survives any event. -/
theorem Valid.handle {c : Client κ α} (valid : c.Valid) (event : Event κ α) :
    (c.handle event).1.Valid :=
  (handle_move valid event).valid valid

theorem valid_ofSettings (settings : Settings) : (ofSettings settings : Client κ α).Valid where
  distinct := List.nodup_nil
  inside _ _ _ listed := by cases listed
  knows _ _ _ listed := by cases listed
  lined _ := by simp [ofSettings, Gate.line, Gate.empty]
  orderly := List.nodup_nil
  idle _ := rfl
  numbered _ cached := by cases cached
  unsupported _ := ⟨rfl, fun _ _ _ listed => by cases listed⟩

end Baseband.Client
