import Baseband.Response
import Baseband.Proofs.Record

/-!
# Payloads of queries and responses

A service knows from the operation how to read the arguments of a request, and what it reads is what
the caller has asked. A payload that comes back is the answer to an operation exactly if it has been
written of a response to it. Whatever else a service sends with status zero is malformed.
-/

namespace Baseband

namespace Query

/-! ## Arguments -/

def decode (op : Operation) (payload : Bytes) : Except Malformed Query :=
  match op with
  | .getSlotStatus => (Record.decode payload).map fun (_ : NoArguments) => getSlotStatus
  | .getPhoneCapability => (Record.decode payload).map fun (_ : NoArguments) => getPhoneCapability
  | .getDeviceCapability => (Record.decode payload).map fun (_ : NoArguments) => getDeviceCapability
  | .setSlotMapping =>
    (Record.decode payload).map fun (r : SlotMapping) => setSlotMapping r.physicalSlots
  | .setPreferredDataModem =>
    (Record.decode payload).map fun (r : PreferredDataModem) => setPreferredDataModem r.modem
  | .setLiveModems => (Record.decode payload).map fun (r : LiveModems) => setLiveModems r.count

/-- What is written of one kind of record is read as the query with these arguments. -/
theorem map_decode {α : Type} [Record α] (exact : Record.Exact α) (make : α → Query) (v : α)
    (fits : (Record.encode v).length ≤ Record.maxSize) :
    (Record.decode (Record.encode v)).map make = .ok (make v) := by
  rw [exact.decode_eq_ok.2 ⟨rfl, fits⟩]
  rfl

/-- The arguments of a request are read from its payload, up to the size of the largest envelope. -/
theorem decode_payload (query : Query) (fits : query.payload.length ≤ Record.maxSize) :
    decode query.operation query.payload = .ok query := by
  cases query with
  | getSlotStatus => exact map_decode Record.exact_noArguments (fun _ => getSlotStatus) {} fits
  | getPhoneCapability =>
    exact map_decode Record.exact_noArguments (fun _ => getPhoneCapability) {} fits
  | getDeviceCapability =>
    exact map_decode Record.exact_noArguments (fun _ => getDeviceCapability) {} fits
  | setSlotMapping slots =>
    exact map_decode Record.exact_slotMapping (fun r => setSlotMapping r.physicalSlots) ⟨slots⟩
      fits
  | setPreferredDataModem modem =>
    exact map_decode Record.exact_preferredDataModem (fun r => setPreferredDataModem r.modem)
      ⟨modem⟩ fits
  | setLiveModems count =>
    exact map_decode Record.exact_liveModems (fun r => setLiveModems r.count) ⟨count⟩ fits

end Query

namespace Response

/-! ## Answers -/

/-- The payload is what is written of the response. Beyond the largest envelope nothing is. -/
def WrittenAs (r : Response) (payload : Bytes) : Prop :=
  r.encode = payload ∧ payload.length ≤ Record.maxSize

/-- The responses to an operation that are made of one kind of record. -/
theorem map_decode_eq_ok {α : Type} [Record α] (exact : Record.Exact α) {make : α → Response}
    {op : Operation} (answers : ∀ r : Response, r.answers op = true ↔ ∃ v, make v = r)
    (encode : ∀ v, (make v).encode = Record.encode v) {payload : Bytes} {r : Response} :
    (Record.decode payload).map make = .ok r ↔ r.answers op = true ∧ r.WrittenAs payload := by
  have read : (Record.decode payload).map make = .ok r ↔
      ∃ v, make v = r ∧ Record.decode payload = .ok v := by
    cases (Record.decode payload : Except Malformed α) with
    | error why => simp [Except.map]
    | ok v => simp [Except.map, and_comm]
  rw [read, answers]
  simp only [exact.decode_eq_ok]
  constructor
  · rintro ⟨v, rfl, written, size⟩
    exact ⟨⟨v, rfl⟩, (encode v).trans written, size⟩
  · rintro ⟨⟨v, rfl⟩, written, size⟩
    exact ⟨v, rfl, (encode v).symm.trans written, size⟩

/-- A payload is read as the response it was written as, for the operation that has such responses.
-/
theorem decode_eq_ok {op : Operation} {payload : Bytes} {r : Response} :
    decode op payload = .ok r ↔ r.answers op = true ∧ r.WrittenAs payload := by
  cases op with
  | getSlotStatus =>
    refine map_decode_eq_ok Record.exact_slotStatusList (fun r => ?_) fun _ => rfl
    cases r with
    | slotStatus slots => exact ⟨fun _ => ⟨⟨slots⟩, rfl⟩, fun _ => rfl⟩
    | acknowledged | phoneCapability | deviceCapability => exact ⟨nofun, nofun⟩
  | getPhoneCapability =>
    refine map_decode_eq_ok PhoneCapability.exact (fun r => ?_) fun _ => rfl
    cases r with
    | phoneCapability capability => exact ⟨fun _ => ⟨capability, rfl⟩, fun _ => rfl⟩
    | acknowledged | slotStatus | deviceCapability => exact ⟨nofun, nofun⟩
  | getDeviceCapability =>
    refine map_decode_eq_ok Record.exact_deviceCapability (fun r => ?_) fun _ => rfl
    cases r with
    | deviceCapability capability => exact ⟨fun _ => ⟨capability, rfl⟩, fun _ => rfl⟩
    | acknowledged | slotStatus | phoneCapability => exact ⟨nofun, nofun⟩
  | setSlotMapping | setPreferredDataModem | setLiveModems =>
    refine map_decode_eq_ok Record.exact_noArguments (fun r => ?_) fun _ => rfl
    cases r with
    | acknowledged => exact ⟨fun _ => ⟨{}, rfl⟩, fun _ => rfl⟩
    | slotStatus | phoneCapability | deviceCapability => exact ⟨nofun, nofun⟩

/-! ## Outcomes -/

/-- What has become of a request to an operation, by the status and payload of its response. -/
structure Means (op : Operation) (status : Int32) (payload : Bytes) (outcome : Outcome) : Prop where
  remote : status ≠ 0 → outcome = .error (.remote status)
  answered : ∀ r : Response, outcome = .ok r ↔
    status = 0 ∧ r.answers op = true ∧ r.WrittenAs payload
  malformed : status = 0 → (∀ r : Response, r.answers op = true → ¬r.WrittenAs payload) →
    ∃ why, outcome = .error (.malformed why)

theorem outcome_of_status {op : Operation} {status : Int32} {payload : Bytes}
    (failed : status ≠ 0) :
    outcome op status payload = .error (.remote status) := by
  rw [outcome, if_pos failed]

/-- A request succeeds with status zero and a payload written for its operation. -/
theorem outcome_eq_ok {op : Operation} {status : Int32} {payload : Bytes} {r : Response} :
    outcome op status payload = .ok r ↔
      status = 0 ∧ r.answers op = true ∧ r.WrittenAs payload := by
  rw [← decode_eq_ok, outcome]
  split
  · rename_i failed
    exact ⟨nofun, fun ⟨done, _⟩ => absurd done failed⟩
  · rename_i done
    rw [not_not] at done
    cases decode op payload with
    | error why => simp [Except.mapError]
    | ok answer => simp [Except.mapError, done]

/-- A payload that is written of no response to the operation is malformed. -/
theorem outcome_of_malformed {op : Operation} {status : Int32} {payload : Bytes} (done : status = 0)
    (other : ∀ r : Response, r.answers op = true → ¬r.WrittenAs payload) :
    ∃ why, outcome op status payload = .error (.malformed why) := by
  rw [outcome, if_neg (not_not_intro done)]
  cases read : decode op payload with
  | error why => exact ⟨why, rfl⟩
  | ok r =>
    obtain ⟨own, written⟩ := decode_eq_ok.1 read
    exact absurd written (other r own)

/-- Every outcome says what the status and the payload mean. -/
theorem outcome_means (op : Operation) (status : Int32) (payload : Bytes) :
    Means op status payload (outcome op status payload) where
  remote := outcome_of_status
  answered _ := outcome_eq_ok
  malformed := outcome_of_malformed

end Response

end Baseband
