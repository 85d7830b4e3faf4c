import Baseband.Proofs.Response
import Baseband.Proofs.Run.Responses

/-!
# Where a response goes

In every state that a client can come to, a response completes the request that is outstanding under
its serial, and changes nothing else; if there is none, it changes nothing at all. What the request
is told depends on its own operation, the status and the payload only.
-/

namespace Baseband.Run

variable {κ α : Type} {settings : Settings} {allowed : State κ α → Event κ α → Prop}
  {s : State κ α} {past : List (State κ α)}

theorem agesApart (run : Run settings allowed s past) : s.client.outstanding.AgesApart := by
  induction run with
  | start => exact Outstanding.agesApart_empty
  | step run step ih =>
    cases step with
    | raise event =>
      exact (Client.handle_move run.valid event).table.agesApart run.sound ih
    | carryOut => exact ih

def State.HasMade (s : State κ α) (request : Request κ) : Prop :=
  .submit request.operation request.completion request.attribution ∈ s.events ∨
    ∃ id query, .call id (.request query request.completion) ∈ s.events ∧
      request.operation = query.operation

/-- Every outstanding request is for the operation and has the completion that it was made with. -/
theorem outstanding_made (run : Run settings allowed s past) :
    ∀ request ∈ s.client.outstanding.toList, s.HasMade request := by
  induction run with
  | start =>
    intro request listed
    rw [State.initial, Client.ofSettings, Outstanding.toList_empty] at listed
    cases listed
  | @step s t past run step ih =>
    intro request listed
    cases step with
    | raise event =>
      rcases (Client.handle_move run.valid event).table.entered listed with
        before | rfl | ⟨id, query, asks, same⟩
      · rcases ih request before with submitted | ⟨id, query, begun, same⟩
        · exact .inl (.tail _ submitted)
        · exact .inr ⟨id, query, .tail _ begun, same⟩
      · exact .inl (.head _)
      · exact .inr ⟨id, query, run.asks_begun asks, same⟩
    | carryOut => exact ih request listed

/-- A response under a serial that is not outstanding changes nothing and leaves nothing to be done.
Otherwise the request under that serial leaves the table, the others stay as they are and in their
order, nothing else changes, and the completion of the request is run once: with the status if that
is not zero, else with the response to the operation of the request that the payload is written of,
or with an error if it is written of none. The class of the response does not matter. -/
theorem responses_routed (run : Run settings allowed s past) (header : ResponseHeader)
    (payload : Bytes) :
    ((∀ request ∈ s.client.outstanding.toList, request.serial ≠ header.serial) →
      s.client.handle (.respond header payload) = (s.client, [])) ∧
    (∀ request ∈ s.client.outstanding.toList, request.serial = header.serial →
      s.HasMade request ∧
      ∃ outcome others,
        s.client.handle (.respond header payload) =
          ({ s.client with outstanding := others }, [.complete request.completion outcome]) ∧
        others.toList = s.client.outstanding.toList.filter (·.serial ≠ header.serial) ∧
        others.nextSerial = s.client.outstanding.nextSerial ∧
        others.nextAge = s.client.outstanding.nextAge ∧
        Response.Means request.operation header.status payload outcome) ∧
    ∀ responseClass, s.client.handle (.respond { header with responseClass } payload) =
      s.client.handle (.respond header payload) := by
  refine ⟨fun unknown => ?_, fun request listed own => ?_, fun _ => rfl⟩
  · refine respond_of_unknown s.client header payload ?_
    cases found : s.client.outstanding.find? header.serial with
    | none => rfl
    | some request =>
      have listed := Outstanding.mem_toList.2 ⟨_, found⟩
      exact absurd (run.sound _ _ found).1 (unknown request listed)
  · obtain ⟨serial, found⟩ := Outstanding.mem_toList.1 listed
    obtain rfl : serial = header.serial := (run.sound _ _ found).1.symm.trans own
    exact ⟨run.outstanding_made request listed, _, _,
      respond_of_found s.client header payload found,
      Outstanding.toList_erase run.sound run.agesApart found, rfl, rfl,
      Response.outcome_means _ _ _⟩

/-- An empty payload is none of a first request, and leaves the session as it is. -/
theorem responses_routed_of_empty :
    ∃ (s : State Nat Nat) (past : List (State Nat Nat)) (others : Outstanding Nat)
      (why : Malformed),
      Run { Settings.standard with candidates := [⟨1, 3⟩] } (fun _ _ => True) s past ∧
        s.client.session = some ⟨⟨1, 3⟩, 3, 1⟩ ∧
        s.client.handle (.respond (.solicited .first 0) []) =
          ({ s.client with outstanding := others }, [.complete 7 (.error (.malformed why))]) := by
  obtain ⟨s, past, run, session, -, found, -⟩ :=
    exists_request_sent (fun _ _ => True) (fun _ _ _ => trivial) fun _ _ _ => trivial
  have listed := Outstanding.mem_toList.2 ⟨_, found⟩
  obtain ⟨-, outcome, others, handled, -, -, -, means⟩ :=
    (responses_routed run (.solicited .first 0) []).2.1 _ listed rfl
  obtain ⟨why, rfl⟩ := means.malformed rfl fun r _ written => by
    have empty := congrArg List.length written.1
    cases r <;> simp [Response.encode, Record.encode, Envelope.headerSize] at empty
  exact ⟨s, past, others, why, run, session, handled⟩

end Baseband.Run
