import Baseband.Proofs.Client.Fates
import Baseband.Proofs.Run.Completions
import Baseband.Proofs.Run.Requests

/-!
# Responses complete their own request

A client does not know over which connection a response comes, nor from which session. What keeps
requests apart is that no serial is issued twice, whatever has become of the requests before, until
all serials have been issued. So a service that answers what it has been sent answers the call that
sent it, and after its completion has run, nobody.
-/

namespace Baseband.Run

open scoped List
open Command (collect send?)

variable {κ α : Type} {settings : Settings} {allowed : State κ α → Event κ α → Prop}
  {s : State κ α} {past : List (State κ α)}

def State.sends (s : State κ α) : List (Sending α) :=
  s.issued send?

def Ordinary (s : State κ α) : Event κ α → Prop
  | .call id _ => ∀ goal, .call id goal ∉ s.events
  | .submit .. | .take _ | .flush _ | .setNextSerial _ => False
  | _ => True

/-- Requests are made by calls, each of which has a number of its own, and services respond to what
they have been sent, at any time and any number of times. -/
def Solicited (s : State κ α) : Event κ α → Prop
  | .call id _ => ∀ goal, .call id goal ∉ s.events
  | .respond header _ => ∃ sending ∈ collect send? s.done, sending.serial = header.serial
  | .submit .. | .take _ | .flush _ | .setNextSerial _ => False
  | _ => True

/-- A run in which services only respond to what they were sent is ordinary. -/
theorem Solicited.ordinary (s : State κ α) (event : Event κ α) (solicited : Solicited s event) :
    Ordinary s event := by
  cases event <;> first | exact solicited | trivial

/-! ## Calls and what they send -/

/-- Every call under way has begun, for what it connects for. -/
theorem calls_begun (run : Run settings allowed s past) :
    ∀ id call, (id, call) ∈ s.client.calls →
      ∃ goal, .call id goal ∈ s.events ∧
        ∀ goal' stage, call = .connecting goal' stage → goal' = goal := by
  refine run.invariant (P := fun s => ∀ id call, (id, call) ∈ s.client.calls →
    ∃ goal, .call id goal ∈ s.events ∧ ∀ goal' stage, call = .connecting goal' stage →
      goal' = goal) ?_ ?_ ?_
  · intro id call listed
    cases listed
  · intro s event valid begun _ _ id call listed
    rcases (Client.handle_move valid event).continues listed with before | ⟨goal, asks, same⟩
    · obtain ⟨goal, listed, same⟩ := begun id call before
      exact ⟨goal, .tail _ listed, same⟩
    · rcases asks with rfl | ⟨stage, found⟩
      · exact ⟨goal, .head _, same⟩
      · obtain ⟨goal', listed, same'⟩ := begun id _ (Client.mem_calls_of_call? found)
        rw [same' goal stage rfl] at same
        exact ⟨goal', .tail _ listed, same⟩
  · intro s command rest begun _
    exact begun

/-- A call that connects for something has been begun for it. -/
theorem asks_begun (run : Run settings allowed s past) {event : Event κ α} {id : CallId}
    {goal : Goal κ} (asks : s.client.Asks event id goal) :
    .call id goal ∈ (s.raise event).events := by
  rcases asks with rfl | ⟨stage, found⟩
  · exact .head _
  · obtain ⟨goal', listed, same⟩ := run.calls_begun id _ (Client.mem_calls_of_call? found)
    rw [same goal stage rfl]
    exact .tail _ listed

/-- No two calls begin under one number. -/
theorem begins_once (run : Run settings Ordinary s past) :
    ∀ id goal goal', .call id goal ∈ s.events → .call id goal' ∈ s.events → goal = goal' := by
  refine run.invariant (P := fun s => ∀ id goal goal', .call id goal ∈ s.events →
    .call id goal' ∈ s.events → goal = goal') ?_ ?_ ?_
  · intro id goal goal' listed
    cases listed
  · intro s event valid once ordinary _ id goal goal' first second
    rw [State.events_raise] at first second
    cases first with
    | head =>
      cases second with
      | head => rfl
      | tail _ second => exact absurd second (ordinary goal')
    | tail _ first =>
      cases second with
      | head => exact absurd first (ordinary goal)
      | tail _ second => exact once id goal goal' first second
  · intro s command rest once _
    exact once

/-- No number is used for calls of two kinds. -/
theorem call_begins_once (run : Run settings Solicited s past) :
    ∀ id goal goal', .call id goal ∈ s.events → .call id goal' ∈ s.events → goal = goal' :=
  (run.mono Solicited.ordinary).begins_once

/-- What is sent has been asked for by the call that sends it. -/
theorem sends_asked (run : Run settings allowed s past) :
    ∀ sending ∈ s.sends, ∃ query completion,
      .call sending.id (.request query completion) ∈ s.events ∧
        sending.operation = query.operation ∧ sending.payload = query.payload := by
  induction run with
  | start =>
    intro sending listed
    cases listed
  | @step s t past run step ih =>
    intro sending listed
    cases step with
    | raise event =>
      rw [State.sends, State.issued_raise, List.mem_append] at listed
      rcases listed with new | before
      · obtain ⟨query, completion, asks, same⟩ :=
          (Client.handle_move run.valid event).table.asked new
        exact ⟨query, completion, run.asks_begun asks, same⟩
      · obtain ⟨query, completion, begun, same⟩ := ih sending before
        exact ⟨query, completion, .tail _ begun, same⟩
    | carryOut next => exact ih sending ((State.issued_carryOut send? next).mem_iff.1 listed)

/-- What has been sent was sent after the call that asked for it had begun. -/
theorem sent_after_call (run : Run settings allowed s past) :
    ∀ sending ∈ collect send? s.done, ∃ query completion,
      [.command sending.command, .event (.call sending.id (.request query completion))] <+
          s.history ∧
        sending.operation = query.operation ∧ sending.payload = query.payload := by
  induction run with
  | start =>
    intro sending listed
    cases listed
  | @step s t past run step ih =>
    intro sending listed
    cases step with
    | raise =>
      obtain ⟨query, completion, order, same⟩ := ih sending listed
      exact ⟨query, completion, order.cons _, same⟩
    | @carryOut command rest next =>
      rw [State.done_carryOut, Command.mem_collect_send, List.mem_cons] at listed
      rcases listed with rfl | before
      · have due : sending ∈ s.sends := by
          refine List.mem_append_left _ (Command.mem_collect_send.2 ?_)
          rw [next]
          exact .head _
        obtain ⟨query, completion, begun, same⟩ := run.sends_asked sending due
        have begun : .event (.call sending.id (.request query completion)) ∈ s.history :=
          Happening.mem_events.1 begun
        exact ⟨query, completion, (List.singleton_sublist.2 begun).cons_cons _, same⟩
      · obtain ⟨query, completion, order, same⟩ := ih sending (Command.mem_collect_send.2 before)
        exact ⟨query, completion, order.cons _, same⟩

/-- An outstanding request is that of a call which sends it or has sent it. -/
theorem outstanding_sent (run : Run settings Solicited s past) :
    ∀ request ∈ s.client.outstanding.toList, ∃ sending ∈ s.sends,
      sending.serial = request.serial ∧ sending.operation = request.operation ∧
        ∃ query, .call sending.id (.request query request.completion) ∈ s.events ∧
          request.operation = query.operation := by
  induction run with
  | start =>
    intro request listed
    rw [State.initial, Client.ofSettings, Outstanding.toList_empty] at listed
    cases listed
  | @step s t past run step ih =>
    intro request listed
    cases step with
    | raise event solicited =>
      have calls : ∀ op completion attribution, event ≠ .submit op completion attribution := by
        rintro op completion attribution rfl
        exact solicited
      simp only [State.sends, State.issued_raise, List.mem_append]
      rcases (Client.handle_move run.valid event).table.origin calls listed with
        before | ⟨sending, sent, registered⟩
      · obtain ⟨sending, sent, serial, operation, query, begun, same⟩ := ih request before
        exact ⟨sending, .inr sent, serial, operation, query, .tail _ begun, same⟩
      · obtain ⟨query, asks, same⟩ := registered.asked
        exact ⟨sending, .inl sent, registered.serial, registered.operation, query,
          run.asks_begun asks, same⟩
    | carryOut next =>
      obtain ⟨sending, sent, rest⟩ := ih request listed
      exact ⟨sending, (State.issued_carryOut send? next).mem_iff.2 sent, rest⟩

/-! ## Serials are issued once -/

/-- Until all serials have been issued once, they have been issued in their order, one to each
request that is sent or has been. -/
theorem serials_counted (run : Run settings Ordinary s past)
    (fewer : s.client.outstanding.nextAge < Serial.count) :
    s.client.outstanding.Counting ∧
      s.sends.map (·.serial.value.toNat) ~ List.range' 1 s.client.outstanding.nextAge := by
  induction run with
  | start => exact ⟨Outstanding.counting_empty, .nil⟩
  | @step s t past run step ih =>
    cases step with
    | raise event ordinary =>
      have change := (Client.handle_move run.valid event).table
      have before := Nat.lt_of_le_of_lt change.age_le fewer
      obtain ⟨counting, issued⟩ := ih before
      have calls : ∀ op completion attribution, event ≠ .submit op completion attribution := by
        rintro op completion attribution rfl
        exact ordinary
      have stays : ∀ serial, event ≠ .setNextSerial serial := by
        rintro serial rfl
        exact ordinary
      obtain ⟨counting, step⟩ := change.counting calls stays run.sound counting before
      refine ⟨counting, ?_⟩
      rw [State.sends, State.issued_raise, List.map_append, State.client_raise]
      rcases step with ⟨age, none⟩ | ⟨age, next⟩
      · rw [none, age]
        exact issued
      · rw [next, age, List.range'_1_concat, Nat.add_comm 1]
        exact (issued.cons _).trans (List.perm_append_singleton _ _).symm
    | carryOut next =>
      obtain ⟨counting, issued⟩ := ih fewer
      exact ⟨counting, ((State.issued_carryOut send? next).map _).trans issued⟩

/-- Below the number of serials, no two requests have been sent under one. -/
theorem serials_nodup (run : Run settings Solicited s past)
    (fewer : s.client.outstanding.nextAge < Serial.count) : (s.sends.map (·.serial)).Nodup := by
  have counted := ((run.mono Solicited.ordinary).serials_counted fewer).2
  have values := counted.nodup_iff.2 List.nodup_range'
  refine List.Nodup.of_map (fun serial : Serial => serial.value.toNat) ?_
  rw [List.map_map]
  exact values

/-! ## Responses -/

/-- The request that is outstanding under a serial is the one that was sent under it. -/
theorem outstanding_under_serial (run : Run settings Solicited s past)
    (fewer : s.client.outstanding.nextAge < Serial.count) {sending : Sending α}
    (sent : sending ∈ s.sends) {query : Query} {completion : κ}
    (begun : .call sending.id (.request query completion) ∈ s.events) {request : Request κ}
    (found : s.client.outstanding.find? sending.serial = some request) :
    request.completion = completion ∧ request.operation = query.operation := by
  have listed : request ∈ s.client.outstanding.toList :=
    Outstanding.mem_toList.2 ⟨sending.serial, found⟩
  obtain ⟨own, ownSent, serial, -, ownQuery, ownBegun, operation⟩ :=
    run.outstanding_sent request listed
  have keyed := (run.sound sending.serial request found).1
  obtain rfl : own = sending :=
    List.inj_on_of_nodup_map (run.serials_nodup fewer) ownSent sent (serial.trans keyed)
  cases run.call_begins_once own.id _ _ begun ownBegun
  exact ⟨rfl, operation⟩

/-- A completion has been run, or is about to be, with an error of the client's own or with what a
response says that came after its request was sent, after its call had begun. -/
def Accounted (s : State κ α) (completion : κ) (outcome : Outcome) : Prop :=
  Client.Refusal outcome ∨
    ∃ id connection query header payload,
      outcome = Response.outcome query.operation header.status payload ∧
        [.event (.respond header payload),
          .command (.send id connection header.serial query.operation query.payload),
          .event (.call id (.request query completion))] <+ s.history

/-- Every completion in a run is accounted for by a response or by the client itself. -/
theorem outcomes_accounted (run : Run settings Solicited s past)
    (fewer : s.client.outstanding.nextAge < Serial.count) :
    ∀ completion outcome, .complete completion outcome ∈ s.agenda ++ s.done →
      Accounted s completion outcome := by
  induction run with
  | start =>
    intro completion outcome listed
    cases listed
  | @step s t past run step ih =>
    intro completion outcome listed
    cases step with
    | raise event solicited =>
      have move := Client.handle_move run.valid event
      have before := Nat.lt_of_le_of_lt move.table.age_le fewer
      have flush : ∀ why, event ≠ .flush why := by
        rintro why rfl
        exact solicited
      rw [State.agenda_raise, State.done_raise, List.append_assoc] at listed
      rcases List.mem_append.1 listed with new | listed
      · rcases move.outcome flush new with
          refusal | ⟨header, payload, request, rfl, found, rfl, rfl⟩
        · exact .inl refusal
        · obtain ⟨⟨id, connection, serial, op, bytes⟩, sent, rfl⟩ := solicited
          obtain ⟨query, completion, order, rfl, rfl⟩ := run.sent_after_call _ sent
          have begun : .call id (.request query completion) ∈ s.events :=
            Happening.mem_events.2 (order.subset (.tail _ (.head _)))
          obtain ⟨rfl, operation⟩ := run.outstanding_under_serial before
            (List.mem_append_right _ sent) begun found
          rw [operation]
          exact .inr ⟨id, connection, query, header, payload, rfl, order.cons_cons _⟩
      · rcases ih before completion outcome listed with
          refusal | ⟨id, connection, query, header, payload, same, order⟩
        · exact .inl refusal
        · exact .inr ⟨id, connection, query, header, payload, same, order.cons _⟩
    | @carryOut command rest next =>
      rcases ih fewer completion outcome ((State.mem_carryOut next).1 listed) with
        refusal | ⟨id, connection, query, header, payload, same, order⟩
      · exact .inl refusal
      · exact .inr ⟨id, connection, query, header, payload, same, order.cons _⟩

/-- A response to no outstanding request is ignored. -/
theorem respond_of_unknown (c : Client κ α) (header : ResponseHeader) (payload : Bytes)
    (unknown : c.outstanding.find? header.serial = none) :
    c.handle (.respond header payload) = (c, []) := by
  simp only [Client.handle, Client.respond, unknown]

/-- A response takes its request out of the table and completes it. -/
theorem respond_of_found (c : Client κ α) (header : ResponseHeader) (payload : Bytes)
    {request : Request κ} (found : c.outstanding.find? header.serial = some request) :
    c.handle (.respond header payload) =
      ({ c with outstanding := c.outstanding.erase header.serial },
        [.complete request.completion
          (Response.outcome request.operation header.status payload)]) := by
  simp only [Client.handle, Client.respond, found]

/-- An ordinary event begins calls under fresh numbers and takes nothing out of the table. -/
theorem Ordinary.careful (run : Run settings allowed s past) {event : Event κ α}
    (ordinary : Ordinary s event) :
    (∀ id goal, event = .call id goal → s.client.call? id = none) ∧
      ∀ serial, event ≠ .take serial := by
  constructor
  · rintro id goal rfl
    cases found : s.client.call? id with
    | none => rfl
    | some call =>
      obtain ⟨other, begun, -⟩ := run.calls_begun id call (Client.mem_calls_of_call? found)
      exact absurd begun (ordinary other)
  · rintro serial rfl
    exact ordinary

/-- Once a completion has been run or is about to be, its request is not outstanding. -/
theorem not_outstanding_of_completed (run : Run settings Solicited s past)
    (distinct : s.handed.Nodup) {completion : κ} {outcome : Outcome}
    (completed : .complete completion outcome ∈ s.agenda ++ s.done) :
    completion ∉ s.client.registered := by
  intro registered
  have apart := (run.handed_perm fun _ _ _ run solicited =>
    (solicited.ordinary).careful run).nodup distinct
  rw [Client.kept, List.nodup_append'] at apart
  refine apart.2.2 (List.mem_append_right _ registered) ?_
  rcases List.mem_append.1 completed with due | done
  · exact List.mem_append_left _ (Command.mem_collect_completion.2 ⟨outcome, due⟩)
  · refine List.mem_append_right _ (List.mem_append_left _ ?_)
    exact Command.mem_collect_completion.2 ⟨outcome, done⟩

/-- As long as fewer requests have been accepted than there are serials, no two are sent under one
serial; a response to what a call has sent completes the request of that call or changes nothing,
and changes nothing once that completion has been run or is about to be; and every completion has
been run, or is about to be, with an error of the client's own or with what a response says that
came after its own request was sent, under the serial and for the operation of that request. -/
theorem responses_complete_own_request (run : Run settings Solicited s past)
    (fewer : s.client.outstanding.nextAge < Serial.count) :
    (s.sends.map (·.serial)).Nodup ∧
    (∀ sending ∈ collect send? s.done, ∃ query completion,
      .call sending.id (.request query completion) ∈ s.events ∧
      (∀ goal, .call sending.id goal ∈ s.events → goal = .request query completion) ∧
      ∀ header payload, header.serial = sending.serial →
        (s.client.handle (.respond header payload) = (s.client, []) ∨
          s.client.handle (.respond header payload) =
            ({ s.client with outstanding := s.client.outstanding.erase header.serial },
              [.complete completion
                (Response.outcome query.operation header.status payload)])) ∧
        (s.handed.Nodup → ∀ outcome, .complete completion outcome ∈ s.agenda ++ s.done →
          s.client.handle (.respond header payload) = (s.client, []))) ∧
    ∀ completion outcome, .complete completion outcome ∈ s.agenda ++ s.done →
      Client.Refusal outcome ∨ ∃ id connection query header payload,
        outcome = Response.outcome query.operation header.status payload ∧
          [.event (.respond header payload),
            .command (.send id connection header.serial query.operation query.payload),
            .event (.call id (.request query completion))] <+ s.history := by
  refine ⟨run.serials_nodup fewer, ?_, run.outcomes_accounted fewer⟩
  intro sending sent
  have listed : sending ∈ s.sends := List.mem_append_right _ sent
  obtain ⟨query, completion, begun, -, -⟩ := run.sends_asked sending listed
  refine ⟨query, completion, begun, fun goal also => run.call_begins_once _ _ _ also begun, ?_⟩
  intro header payload serial
  cases found : s.client.outstanding.find? header.serial with
  | none =>
    have nothing := respond_of_unknown s.client header payload found
    exact ⟨.inl nothing, fun _ _ _ => nothing⟩
  | some request =>
    obtain ⟨rfl, operation⟩ :=
      run.outstanding_under_serial fewer listed begun (serial ▸ found)
    refine ⟨.inr ?_, fun distinct outcome completed => ?_⟩
    · rw [respond_of_found s.client header payload found, operation]
    · refine absurd ?_ (run.not_outstanding_of_completed distinct completed)
      exact Client.mem_registered.2 ⟨header.serial, request, found, rfl⟩

/-- A completion that is about to run because its request has been answered. -/
theorem responses_complete_own_request_of_answer :
    ∃ (s : State Nat Nat) (past : List (State Nat Nat)),
      Run { Settings.standard with candidates := [⟨1, 3⟩] } Solicited s past ∧
        s.client.outstanding.nextAge < Serial.count ∧ .complete 7 (.error (.remote 5)) ∈ s.agenda ∧
        ∃ id connection query header payload,
          .error (.remote 5) = Response.outcome query.operation header.status payload ∧
            [.event (.respond header payload),
              .command (.send id connection header.serial query.operation query.payload),
              .event (.call id (.request query 7))] <+ s.history := by
  obtain ⟨before, past, routed, -, age, found, agenda, -⟩ :=
    exists_request_sent Solicited (fun s _ none goal => by simp [State.events, none])
      (fun s event goes => by cases event <;> trivial)
  have ready := routed.step (.carryOut agenda)
  let s := before.carryOut (.send 0 3 .first .getSlotStatus Query.getSlotStatus.payload) []
  let answer : Event Nat Nat := .respond (.solicited .first 5) []
  have sent : Solicited s answer :=
    ⟨⟨0, 3, .first, .getSlotStatus, Query.getSlotStatus.payload⟩, .head _, rfl⟩
  have run := ready.step (.raise answer sent (State.hasRoom_respond s _ _))
  have fewer : (s.raise answer).client.outstanding.nextAge < Serial.count := by
    exact lt_of_eq_of_lt ((Client.respond_nextAge _ _ _).trans age) (by decide)
  have due : .complete 7 (.error (.remote 5)) ∈ (s.raise answer).agenda := by
    rw [State.agenda_raise, respond_of_found s.client (.solicited .first 5) [] found]
    exact .head _
  refine ⟨_, _, run, fewer, due, ?_⟩
  refine ((responses_complete_own_request run fewer).2.2 7 (.error (.remote 5))
    (List.mem_append_left _ due)).resolve_left ?_
  rintro (refused | ⟨_, _, refused⟩) <;> cases refused

end Baseband.Run
