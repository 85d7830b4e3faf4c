import Baseband.Proofs.Client.Fates
import Baseband.Proofs.Client.Sending
import Baseband.Proofs.Run.Responses
import Baseband.Proofs.Run.Teardown

/-!
# Sends that fail

While a request is being sent, its session may be lost and another one found, and the request may
have been answered. As long as it is outstanding, its session is the cached one, and once it is not,
its completion has been run or is about to be. So when the send returns an error, ending the session
by its number ends the request as well or finds it resolved, and never touches a newer session.
-/

namespace Baseband.Run

open scoped List
open Command (collect completion?)

variable {κ α : Type} {settings : Settings} {allowed : State κ α → Event κ α → Prop}
  {s t : State κ α} {past : List (State κ α)} {id : CallId} {serial : Serial} {generation : Nat}
  {query : Query} {completion : κ}

theorem Ordinary.indirect {event : Event κ α} (ordinary : Ordinary s event) :
    event.isDirect = false := by
  cases event <;> first | rfl | exact ordinary.elim

/-! ## Requests that are being sent -/

/-- A request has had this outcome in a run: its session was lost, or a response came while it was
outstanding. -/
def Resolved (states : List (State κ α)) (serial : Serial) (query : Query) (completion : κ)
    (outcome : Outcome) : Prop :=
  outcome = .error .unavailable ∨
    ∃ later before earlier header payload request,
      states = later ++ before.raise (.respond header payload) :: before :: earlier ∧
        header.serial = serial ∧ before.client.outstanding.find? serial = some request ∧
        request.completion = completion ∧
        outcome = Response.outcome query.operation header.status payload

/-- Where a request has come that is registered under a serial and a session: it is outstanding, and
the session is the cached one, or it is resolved, and its completion has been run or is about to
be. -/
inductive Pursued (s : State κ α) (past : List (State κ α)) (serial : Serial) (generation : Nat)
    (query : Query) (completion : κ) : Prop
  | outstanding {request : Request κ} (found : s.client.outstanding.find? serial = some request)
      (own : request.completion = completion) (operation : request.operation = query.operation)
      (current : s.client.isCurrent generation = true)
  | resolved {outcome : Outcome} (gone : s.client.outstanding.find? serial = none)
      (resolved : Resolved (s :: past) serial query completion outcome)
      (completed : .complete completion outcome ∈ s.agenda ++ s.done)

theorem Resolved.later {states : List (State κ α)} {outcome : Outcome}
    (resolved : Resolved states serial query completion outcome) (s : State κ α) :
    Resolved (s :: states) serial query completion outcome := by
  rcases resolved with lost | ⟨later, before, earlier, header, payload, request, split, rest⟩
  · exact .inl lost
  · exact .inr ⟨s :: later, before, earlier, header, payload, request,
      congrArg (s :: ·) split, rest⟩

/-- No event loses track of a request whose serial is not issued again. -/
theorem Pursued.raise (pursued : Pursued s past serial generation query completion)
    (valid : s.client.Valid) {event : Event κ α} (indirect : event.isDirect = false)
    (fresh : s.client.outstanding.freeSerial ≠ serial) :
    Pursued (s.raise event) (s :: past) serial generation query completion := by
  have move := Client.handle_move valid event
  cases pursued with
  | @outstanding request found own operation current =>
    obtain ⟨session, cached, number⟩ := Client.isCurrent_iff.1 current
    cases move.fate indirect cached found fresh with
    | stays found cached =>
      exact .outstanding found own operation (Client.isCurrent_iff.2 ⟨session, cached, number⟩)
    | ends gone ends completed =>
      subst own
      have completed := List.mem_append_left s.done (List.mem_append_left s.agenda completed)
      cases ends with
      | lost => exact .resolved gone (.inl rfl) completed
      | @answered header payload responds same =>
        subst responds
        rw [operation] at completed
        exact .resolved gone
          (.inr ⟨[], s, past, header, payload, request, rfl, same, found, rfl, rfl⟩) completed
  | resolved gone resolved completed =>
    refine .resolved (move.table.unknown gone fresh) (resolved.later _) ?_
    rw [State.agenda_raise, State.done_raise, List.append_assoc]
    exact List.mem_append_right _ completed

/-- As long as serials are not reused, every request that is being sent is either outstanding under
the cached session or resolved. -/
theorem sending_pursued (run : Run settings Ordinary s past)
    (fewer : s.client.outstanding.nextAge < Serial.count) :
    ∀ id serial generation, s.client.call? id = some (.sending serial generation) →
      serial.value.toNat ≤ s.client.outstanding.nextAge ∧
        ∃ query completion, .call id (.request query completion) ∈ s.events ∧
          Pursued s past serial generation query completion := by
  induction run with
  | start => nofun
  | @step s t past run step ih =>
    intro id serial generation sending
    cases step with
    | raise event ordinary =>
      have move := Client.handle_move run.valid event
      have younger := move.table.age_le
      have before := Nat.lt_of_le_of_lt younger fewer
      have next := ((run.serials_counted before).1.freeSerial run.sound before).2
      rcases move.sending (Client.mem_calls_of_call? sending) with listed | registers
      · obtain ⟨issued, query, completion, begun, pursued⟩ :=
          ih before id serial generation (Client.call?_of_mem_calls run.valid.distinct listed)
        have fresh : s.client.outstanding.freeSerial ≠ serial := by
          rintro rfl
          omega
        exact ⟨issued.trans younger, query, completion, .tail _ begun,
          pursued.raise run.valid ordinary.indirect fresh⟩
      · obtain ⟨query, completion, registers⟩ := registers
        have age := congrArg (·.nextAge) registers.table
        have found := congrArg (·.find? serial) registers.table
        rw [registers.serial] at found ⊢
        have found := found.trans (Outstanding.find?_freeSerial _ _ _ _)
        refine ⟨?_, query, completion, run.asks_begun registers.asks, ?_⟩
        · rw [next]
          exact age.ge
        · exact .outstanding found rfl rfl registers.current
    | carryOut due =>
      obtain ⟨issued, query, completion, begun, pursued⟩ := ih fewer id serial generation sending
      refine ⟨issued, query, completion, begun, ?_⟩
      cases pursued with
      | outstanding found own operation current => exact .outstanding found own operation current
      | resolved gone resolved completed =>
        exact .resolved gone (resolved.later _) ((State.mem_carryOut due).2 completed)

/-- A serial that has been issued is not issued again, as long as serials last. -/
theorem Above.unknown {base : List (Command κ α)} {since : List (Happening κ α)}
    (above : Above Ordinary base s t since) (run : Run settings Ordinary s past)
    (fewer : t.client.outstanding.nextAge < Serial.count)
    (issued : serial.value.toNat ≤ s.client.outstanding.nextAge)
    (gone : s.client.outstanding.find? serial = none) :
    t.client.outstanding.find? serial = none ∧
      serial.value.toNat ≤ t.client.outstanding.nextAge := by
  induction above with
  | start => exact ⟨gone, issued⟩
  | @raise t since above event admitted room ih =>
    obtain ⟨past', now⟩ := above.run run
    have table := (Client.handle_move now.valid event).table
    have before := Nat.lt_of_le_of_lt table.age_le fewer
    obtain ⟨gone, issued⟩ := ih before
    have next := ((now.serials_counted before).1.freeSerial now.sound before).2
    refine ⟨table.unknown gone ?_, issued.trans table.age_le⟩
    rintro rfl
    omega
  | carryOut above next ih => exact ih fewer

/-! ## The return of the send -/

section Returned

variable {since : List (Happening κ α)}
  (sending : s.client.call? id = some (.sending serial generation)) (why : Error)

include sending

/-- A send that fails under the current session takes its call and the session away. -/
theorem client_raise_sent_of_current (current : s.client.isCurrent generation = true) :
    (s.raise (.sent id (.error why))).client = (s.client.dropCall id).lost :=
  congrArg Prod.fst (Client.handle_sent_of_current sending why current)

/-- If the session of the send is the cached one, then all outstanding requests have failed before
the call returns. -/
theorem Above.fails_outstanding
    (above : Above allowed s.agenda (s.raise (.sent id (.error why))) t since)
    (returns : t.agenda = .finish id (.request (.ok serial)) :: s.agenda)
    (current : s.client.isCurrent generation = true) :
    Client.failAll s.client.outstanding.toList .unavailable <+ (Happening.done since).reverse := by
  obtain ⟨did, left, front, progress⟩ := above.progress
    (by rw [State.agenda_raise, Client.handle_sent_of_current sending why current])
  exact progress.sublist_done returns

/-- The request has left the table when the error has come, and is resolved when the call
returns. -/
theorem Pursued.failed (pursued : Pursued s past serial generation query completion)
    (above : Above allowed s.agenda (s.raise (.sent id (.error why))) t since)
    (returns : t.agenda = .finish id (.request (.ok serial)) :: s.agenda) :
    (s.raise (.sent id (.error why))).client.outstanding.find? serial = none ∧
      ∃ outcome, Resolved (s :: past) serial query completion outcome ∧
        .complete completion outcome ∈ t.agenda ++ t.done := by
  have cleared (current : s.client.isCurrent generation = true) :
      (s.raise (.sent id (.error why))).client.outstanding.find? serial = none := by
    rw [client_raise_sent_of_current sending why current]
    exact Outstanding.find?_clear _ _
  rw [above.done_eq, returns]
  cases pursued with
  | outstanding found own operation current =>
    have failed := (above.fails_outstanding sending why returns current).subset
      (Client.complete_mem_failAll found .unavailable)
    refine ⟨cleared current, _, .inl rfl, List.mem_append_right _ (List.mem_append_left _ ?_)⟩
    exact own ▸ List.mem_reverse.1 failed
  | resolved gone resolved completed =>
    refine ⟨?_, _, resolved, .tail _ ?_⟩
    · cases current : s.client.isCurrent generation with
      | true => exact cleared current
      | false =>
        rw [State.client_raise, Client.handle_sent_of_gone sending why current gone,
          Client.dropCall_outstanding, gone]
    · rw [List.mem_append] at completed
      exact List.mem_append.2 (completed.imp_right (List.mem_append_right _))

end Returned

/-- The send of a request returns an error. When its call then returns, it returns the serial, and
the request is not outstanding; its completion has been run, once, as unavailable unless a response
came before. Only if completions were already due when the error came, and are still, it may be one
of these. If the session under which the request was registered is the cached one when the error
comes, then it ends, and all outstanding requests have failed, in their order. If not, nothing
changes but that the call returns. -/
theorem failed_send_resolved (run : Run settings Ordinary s past)
    (sending : s.client.call? id = some (.sending serial generation)) (why : Error)
    {since : List (Happening κ α)}
    (above : Above Ordinary s.agenda (s.raise (.sent id (.error why))) t since)
    (returns : t.agenda = .finish id (.request (.ok serial)) :: s.agenda)
    (fewer : t.client.outstanding.nextAge < Serial.count) :
    ∃ query completion outcome, .call id (.request query completion) ∈ s.events ∧
      (∀ goal, .call id goal ∈ s.events → goal = .request query completion) ∧
      t.client.outstanding.find? serial = none ∧
      Resolved (s :: past) serial query completion outcome ∧
      .complete completion outcome ∈ t.agenda ++ t.done ∧
      (s.due = [] → .complete completion outcome ∈ t.done) ∧
      (t.handed.Nodup → t.invoked.Nodup ∧
        (s.due = [] → completion ∉ t.client.held ++ t.client.registered ++ t.due)) ∧
      (s.client.isCurrent generation = true →
        (s.client.handle (.sent id (.error why))).2 =
          (s.client.outstanding.toList.map fun request =>
              .complete request.completion (.error .unavailable)) ++
            [.finish id (.request (.ok serial))] ∧
        (s.raise (.sent id (.error why))).client.session = none ∧
        t.client.isCurrent generation = false ∧
        (s.client.outstanding.toList.map fun request =>
            .complete request.completion (.error .unavailable)) <+
          (Happening.done since).reverse) ∧
      (s.client.isCurrent generation = false →
        s.client.handle (.sent id (.error why)) =
          (s.client.dropCall id, [.finish id (.request (.ok serial))])) := by
  have began := run.step (.raise (.sent id (.error why)) trivial (s.hasRoom_sent id _))
  obtain ⟨past', now⟩ := above.run began
  have younger := (Client.handle_move run.valid (.sent id (.error why))).table.age_le
  have last := began.valid.nextAge_le_after (Happening.events since)
  rw [← above.client_eq] at last
  obtain ⟨issued, query, completion, begun, pursued⟩ :=
    run.sending_pursued (Nat.lt_of_le_of_lt (younger.trans last) fewer) id serial generation sending
  obtain ⟨gone, outcome, resolved, completed⟩ := pursued.failed sending why above returns
  have ran (idle : s.due = []) : .complete completion outcome ∈ t.done := by
    have none : collect completion? t.agenda = [] := by
      rw [returns]
      exact idle
    refine (List.mem_append.1 completed).resolve_left fun due => ?_
    exact List.not_mem_nil (none ▸ Command.mem_collect_completion.2 ⟨outcome, due⟩)
  refine ⟨query, completion, outcome, begun, fun goal also => run.begins_once _ _ _ also begun, ?_,
    resolved, completed, ran, fun distinct => ?_, fun current => ?_, fun superseded => ?_⟩
  · exact (above.unknown began fewer (issued.trans younger) gone).1
  · obtain ⟨once, nowhere⟩ :=
      now.invoked_once (fun _ _ _ run ordinary => ordinary.careful run) distinct
    exact ⟨once, fun idle =>
      nowhere completion (Command.mem_collect_completion.2 ⟨outcome, ran idle⟩)⟩
  · have cleared := client_raise_sent_of_current sending why current
    refine ⟨congrArg Prod.snd (Client.handle_sent_of_current sending why current), ?_, ?_,
      above.fails_outstanding sending why returns current⟩
    · rw [cleared]
      rfl
    · rw [above.client_eq, cleared]
      exact (run.valid.dropSending sending).superseded_of_lost current _
  · cases pursued with
    | outstanding _ _ _ current => rw [superseded] at current; cases current
    | resolved gone => exact Client.handle_sent_of_gone sending why superseded gone

/-- The first request cannot be sent. -/
theorem failed_send_resolved_of_first :
    ∃ (s t : State Nat Nat) (past : List (State Nat Nat)) (since : List (Happening Nat Nat)),
      Run { Settings.standard with candidates := [⟨1, 3⟩] } Ordinary s past ∧
        s.client.call? 0 = some (.sending .first 1) ∧
        Above Ordinary s.agenda (s.raise (.sent 0 (.error .unavailable))) t since ∧
        t.agenda = .finish 0 (.request (.ok .first)) :: s.agenda ∧
        t.client.outstanding.nextAge < Serial.count ∧
        t.client.outstanding.find? .first = none ∧
        (∃ completion outcome, .complete completion outcome ∈ t.done) ∧
        (s.raise (.sent 0 (.error .unavailable))).client.session = none := by
  obtain ⟨before, past, routed, first⟩ := exists_firstRequest Ordinary
    (fun s _ _ nothing goal => by simp [State.events, nothing])
    (fun s event _ listed => by
      simp only [List.mem_cons, List.not_mem_nil, or_false] at listed
      rcases listed with rfl | rfl | rfl <;> trivial)
  let s := before.carryOut (.send 0 3 .first .getSlotStatus Query.getSlotStatus.payload) []
  have run := routed.step (.carryOut first.agenda)
  have current : s.client.isCurrent 1 = true := Client.isCurrent_iff.2 ⟨_, first.session, rfl⟩
  have sending : s.client.call? 0 = some (.sending .first 1) := first.sending
  have next : (s.raise (.sent 0 (.error .unavailable))).agenda =
      .complete 7 (.error .unavailable) ::
        ([.finish 0 (.request (.ok .first))] ++ s.agenda) := by
    rw [State.agenda_raise, Client.handle_sent_of_current sending .unavailable current,
      show s.client.outstanding.toList = _ from first.requests]
    rfl
  have above : Above Ordinary s.agenda (s.raise (.sent 0 (.error .unavailable))) _ _ :=
    .carryOut (.start (show _ = [_, _] ++ s.agenda from next)) next
  have few : (s.raise (.sent 0 (.error .unavailable))).client.outstanding.nextAge <
      Serial.count := by
    rw [State.client_raise, Client.sent_nextAge, State.client_carryOut, first.age]
    decide
  obtain ⟨_, _, _, _, _, gone, _, _, ran, _, lost, _⟩ :=
    failed_send_resolved run sending .unavailable above rfl few
  exact ⟨s, _, _, _, run, sending, above, rfl, few, gone, ⟨_, _, ran rfl⟩, (lost current).2.1⟩

end Baseband.Run
