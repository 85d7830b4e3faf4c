import Mathlib.Data.List.Nodup
import Baseband.Bench.Basic

/-!
# What becomes of services

Whatever is asked of a service, it keeps its version, its recipients and their cookies, and once it
answers to the client it goes on to do so. Only a death makes it forget its recipients.
-/

namespace Baseband

open Bench (Party)

namespace Loopback

variable {d : Directory Party Party} {number : Nat} {P : Service Party Party → Prop}

/-! ## One service -/

/-- What a service has become keeps what the client knows of it, and it still lives if it did. -/
structure Service.Keeps (service after : Service Party Party) : Prop where
  version : after.version = service.version
  alive : service.alive = true → after.alive = true
  recipients : ∀ recipient ∈ service.recipients, recipient ∈ after.recipients
  sink : service.sink = some .client → after.sink = some .client
  cookies : (service.recipients.map (·.cookie)).Nodup → (after.recipients.map (·.cookie)).Nodup

theorem Service.Keeps.refl (service : Service Party Party) : service.Keeps service :=
  ⟨rfl, id, fun _ => id, id, id⟩

/-- A registration is accepted by a live service that knows no recipient under the cookie. -/
theorem Service.link_eq_ok {ω σ : Type} {service after : Service ω σ} {recipient : Recipient ω} :
    service.link recipient = .ok after ↔ service.alive = true ∧
      recipient.cookie ∉ service.recipients.map (·.cookie) ∧
      after = { service with recipients := service.recipients ++ [recipient] } := by
  unfold Service.link
  split
  · rename_i dead
    refine ⟨nofun, fun ⟨alive, _⟩ => ?_⟩
    rw [alive] at dead
    cases dead
  · rename_i alive
    split
    · rename_i taken
      refine ⟨nofun, fun ⟨_, fresh, _⟩ => absurd ?_ fresh⟩
      simpa using taken
    · rename_i fresh
      rw [Except.ok.injEq, eq_comm]
      refine ⟨fun same => ⟨by simpa using alive, by simpa using fresh, same⟩, ?_⟩
      exact fun ⟨_, _, same⟩ => same

/-- A registration takes nothing from what the client knows of the service. -/
theorem Service.keeps_link {service after : Service Party Party} {recipient : Recipient Party}
    (accepted : service.link recipient = .ok after) : service.Keeps after := by
  obtain ⟨-, fresh, rfl⟩ := link_eq_ok.1 accepted
  refine ⟨rfl, id, fun _ => List.mem_append_left _, id, fun nodup => ?_⟩
  rw [List.map_append, List.map_singleton, List.nodup_append]
  refine ⟨nodup, List.nodup_singleton _, ?_⟩
  rintro cookie listed other isNew rfl
  exact fresh (List.mem_singleton.1 isNew ▸ listed)

theorem Service.keeps_route (service : Service Party Party) :
    service.Keeps (service.route .client) :=
  ⟨rfl, id, fun _ => id, fun _ => rfl, id⟩

/-! ## Requests -/

namespace Service

variable (service : Service Party Party)

def receive (requests : List Received) : Service Party Party :=
  { service with received := service.received ++ requests }

theorem receive_nil : service.receive [] = service := by
  rw [receive, List.append_nil]

theorem receive_receive (requests more : List Received) :
    (service.receive requests).receive more = service.receive (requests ++ more) := by
  simp [receive]

variable {service}

/-- A service that lives takes every request, and answers as its handler says. -/
theorem send_of_alive (alive : service.alive = true) (sends : service.failSends = false)
    (serial : Serial) (op : Operation) (payload : Bytes) :
    service.send serial op payload = .ok (service.receive [.of serial op payload],
      (service.handler (.of serial op payload)).map fun (status, response) =>
        ⟨service.sink, .solicited serial status, response.encode⟩) := by
  simp [send, alive, sends, receive]

/-- A service that takes a request receives it, and nothing else becomes of it. -/
theorem eq_receive_of_send {after : Service Party Party} {reply : Option (Reply Party)}
    {serial : Serial} {op : Operation} {payload : Bytes}
    (accepted : service.send serial op payload = .ok (after, reply)) :
    after = service.receive [.of serial op payload] := by
  unfold send at accepted
  split at accepted
  · cases accepted
  · split at accepted <;> cases accepted
    rfl

theorem keeps_send {after : Service Party Party} {reply : Option (Reply Party)} {serial : Serial}
    {op : Operation} {payload : Bytes}
    (accepted : service.send serial op payload = .ok (after, reply)) : service.Keeps after := by
  rw [eq_receive_of_send accepted]
  exact ⟨rfl, id, fun _ => id, id, id⟩

end Service

/-! ## All services -/

def Directory.Has (d : Directory Party Party) (number : Nat) (P : Service Party Party → Prop) :
    Prop :=
  ∃ service, d.services[number]? = some service ∧ P service

theorem Directory.Has.mono {Q : Service Party Party → Prop} (has : d.Has number P)
    (imp : ∀ service, P service → Q service) : d.Has number Q := by
  obtain ⟨service, found, holds⟩ := has
  exact ⟨service, found, imp service holds⟩

theorem Directory.services_modify {service : Service Party Party}
    (found : d.services[number]? = some service) (f : Service Party Party → Service Party Party) :
    (d.modify number f).services[number]? = some (f service) := by
  simp [modify, found]

theorem Directory.has_modify {service : Service Party Party}
    (found : d.services[number]? = some service) {f : Service Party Party → Service Party Party}
    (holds : P (f service)) : (d.modify number f).Has number P :=
  ⟨f service, services_modify found f, holds⟩

def Directory.CookiesApart (d : Directory Party Party) : Prop :=
  ∀ (number : Nat) (service : Service Party Party), d.services[number]? = some service →
    (service.recipients.map (·.cookie)).Nodup

/-- Every service is still there and keeps what the client knows of it. -/
structure Directory.Tends (d d' : Directory Party Party) : Prop where
  keeps : ∀ number service, d.services[number]? = some service → d'.Has number service.Keeps
  cookies : d.CookiesApart → d'.CookiesApart

/-- Cookies stay apart if the service that changes keeps its own apart. -/
theorem Directory.CookiesApart.modify (apart : d.CookiesApart)
    {f : Service Party Party → Service Party Party}
    (keeps : ∀ service, d.services[number]? = some service →
      (service.recipients.map (·.cookie)).Nodup → ((f service).recipients.map (·.cookie)).Nodup) :
    (d.modify number f).CookiesApart := by
  intro other service found
  by_cases same : number = other
  · subst same
    rw [Directory.modify, List.getElem?_modify_eq] at found
    cases before : d.services[number]? with
    | none =>
      rw [before] at found
      cases found
    | some service =>
      rw [before] at found
      cases found
      exact keeps service before (apart number service before)
  · rw [Directory.modify, List.getElem?_modify_ne _ _ same] at found
    exact apart other service found

theorem Directory.tends_of_services {d d' : Directory Party Party}
    (same : d'.services = d.services) : d.Tends d' where
  keeps _ service found := ⟨service, same ▸ found, .refl service⟩
  cookies nodup number service found := nodup number service (same ▸ found)

theorem Directory.tends_modify (d : Directory Party Party) (number : Nat)
    {f : Service Party Party → Service Party Party}
    (keeps : ∀ service, d.services[number]? = some service → service.Keeps (f service)) :
    d.Tends (d.modify number f) where
  keeps other service found := by
    by_cases same : number = other
    · subst same
      exact ⟨f service, by simp [modify, found], keeps service found⟩
    · exact ⟨service, by simp [modify, same, found], .refl service⟩
  cookies apart := apart.modify fun service found => (keeps service found).cookies

theorem Directory.tends_register (d : Directory Party Party) (version : Version) :
    d.Tends (d.register version) where
  keeps _ service found :=
    ⟨service, List.getElem?_append_left (List.getElem?_eq_some_iff.1 found).1 ▸ found,
      .refl service⟩
  cookies nodup number service found := by
    rw [register] at found
    dsimp only at found
    rw [List.getElem?_append] at found
    split at found
    · exact nodup number service found
    · rw [List.getElem?_singleton] at found
      split at found
      · cases found
        exact List.nodup_nil
      · cases found

theorem Directory.discover_services (d : Directory Party Party) (version : Version) :
    (d.discover version).1.services = d.services := by
  unfold discover
  dsimp only
  split
  · rfl
  · split <;> rfl

/-- What is found is there. -/
theorem Directory.has_of_discover {version : Version}
    (found : (d.discover version).2 = .ok number) : d.Has number fun _ => True := by
  have live (some : d.live? version = some number) : d.Has number fun _ => True := by
    obtain ⟨-, lives⟩ := Option.filter_eq_some_iff.1 some
    cases listed : d.services[number]? with
    | none =>
      rw [listed] at lives
      cases lives
    | some service => exact ⟨service, listed, trivial⟩
  unfold discover at found
  dsimp only at found
  split at found
  · cases found
  · split at found
    · rename_i listed
      cases found
      exact live listed
    · cases found

/-- What lasts for a service lasts for the service of a number. -/
theorem Directory.Has.tends {d' : Directory Party Party} (has : d.Has number P) (tends : d.Tends d')
    (kept : ∀ service after, service.Keeps after → P service → P after) : d'.Has number P := by
  obtain ⟨service, found, holds⟩ := has
  exact (tends.keeps number service found).mono fun after keeps => kept service after keeps holds

end Loopback

end Baseband
