import Slt.Upgrade.Protocol

/-!
# What one step of a party can do

Inversions of the two step relations, one for each part of the state that
the invariants follow: what a written message says about the step, and how
the attempt, the preference, the pending request and the registration change.
-/

namespace Slt.Upgrade

variable {R C I : Type} {cid : R → C}

/-! ## Lists of actions -/

@[simp] theorem mem_clientMessages {acts : List (ClientAction R I)} {m : ClientMessage R I} :
    m ∈ acts.filterMap ClientAction.message ↔ .write m ∈ acts := by
  rw [List.mem_filterMap]
  constructor
  · rintro ⟨a, ha, h⟩
    cases a with
    | write m' => cases h; exact ha
    | probe p => cases h
    | start u => cases h
  · exact fun h => ⟨_, h, rfl⟩

@[simp] theorem mem_serverMessages {acts : List (ServerAction R C I)} {m : ServerMessage C I} :
    m ∈ acts.filterMap ServerAction.message ↔ .write m ∈ acts := by
  rw [List.mem_filterMap]
  constructor
  · rintro ⟨a, ha, h⟩
    cases a with
    | write m' => cases h; exact ha
    | _ => cases h
  · exact fun h => ⟨_, h, rfl⟩

@[simp] theorem Client.mem_requests {c : Client R I} {f : I} {a : ClientAction R I} :
    a ∈ c.requests f ↔ c.pending = none ∧ a = .write (.fallback f) := by
  unfold Client.requests
  split <;> simp_all

@[simp] theorem Server.mem_requests {v : Server R I} {f : I} {a : ServerAction R C I} :
    a ∈ v.requests f ↔ v.pending = none ∧ a = .write (.fallback f) := by
  unfold Server.requests
  split <;> simp_all

@[simp] theorem Server.mem_retires {v : Server R I} {a : ServerAction R C I} :
    a ∈ v.retires ↔ ∃ r, v.session = some r ∧ a = .retire r := by
  simp [Server.retires, eq_comm]

@[simp] theorem Server.mem_echoes {sent : Bool} {p : Probe R I} {a : ServerAction R C I} :
    a ∈ Server.echoes sent p ↔ sent = true ∧ a = .echo p := by
  unfold Server.echoes
  split <;> simp_all

@[simp] theorem Server.messages_echoes (sent : Bool) (p : Probe R I) :
    (Server.echoes sent p : List (ServerAction R C I)).filterMap ServerAction.message = [] := by
  cases sent <;> rfl

@[simp] theorem Server.mem_offers {v : Server R I} {u : I} {a : ServerAction R C I} :
    a ∈ v.offers u ↔ v.probeSeen = true ∧ v.readySeen = true ∧ v.switchSent = false ∧
      a = .write (.switchTo u) := by
  unfold Server.offers
  split <;> simp_all

/-! ## The client -/

namespace ClientStep

variable {c c' : Client R I} {input : Input (ServerMessage C I) R I}
  {acts : List (ClientAction R I)} {u n f : I} {r : R}

section

variable (h : ClientStep cid c input c' acts)
include h

theorem messages :
    acts.filterMap ClientAction.message = [] ∨
      ∃ m, acts.filterMap ClientAction.message = [m] ∧ .write m ∈ acts := by
  cases h with
  | abandon u f awaiting => cases hc : c.pending <;> simp [Client.requests, hc]
  | fallBack f => cases hc : c.pending <;> simp [Client.requests, hc]
  | unsent r u n f probing active =>
    cases hc : c.pending <;> simp [Client.requests, hc, List.filterMap_cons]
  | _ => simp

theorem of_register (hw : .write (.register r) ∈ acts) :
    c.registration = .none ∧ c' = { c with registration := .inFlight r } := by
  cases h <;> simp_all

theorem of_ready (hw : .write (.ready u) ∈ acts) :
    ∃ r n, input = .packet ⟨r, u, n⟩ ∧ c.attempt = .probing u n ∧ c.registration = .active r ∧
      c' = { c with attempt := .ready u n } := by
  cases h <;> simp_all

theorem of_ack (hw : .write (.ack u) ∈ acts) :
    input = .message (.switchTo u) ∧ (∃ n, c.attempt = .ready u n) ∧
      c' = { c with attempt := .awaiting u } ∧ acts = [.write (.ack u)] := by
  cases h <;> simp_all

theorem of_fallback (hw : .write (.fallback f) ∈ acts) :
    input = .tick ∧ c.pending = none ∧ c'.pending = some f ∧ c'.attempt = .idle ∧
      c'.udp = false := by
  cases h <;> simp_all [Client.request]

theorem of_fallbackOk (hw : .write (.fallbackOk f) ∈ acts) : input = .message (.fallback f) := by
  cases h <;> simp_all

end

theorem of_probe {p : Probe R I} (h : ClientStep cid c input c' acts) (hp : .probe p ∈ acts) :
    c.attempt = .probing p.upgradeId p.nonce ∧ c.registration = .active p.registration := by
  cases h <;> simp_all

/-- A fallback request of the server ends what the client was doing, unless it
is the one the client yielded to last. -/
theorem of_peerFallback (h : ClientStep cid c (.message (.fallback f)) c' acts) :
    acts = [.write (.fallbackOk f)] ∧
      (c.lastPeer ≠ some f → c'.registration = .none ∧ c'.attempt = .idle ∧ c'.udp = false ∧
        c'.pending = c.pending ∧ c'.lastPeer = some f) := by
  cases h <;> simp_all [Client.Ignores]

theorem of_switchOk (h : ClientStep cid c (.message (.switchOk u)) c' acts) :
    (c.attempt = .awaiting u → c'.udp = true) := by
  cases h <;> simp_all [Client.Ignores]

variable (h : ClientStep cid c input c' acts)
include h

theorem lastPeer :
    c'.lastPeer = c.lastPeer ∨
      ∃ f, input = .message (.fallback f) ∧ c.lastPeer ≠ some f ∧ c'.lastPeer = some f := by
  cases h <;> simp_all [Client.request]

theorem to_probing (ha : c'.attempt = .probing u n) :
    c.attempt = .probing u n ∨ .start u ∈ acts := by
  cases h <;> simp_all

theorem to_ready (ha : c'.attempt = .ready u n) :
    c.attempt = .ready u n ∨ (c.attempt = .probing u n ∧ .write (.ready u) ∈ acts) := by
  cases h <;> simp_all

theorem to_awaiting (ha : c'.attempt = .awaiting u) :
    c.attempt = .awaiting u ∨ .write (.ack u) ∈ acts := by
  cases h <;> simp_all

theorem to_udp (hu : c'.udp = true) :
    c.udp = true ∨ ∃ u, input = .message (.switchOk u) ∧ c.attempt = .awaiting u := by
  cases h <;> simp_all [Client.request]

theorem from_awaiting (ha : c.attempt = .awaiting u) :
    c'.attempt = .awaiting u ∨ (input = .message (.switchOk u) ∧ c'.udp = true) ∨
      (∃ f, input = .message (.fallback f)) ∨
      (c.pending = none → ∃ f, .write (.fallback f) ∈ acts) ∨
      ∀ r, c.registration ≠ .active r := by
  cases h <;> simp_all [Client.request]

theorem from_udp (hu : c.udp = true) :
    c'.udp = true ∨ (∃ f, input = .message (.fallback f)) ∨
      (c.pending = none → ∃ f, .write (.fallback f) ∈ acts) := by
  cases h <;> simp_all [Client.request]

theorem to_pending (hp : c'.pending = some f) :
    c.pending = some f ∨ .write (.fallback f) ∈ acts := by
  cases h with
  | abandon u f' awaiting =>
    cases hc : c.pending <;> simp_all [Client.request]
  | fallBack f' =>
    cases hc : c.pending <;> simp_all [Client.request]
  | unsent r u n f' probing active =>
    cases hc : c.pending <;> simp_all [Client.request]
  | _ => simp_all

theorem to_current (hr : c'.registration.current = some r) :
    c.registration.current = some r ∨ .write (.register r) ∈ acts := by
  cases h <;> simp_all [Client.request]

theorem to_inFlight (hr : c'.registration = .inFlight r) :
    c.registration = .inFlight r ∨ .write (.register r) ∈ acts := by
  cases h <;> simp_all [Client.request]

theorem to_active (ha : c.registration = .active r) :
    c'.registration = .active r ∨ c'.registration = .none ∧ c'.attempt = .idle := by
  cases h <;> simp_all [Client.request]

end ClientStep

/-! ## The server -/

attribute [simp] Server.clear Server.retire Server.request Server.offer

namespace ServerStep

variable {v v' : Server R I} {input : Input (ClientMessage R I) R I}
  {acts : List (ServerAction R C I)} {u f : I} {r : R}

theorem messages (h : ServerStep cid v input v' acts) :
    acts.filterMap ServerAction.message = [] ∨
      ∃ m, acts.filterMap ServerAction.message = [m] ∧ .write m ∈ acts := by
  cases h with
  | failed f =>
    cases hv : v.session <;> cases hp : v.pending <;>
      simp [Server.retires, Server.requests, hv, hp, List.filterMap_cons]
  | probed p keys same =>
    cases v.readySeen <;> cases v.switchSent <;> simp [Server.offers, List.filterMap_cons]
  | announced u free =>
    cases v.probeSeen <;> cases v.switchSent <;> simp [Server.offers]
  | interrupted p sent keys same => exact .inl (Server.messages_echoes sent p)
  | superseded p sent keys other => exact .inl (Server.messages_echoes sent p)
  | dropped p sent keys => exact .inl (by simp)
  | _ => simp [List.filterMap_cons]

theorem of_registerOk {k : C} (h : ServerStep cid v input v' acts)
    (hw : .write (.registerOk k) ∈ acts) : ∃ r, input = .message (.register r) ∧ k = cid r := by
  cases h <;> simp_all

theorem of_install (h : ServerStep cid v input v' acts) (hi : .install r ∈ acts) :
    input = .message (.register r) ∧ v.udp = false ∧ v'.session = some r := by
  cases h <;> simp_all

theorem of_echo {p : Probe R I} (h : ServerStep cid v input v' acts) (he : .echo p ∈ acts) :
    input = .packet p ∧ v.session = some p.registration := by
  cases h <;> simp_all

section

variable (h : ServerStep cid v input v' acts)
include h

theorem of_switchTo (hw : .write (.switchTo u) ∈ acts) : v'.Follows u ∧ v'.probeSeen = true := by
  cases h <;> simp_all [Server.Follows]

theorem of_switchOk (hw : .write (.switchOk u) ∈ acts) :
    input = .message (.ack u) ∧ v.upgradeId = some u ∧ v.switchSent = true ∧ v'.udp = true ∧
      acts = [.prefer true, .write (.switchOk u)] := by
  cases h <;> simp_all

theorem of_silence (hs : .silence ∈ acts) : ∃ p, input = .packet p := by
  cases h <;> simp_all

theorem of_fallback (hw : .write (.fallback f) ∈ acts) :
    input = .tick ∧ v.pending = none ∧ v'.pending = some f ∧ v'.udp = false ∧
      v'.session = none ∧ v'.upgradeId = none := by
  cases h <;> simp_all

theorem of_fallbackOk (hw : .write (.fallbackOk f) ∈ acts) : input = .message (.fallback f) := by
  cases h <;> simp_all

end

theorem of_peerFallback (h : ServerStep cid v (.message (.fallback f)) v' acts) :
    acts = [.write (.fallbackOk f)] ∧
      (v.lastPeer ≠ some f → v'.udp = false ∧ v'.upgradeId = none ∧ v'.session = v.session ∧
        v'.pending = v.pending ∧ v'.lastPeer = some f) := by
  cases h <;> simp_all [Server.Ignores]

variable (h : ServerStep cid v input v' acts)
include h

theorem lastPeer :
    v'.lastPeer = v.lastPeer ∨
      ∃ f, input = .message (.fallback f) ∧ v.lastPeer ≠ some f ∧ v'.lastPeer = some f := by
  cases h <;> simp_all

theorem to_follows (hf : v'.Follows u) : v.Follows u ∨ input = .message (.ready u) := by
  cases h <;> simp_all [Server.Follows]

theorem to_upgradeId (hu : v'.upgradeId = some u) :
    v.upgradeId = some u ∨ input = .message (.ready u) ∨
      ∃ p, input = .packet p ∧ p.upgradeId = u := by
  cases h <;> simp_all

theorem to_probeSeen (hu : v'.upgradeId = some u) (hp : v'.probeSeen = true) :
    (v.upgradeId = some u ∧ v.probeSeen = true) ∨ (v.upgradeId = none ∧ v.probeSeen = true) ∨
      ∃ p, input = .packet p ∧ p.upgradeId = u ∧ v.session = some p.registration := by
  cases h with
  | announced u' free =>
    rcases free with hnone | hsame
    · exact .inr (.inl ⟨hnone, by simpa using hp⟩)
    · exact .inl (by simp_all)
  | _ => simp_all

theorem to_udp (hu : v'.udp = true) :
    v.udp = true ∨ ∃ u, input = .message (.ack u) ∧ v.upgradeId = some u ∧ v.switchSent = true ∧
      .write (.switchOk u) ∈ acts := by
  cases h <;> simp_all

theorem from_udp (hu : v.udp = true) :
    v'.udp = true ∨ (∃ f, input = .message (.fallback f)) ∨ .silence ∈ acts ∨
      (v.pending = none → ∃ f, .write (.fallback f) ∈ acts) := by
  cases h <;> simp_all

theorem to_pending (hp : v'.pending = some f) :
    v.pending = some f ∨ .write (.fallback f) ∈ acts := by
  cases h with
  | failed f' => cases hv : v.pending <;> simp_all
  | _ => simp_all

theorem to_session (hr : v'.session = some r) : v.session = some r ∨ .install r ∈ acts := by
  cases h <;> simp_all

/-- How a registration goes: another takes its place, the client is told, or
the server is silent about it. -/
theorem from_session (hr : v.session = some r) :
    v'.session = some r ∨ (∃ r', .install r' ∈ acts) ∨
      .retire r ∈ acts ∧ v'.session = none ∧
        (.silence ∈ acts ∨ ∃ f, v'.pending = some f ∧
          (v.pending = some f ∨ .write (.fallback f) ∈ acts)) := by
  cases h with
  | failed f => cases hp : v.pending <;> simp_all
  | _ => simp_all

end ServerStep

end Slt.Upgrade
