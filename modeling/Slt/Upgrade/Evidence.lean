import Slt.Lib.Trace
import Slt.Upgrade.Agreement

/-!
# What a switch rests on

The record behind each state of the handshake: a server that follows an
attempt has read its probe and its announcement, a client that accepted the
offer has its own probe echoed, and the confirmation was written by a server
that had switched. All facts are about one upgrade id.
-/

namespace Slt.Upgrade

open Lib (Since since_last)

variable {R C I : Type} {cid : R → C} {s s' : State R C I}

/-! ## Facts about the record -/

/-- A probe of the attempt arrived under a registration that the server had
installed. -/
def Probed (u : I) (log : List (Event R C I)) : Prop :=
  ∃ p : Probe R I, p.upgradeId = u ∧ .clientDid (.probe p) ∈ log ∧
    .serverGot (.packet p) ∈ log ∧ .serverDid (.install p.registration) ∈ log

def Offered (u : I) (log : List (Event R C I)) : Prop :=
  Probed u log ∧ .serverGot (.message (.ready u)) ∈ log ∧
    .serverDid (.write (.switchTo u)) ∈ log

/-- The echo of the client's own probe arrived. -/
def Echoed (r : R) (u n : I) (log : List (Event R C I)) : Prop :=
  .clientDid (.probe ⟨r, u, n⟩) ∈ log ∧ .clientGot (.packet ⟨r, u, n⟩) ∈ log

/-- The server read the acceptance, switched and confirmed, in this order. -/
def Confirmed (u : I) (log : List (Event R C I)) : Prop :=
  [.serverGot (.message (.ack u)), .serverDid (.prefer true),
    .serverDid (.write (.switchOk u))].Sublist log

/-- The client neither asks for a fallback nor is asked for one. -/
def NoFallback (e : Event R C I) : Prop :=
  ∀ f, e ≠ .clientDid (.write (.fallback f)) ∧ e ≠ .clientGot (.message (.fallback f))

section Append

variable {log : List (Event R C I)} {u n : I} {r : R}

theorem Probed.append (h : Probed u log) (more : List (Event R C I)) : Probed u (log ++ more) := by
  obtain ⟨p, hu, hsent, hgot, hinstall⟩ := h
  exact ⟨p, hu, List.mem_append_left _ hsent, List.mem_append_left _ hgot,
    List.mem_append_left _ hinstall⟩

theorem Offered.append (h : Offered u log) (more : List (Event R C I)) :
    Offered u (log ++ more) :=
  ⟨h.1.append more, List.mem_append_left _ h.2.1, List.mem_append_left _ h.2.2⟩

theorem Echoed.append (h : Echoed r u n log) (more : List (Event R C I)) :
    Echoed r u n (log ++ more) :=
  ⟨List.mem_append_left _ h.1, List.mem_append_left _ h.2⟩

theorem Confirmed.append (h : Confirmed u log) (more : List (Event R C I)) :
    Confirmed u (log ++ more) :=
  h.trans (List.sublist_append_left log more)

end Append

/-! ## The invariant -/

structure Evidence (s : State R C I) : Prop where
  echoes : ∀ p, .serverDid (.echo p) ∈ s.log → .clientDid (.probe p) ∈ s.log
  /-- The probes of the present attempt are under the present registration. -/
  own : ∀ p, .clientDid (.probe p) ∈ s.log → s.client.attempt.upgradeId = some p.upgradeId →
    s.client.registration = .active p.registration
  probed : ∀ u, s.server.upgradeId = some u → s.server.probeSeen = true → Probed u s.log
  announced : ∀ u, s.server.Follows u → .serverGot (.message (.ready u)) ∈ s.log
  offered : ∀ u, .switchTo u ∈ s.s2c → Offered u s.log
  ready : ∀ u n, s.client.attempt = .ready u n →
    ∃ r, s.client.registration = .active r ∧ Echoed r u n s.log
  accepted : ∀ u, s.client.attempt = .awaiting u →
    (∃ r n, s.client.registration = .active r ∧ Echoed r u n s.log) ∧ Offered u s.log ∧
      Since NoFallback (.clientDid (.write (.ack u))) s.log
  confirmed : ∀ u, .switchOk u ∈ s.s2c → Confirmed u s.log

namespace Evidence

theorem initial : Evidence (State.initial : State R C I) := by
  constructor <;> simp [State.initial, Client.initial, Server.initial, Server.Follows]

section Client

variable {input : Input (ServerMessage C I) R I} {rest : List (ServerMessage C I)}
  {c : Client R I} {acts : List (ClientAction R I)}

theorem active_stays (taken : ClientStep cid s.client input c acts) {r : R}
    (hr : s.client.registration = .active r) (ha : c.attempt ≠ .idle) :
    c.registration = .active r :=
  (taken.to_active hr).resolve_right fun h => ha h.2

theorem own_client (h : Evidence s) (hi : Inv s) (taken : ClientStep cid s.client input c acts)
    (fresh : ∀ a ∈ acts, s.FreshClient a) {p : Probe R I}
    (hp : .clientDid (.probe p) ∈ (s.afterClient input rest c acts).log)
    (hu : c.attempt.upgradeId = some p.upgradeId) : c.registration = .active p.registration := by
  rcases State.clientDid_afterClient.mp hp with hold | hnew
  · have hsame : s.client.attempt.upgradeId = some p.upgradeId := by
      cases ha : c.attempt with
      | idle => simp [ha] at hu
      | probing u n =>
        obtain rfl : u = p.upgradeId := by simpa [ha] using hu
        rcases taken.to_probing ha with hwas | hstart
        · simp [hwas]
        · -- an attempt that starts now has no probes
          exact absurd (hi.started.probe p hold) (fresh _ hstart)
      | ready u n =>
        rw [ha] at hu
        rcases taken.to_ready ha with hwas | ⟨hwas, -⟩ <;> simpa [hwas] using hu
      | awaiting u =>
        rw [ha] at hu
        rcases taken.to_awaiting ha with hwas | hack
        · simpa [hwas] using hu
        · obtain ⟨-, ⟨n, hwas⟩, -⟩ := taken.of_ack hack
          simpa [hwas] using hu
    exact active_stays taken (h.own p hold hsame) fun hidle => by simp [hidle] at hu
  · obtain ⟨-, hactive⟩ := taken.of_probe hnew
    exact active_stays taken hactive fun hidle => by simp [hidle] at hu

theorem noFallback_client (taken : ClientStep cid s.client input c acts) {u : I}
    (hstay : c.attempt = .awaiting u)
    (hnew : ∀ f, input = .message (.fallback f) → s.client.lastPeer ≠ some f) :
    ∀ e ∈ .clientGot input :: acts.map Event.clientDid, NoFallback (C := C) e := by
  intro e he f
  rcases List.mem_cons.mp he with rfl | he
  · refine ⟨by simp, fun hf => ?_⟩
    obtain rfl : input = .message (.fallback f) := by simpa using hf
    obtain ⟨-, hyield⟩ := taken.of_peerFallback
    cases (hyield (hnew f rfl)).2.1.symm.trans hstay
  · obtain ⟨a, ha, rfl⟩ := List.mem_map.mp he
    refine ⟨fun hf => ?_, by simp⟩
    obtain rfl : a = .write (.fallback f) := by simpa using hf
    cases (taken.of_fallback ha).2.2.2.1.symm.trans hstay

theorem ready_client (h : Evidence s)
    (offered : input.Taken s.s2c rest fun p => .serverDid (.echo p) ∈ s.log)
    (taken : ClientStep cid s.client input c acts) {u n : I} (ha : c.attempt = .ready u n) :
    ∃ r, c.registration = .active r ∧ Echoed r u n (s.afterClient input rest c acts).log := by
  rcases taken.to_ready ha with hold | ⟨-, hw⟩
  · obtain ⟨r, hr, hechoed⟩ := h.ready u n hold
    exact ⟨r, active_stays taken hr (by simp [ha]), hechoed.append _⟩
  · obtain ⟨r, n', rfl, -, hr, rfl⟩ := taken.of_ready hw
    obtain rfl : n' = n := by simpa using ha
    refine ⟨r, hr, ?_, ?_⟩
    · exact State.clientDid_afterClient.mpr (.inl (h.echoes _ offered.2))
    · exact State.clientGot_afterClient.mpr (.inr rfl)

theorem accepted_client (h : Evidence s) (hi : Inv s)
    (offered : input.Taken s.s2c rest fun p => .serverDid (.echo p) ∈ s.log)
    (taken : ClientStep cid s.client input c acts) {u : I} (ha : c.attempt = .awaiting u) :
    (∃ r n, c.registration = .active r ∧
        Echoed r u n (s.afterClient input rest c acts).log) ∧
      Offered u (s.afterClient input rest c acts).log ∧
      Since NoFallback (.clientDid (.write (.ack u))) (s.afterClient input rest c acts).log := by
  have hactive := fun r hr => active_stays (r := r) taken hr (by simp [ha])
  rcases taken.to_awaiting ha with hold | hw
  · obtain ⟨⟨r, n, hr, hechoed⟩, hoffered, hsince⟩ := h.accepted u hold
    refine ⟨⟨r, n, hactive r hr, hechoed.append _⟩, hoffered.append _, hsince.append ?_⟩
    refine noFallback_client taken ha ?_
    rintro f rfl
    exact hi.drawn.clientNew f offered.head
  · obtain ⟨rfl, ⟨n, hready⟩, -, rfl⟩ := taken.of_ack hw
    obtain ⟨r, hr, hechoed⟩ := h.ready u n hready
    refine ⟨⟨r, n, hactive r hr, hechoed.append _⟩, (h.offered u offered.head).append _, ?_⟩
    rw [State.afterClient, List.append_cons]
    exact since_last _ (by simp)

theorem stepClient (h : Evidence s) (hi : Inv s)
    (offered : input.Taken s.s2c rest fun p => .serverDid (.echo p) ∈ s.log)
    (taken : ClientStep cid s.client input c acts) (fresh : ∀ a ∈ acts, s.FreshClient a) :
    Evidence (s.afterClient input rest c acts) where
  echoes p hp := State.clientDid_afterClient.mpr (.inl (h.echoes p (by simpa using hp)))
  own p hp hu := own_client h hi taken fresh hp hu
  probed u hu hseen := (h.probed u hu hseen).append _
  announced u hu := State.serverGot_afterClient.mpr (h.announced u hu)
  offered u hu := (h.offered u (offered.mem hu)).append _
  ready u n ha := ready_client h offered taken ha
  accepted u ha := accepted_client h hi offered taken ha
  confirmed u hu := (h.confirmed u (offered.mem hu)).append _

end Client

section Server

variable {input : Input (ClientMessage R I) R I} {rest : List (ClientMessage R I)}
  {v : Server R I} {acts : List (ServerAction R C I)}

theorem probed_server (h : Evidence s) (hi : Inv s)
    (offered : input.Taken s.c2s rest fun p => .clientDid (.probe p) ∈ s.log)
    (taken : ServerStep cid s.server input v acts) {u : I} (hu : v.upgradeId = some u)
    (hseen : v.probeSeen = true) : Probed u (s.afterServer input rest v acts).log := by
  rcases taken.to_probeSeen hu hseen with ⟨hold, hseen⟩ | ⟨hnone, hseen⟩ | ⟨p, rfl, rfl, hkeys⟩
  · exact (h.probed u hold hseen).append _
  · obtain ⟨u', hu'⟩ := hi.parties.probed hseen
    cases hnone.symm.trans hu'
  · refine ⟨p, rfl, ?_, ?_, ?_⟩
    · exact State.clientDid_afterServer.mpr offered.2
    · exact State.serverGot_afterServer.mpr (.inr rfl)
    · exact State.serverDid_afterServer.mpr (.inl (hi.registrations.session _ hkeys))

theorem announced_server (h : Evidence s) (taken : ServerStep cid s.server input v acts) {u : I}
    (hu : v.Follows u) :
    .serverGot (.message (.ready u)) ∈ (s.afterServer input rest v acts).log := by
  rw [State.serverGot_afterServer]
  exact (taken.to_follows hu).imp (h.announced u) Eq.symm

theorem stepServer (h : Evidence s) (hi : Inv s)
    (offered : input.Taken s.c2s rest fun p => .clientDid (.probe p) ∈ s.log)
    (taken : ServerStep cid s.server input v acts) :
    Evidence (s.afterServer input rest v acts) where
  echoes p hp := by
    rw [State.clientDid_afterServer]
    rcases State.serverDid_afterServer.mp hp with hold | hnew
    · exact h.echoes p hold
    · obtain ⟨rfl, -⟩ := taken.of_echo hnew
      exact offered.2
  own p hp := h.own p (State.clientDid_afterServer.mp hp)
  probed u := probed_server h hi offered taken
  announced u := announced_server h taken
  offered u hu := by
    rcases State.mem_s2c_afterServer.mp hu with hold | hw
    · exact (h.offered u hold).append _
    · obtain ⟨hfollows, hseen⟩ := taken.of_switchTo hw
      exact ⟨probed_server h hi offered taken hfollows.1 hseen, announced_server h taken hfollows,
        State.serverDid_afterServer.mpr (.inr hw)⟩
  ready u n ha := by
    obtain ⟨r, hr, hechoed⟩ := h.ready u n ha
    exact ⟨r, hr, hechoed.append _⟩
  accepted u ha := by
    obtain ⟨⟨r, n, hr, hechoed⟩, hoffered, hsince⟩ := h.accepted u ha
    refine ⟨⟨r, n, hr, hechoed.append _⟩, hoffered.append _, hsince.append ?_⟩
    simp [NoFallback]
  confirmed u hu := by
    rcases State.mem_s2c_afterServer.mp hu with hold | hw
    · exact (h.confirmed u hold).append _
    · obtain ⟨rfl, -, -, -, rfl⟩ := taken.of_switchOk hw
      exact List.sublist_append_right s.log _

end Server

end Evidence

theorem Reachable.evidence (h : Reachable cid s) : Evidence s := by
  induction h with
  | refl => exact .initial
  | tail hreach hs ih =>
    have hi := Reachable.inv hreach
    cases hs with
    | client input rest c acts offered taken fresh => exact ih.stepClient hi offered taken fresh
    | server input rest v acts offered taken fresh => exact ih.stepServer hi offered taken

/-! ## The switch of the client -/

/-- Everything that has to happen before the client switches to UDP in the
attempt `u` under the registration `r`. -/
structure Validated (r : R) (u : I) (log : List (Event R C I)) : Prop where
  installed : .serverDid (.install r) ∈ log
  probed : ∃ n, .serverGot (.packet ⟨r, u, n⟩) ∈ log
  echoed : ∃ n, Echoed r u n log
  announced : .serverGot (.message (.ready u)) ∈ log
  offered : .serverDid (.write (.switchTo u)) ∈ log
  confirmed : Confirmed u log
  undisturbed : Since NoFallback (.clientDid (.write (.ack u))) log

/-- A client that finds the confirmation it waits for has a validated path. -/
theorem Reachable.validated (h : Reachable cid s) {u : I} (ha : s.client.attempt = .awaiting u)
    (hok : .switchOk u ∈ s.s2c) :
    ∃ r, s.client.registration = .active r ∧ Validated r u s.log := by
  have he := h.evidence
  obtain ⟨⟨r, n, hr, hechoed⟩, ⟨⟨p, rfl, hsent, hgot, hinstall⟩, hready, hoffered⟩, hsince⟩ :=
    he.accepted u ha
  -- the probe that the server saw is one of this attempt
  have hactive := he.own p hsent (by simp [ha])
  obtain rfl : r = p.registration := by simpa [hr] using hactive
  exact ⟨p.registration, hr, hinstall, ⟨p.nonce, hgot⟩, ⟨n, hechoed⟩, hready, hoffered,
    he.confirmed _ hok, hsince⟩

end Slt.Upgrade
