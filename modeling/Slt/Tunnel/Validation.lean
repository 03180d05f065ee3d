import Slt.Tunnel.Agreement

/-!
# What a switch of the client rests on

When the client changes to UDP, the path has been validated for the upgrade
that it commits to: under the client's registration, with its own probe, and
with a server that had switched before.
-/

namespace Slt.Tunnel

open Lib Proto

/-! ## Inputs and what they are the view of -/

section Inputs

variable {log : List Event}

theorem serverGot_message {m : ClientMessage} {message : Message}
    (hmessage : message.toServer = some m)
    (h : .serverGot (.message m) ∈ log.filterMap Event.view) :
    .serverGot (.tcpMessage message) ∈ log := by
  obtain ⟨event, hevent, hview⟩ := List.mem_filterMap.mp h
  obtain ⟨got, rfl, hinput⟩ := of_serverGot hview nofun
  rwa [← Server.SessionEvent.eq_of_message hinput hmessage]

theorem serverGot_packet {p : Upgrade.Probe RegisterCidPayload UInt64}
    (h : .serverGot (.packet p) ∈ log.filterMap Event.view) :
    ∃ peer packetNumber, .serverGot (.udp ⟨peer, packetNumber, p.registration.clientSession,
      .message (.upgradeProbe p.upgradeId p.nonce)⟩) ∈ log := by
  obtain ⟨event, hevent, hview⟩ := List.mem_filterMap.mp h
  obtain ⟨got, rfl, hinput⟩ := of_serverGot hview nofun
  obtain ⟨peer, packetNumber, rfl⟩ := Server.SessionEvent.eq_of_packet hinput
  exact ⟨peer, packetNumber, hevent⟩

theorem clientGot_packet {p : Upgrade.Probe RegisterCidPayload UInt64}
    (h : .clientGot (.packet p) ∈ log.filterMap Event.view) :
    .clientGot (.udpResult (.ok ⟨p.registration.serverSession,
      .upgradeProbeAck p.upgradeId p.nonce⟩)) ∈ log := by
  obtain ⟨event, hevent, hview⟩ := List.mem_filterMap.mp h
  obtain ⟨got, rfl, hinput⟩ := of_clientGot hview nofun
  rwa [← Client.SessionEvent.eq_of_packet hinput]

end Inputs

/-! ## Validation -/

def NoFallback (event : Event) : Prop :=
  ∀ fallbackId, event ≠ .clientDid (.tcp (.fallbackToTcp fallbackId)) ∧
    event ≠ .clientGot (.tcpMessage (.fallbackToTcp fallbackId))

/-- What has happened before the client switches to UDP in the upgrade
`upgradeId` under the registration `payload`. -/
structure Validated (payload : RegisterCidPayload) (upgradeId : UInt64) (log : List Event) :
    Prop where
  installed : .serverDid (.registered payload) ∈ log
  probed : ∃ peer packetNumber nonce, .serverGot (.udp ⟨peer, packetNumber, payload.clientSession,
    .message (.upgradeProbe upgradeId nonce)⟩) ∈ log
  echoed : ∃ nonce, .clientDid (.udp payload.clientSession (.upgradeProbe upgradeId nonce)) ∈ log ∧
    .clientGot (.udpResult (.ok ⟨payload.serverSession, .upgradeProbeAck upgradeId nonce⟩)) ∈ log
  announced : .serverGot (.tcpMessage (.udpReady upgradeId)) ∈ log
  offered : .serverDid (.tcp (.switchToUdp upgradeId)) ∈ log
  confirmed : [.serverGot (.tcpMessage (.switchAck upgradeId)), .serverDid (.preferred .udpQsp),
    .serverDid (.tcp (.switchOk upgradeId))].Sublist log
  undisturbed : Since NoFallback (.clientDid (.tcp (.switchAck upgradeId))) log

section Translation

variable {w : World} {payload : RegisterCidPayload} {upgradeId : UInt64}

theorem confirmed_of_view (h : Upgrade.Confirmed upgradeId w.view.log) :
    [.serverGot (.tcpMessage (.switchAck upgradeId)), .serverDid (.preferred .udpQsp),
      .serverDid (.tcp (.switchOk upgradeId))].Sublist w.log := by
  obtain ⟨events, hsub, hmap⟩ := sublist_of_filterMap h
  obtain ⟨a, events, rfl, ha, hmap⟩ := List.map_eq_cons_iff.mp hmap
  obtain ⟨b, events, rfl, hb, hmap⟩ := List.map_eq_cons_iff.mp hmap
  obtain ⟨c, events, rfl, hc, hmap⟩ := List.map_eq_cons_iff.mp hmap
  obtain rfl := List.map_eq_nil_iff.mp hmap
  obtain ⟨got, rfl, hinput⟩ := of_serverGot ha nofun
  obtain rfl : got = .tcpMessage (.switchAck upgradeId) :=
    Server.SessionEvent.eq_of_message hinput rfl
  obtain ⟨effect, rfl, haction⟩ := of_serverDid hb
  obtain rfl : effect = .preferred .udpQsp := Server.causes_of_action haction
  obtain ⟨effect, rfl, haction⟩ := of_serverDid hc
  obtain ⟨message, rfl, hmessage⟩ := Server.causes_of_action haction
  obtain rfl : message = .switchOk upgradeId :=
    Message.toClient_inj (m := .switchOk upgradeId) nofun hmessage rfl
  exact hsub

theorem undisturbed_of_view
    (h : Since Upgrade.NoFallback (.clientDid (.write (.ack upgradeId))) w.view.log) :
    Since NoFallback (.clientDid (.tcp (.switchAck upgradeId))) w.log := by
  obtain ⟨event, hview, hsince⟩ := Since.of_filterMap (P := NoFallback) h (by
    rintro event hunseen fallbackId
    refine ⟨?_, ?_⟩
    · rintro rfl
      exact (hunseen _ rfl fallbackId).1 rfl
    · rintro rfl
      exact (hunseen _ rfl fallbackId).2 rfl)
  obtain ⟨effect, rfl, haction⟩ := of_clientDid hview
  obtain ⟨message, rfl, hmessage⟩ := Client.causes_of_action haction
  obtain rfl : message = .switchAck upgradeId := Message.toServer_inj hmessage rfl
  exact hsince

theorem validated_of_view (h : Upgrade.Validated payload upgradeId w.view.log) :
    Validated payload upgradeId w.log where
  installed := by
    obtain ⟨effect, haction, hmem⟩ := mem_serverDid.mp h.installed
    obtain rfl : effect = _ := Server.causes_of_action haction
    exact hmem
  probed := by
    obtain ⟨nonce, hgot⟩ := h.probed
    obtain ⟨peer, packetNumber, hmem⟩ := serverGot_packet hgot
    exact ⟨peer, packetNumber, nonce, hmem⟩
  echoed := by
    obtain ⟨nonce, hsent, hgot⟩ := h.echoed
    obtain ⟨effect, haction, hmem⟩ := mem_clientDid.mp hsent
    obtain rfl : effect = _ := Client.causes_of_action haction
    exact ⟨nonce, hmem, clientGot_packet hgot⟩
  announced := serverGot_message rfl h.announced
  offered := by
    obtain ⟨effect, haction, hmem⟩ := mem_serverDid.mp h.offered
    obtain ⟨message, rfl, hmessage⟩ := Server.causes_of_action haction
    obtain rfl : message = .switchToUdp upgradeId :=
      Message.toClient_inj (m := .switchTo upgradeId) nofun hmessage rfl
    exact hmem
  confirmed := confirmed_of_view h.confirmed
  undisturbed := undisturbed_of_view h.undisturbed

end Translation

/-- Whatever the timers, the sockets and the network do: a client that changes
to UDP does so on the confirmation of an upgrade for which its path has been
validated, under the registration that its transport is made from. -/
theorem switch_validated {setup : Setup} {w : World} (h : Reachable (fun _ _ => True) setup w)
    {env : Client.Env} {event : Client.SessionEvent} (hadmits : w.Admits (.client env event))
    (hopen : env.TcpOpen) (htcp : w.client.session.activeTransport = .tcp)
    (hudp : (w.after (.client env event)).client.session.activeTransport = .udpQsp) :
    ∃ upgradeId payload, event = .tcpMessage (.switchOk upgradeId) ∧
      w.client.session.udpState = .active payload.clientSession ∧
      Validated payload upgradeId w.log := by
  obtain ⟨-, hpolls, hoffers, -⟩ := hadmits
  have hsteps := h.sound.steps_client hopen hpolls hoffers
  have hnow : (w.after (.client env event)).client.session.view.udp = true :=
    ActiveTransport.isUdp_eq_true.mpr hudp
  rcases hsteps.2.to_udp hnow with hwas | ⟨upgradeId, hinput, hawaits⟩
  · rw [Client.ClientSession.view, htcp] at hwas
    cases hwas
  · obtain rfl : event = .tcpMessage (.switchOk upgradeId) :=
      Client.SessionEvent.eq_of_message (m := .switchOk upgradeId) (by simp) hinput rfl
    have hhead : .switchOk upgradeId ∈ w.s2c := List.mem_of_head? hoffers
    have hok : .switchOk upgradeId ∈ w.view.s2c :=
      (mem_s2c (m := .switchOk upgradeId) (by simp) rfl).mpr hhead
    obtain ⟨payload, hactive, hvalidated⟩ := h.protocol.validated hawaits hok
    exact ⟨upgradeId, payload, rfl, Client.UdpState.eq_of_view_active hactive,
      validated_of_view hvalidated⟩

/-- The switch at the end of a run without failures. -/
theorem switch_validated_usual :
    (worldAfter acceptingMoves).client.session.activeTransport = .tcp ∧
      (worldAfter switchingMoves).client.session.activeTransport = .udpQsp ∧
      Validated firstPayload 2 (worldAfter acceptingMoves).log := by
  have hreachable : Reachable (fun _ _ => True) Setup.usual (worldAfter acceptingMoves) := by
    refine Reachable.moves .initial (by decide +kernel) ?_ (.of_forall fun _ _ _ => trivial)
    simp [acceptingMoves, registeringMoves, Move.TcpOpen, Client.Env.TcpOpen,
      Server.Env.TcpOpen, Client.Env.quiet, Server.Env.quiet]
  have htcp : (worldAfter acceptingMoves).client.session.activeTransport = .tcp := by
    decide +kernel
  have hudp : (worldAfter switchingMoves).client.session.activeTransport = .udpQsp := by
    decide +kernel
  have hadmits : (worldAfter acceptingMoves).Admits
      (.client .quiet (.tcpMessage (.switchOk 2))) := by decide +kernel
  have hactive : (worldAfter acceptingMoves).client.session.udpState =
      .active firstPayload.clientSession := by decide +kernel
  obtain ⟨upgradeId, payload, hevent, hstate, hvalidated⟩ :=
    switch_validated hreachable hadmits (fun _ => rfl) htcp hudp
  cases hevent
  have hsame := congrArg Client.UdpState.view (hstate.symm.trans hactive)
  obtain rfl : payload = firstPayload := by simpa [Client.UdpState.view] using hsame
  exact ⟨htcp, hudp, hvalidated⟩

end Slt.Tunnel
