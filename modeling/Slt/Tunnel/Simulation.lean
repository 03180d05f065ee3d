import Slt.Tunnel.World

/-!
# The tunnel simulates the upgrade protocol

Seen through the views of its two sessions, every run of a client and a server
is a run of the upgrade protocol.
-/

namespace Slt.Tunnel

open Lib Lib.Handler Proto

/-! ## The view of a world -/

abbrev ProtocolState := Upgrade.State RegisterCidPayload Cid UInt64
abbrev ProtocolEvent := Upgrade.Event RegisterCidPayload Cid UInt64

def Event.view : Event → Option ProtocolEvent
  | .clientGot event => some (.clientGot event.input)
  | .clientDid effect => effect.action.map .clientDid
  | .clientClosed => some (.clientGot .tick)
  | .serverGot event => some (.serverGot event.input)
  | .serverDid effect => effect.action.map .serverDid
  | .serverClosed => some (.serverGot .tick)

def World.view (w : World) : ProtocolState where
  client := w.client.session.view
  server := w.server.session.view
  c2s := w.c2s.filterMap Message.toServer
  s2c := w.s2c.filterMap Message.toClient
  log := w.log.filterMap Event.view

section Effects

theorem clientMessages (out : List Client.ClientEffect) :
    (out.filterMap clientFrame).filterMap Message.toServer =
      (Client.party.actions out).filterMap Upgrade.ClientAction.message := by
  rw [Abstraction.actions, List.filterMap_filterMap, List.filterMap_filterMap]
  congr 1
  funext effect
  cases effect with
  | tcp message =>
    cases h : message.toServer <;> simp [clientFrame, Client.party, Client.ClientEffect.action, h]
  | udp transport message =>
    cases message <;> rfl
  | observe event => cases event <;> rfl
  | _ => rfl

theorem serverMessages (out : List Server.ServerEffect) :
    (out.filterMap serverFrame).filterMap Message.toClient =
      (Server.party.actions out).filterMap Upgrade.ServerAction.message := by
  rw [Abstraction.actions, List.filterMap_filterMap, List.filterMap_filterMap]
  congr 1
  funext effect
  cases effect with
  | tcp message =>
    cases h : message.toClient <;> simp [serverFrame, Server.party, Server.ServerEffect.action, h]
  | udp session message => cases message <;> rfl
  | retired session => cases session <;> rfl
  | preferred transport => cases transport <;> rfl
  | recovering recovery => cases recovery <;> rfl
  | _ => rfl

theorem clientRecord (out : List Client.ClientEffect) :
    (out.map Event.clientDid).filterMap Event.view =
      (Client.party.actions out).map Upgrade.Event.clientDid := by
  rw [Abstraction.actions, List.filterMap_map, List.map_filterMap]
  rfl

theorem serverRecord (out : List Server.ServerEffect) :
    (out.map Event.serverDid).filterMap Event.view =
      (Server.party.actions out).map Upgrade.Event.serverDid := by
  rw [Abstraction.actions, List.filterMap_map, List.map_filterMap]
  rfl

end Effects

/-! ## The record of a world and of its view -/

section Record

variable {w : World} {event : Event}

theorem of_clientDid {a : ClientAction} (h : event.view = some (.clientDid a)) :
    ∃ effect, event = .clientDid effect ∧ effect.action = some a := by
  cases event with
  | clientDid effect =>
    obtain ⟨b, hb, heq⟩ := Option.map_eq_some_iff.mp h
    cases heq
    exact ⟨effect, rfl, hb⟩
  | serverDid effect =>
    obtain ⟨b, hb, heq⟩ := Option.map_eq_some_iff.mp h
    cases heq
  | _ => cases h

theorem of_serverDid {a : ServerAction} (h : event.view = some (.serverDid a)) :
    ∃ effect, event = .serverDid effect ∧ effect.action = some a := by
  cases event with
  | serverDid effect =>
    obtain ⟨b, hb, heq⟩ := Option.map_eq_some_iff.mp h
    cases heq
    exact ⟨effect, rfl, hb⟩
  | clientDid effect =>
    obtain ⟨b, hb, heq⟩ := Option.map_eq_some_iff.mp h
    cases heq
  | _ => cases h

theorem of_clientGot {input : ClientInput} (h : event.view = some (.clientGot input))
    (htick : input ≠ .tick) :
    ∃ got, event = .clientGot got ∧ got.input = input := by
  cases event with
  | clientGot got =>
    cases h
    exact ⟨got, rfl, rfl⟩
  | clientClosed =>
    cases h
    exact absurd rfl htick
  | clientDid effect =>
    obtain ⟨b, hb, heq⟩ := Option.map_eq_some_iff.mp h
    cases heq
  | serverDid effect =>
    obtain ⟨b, hb, heq⟩ := Option.map_eq_some_iff.mp h
    cases heq
  | _ => cases h

theorem of_serverGot {input : ServerInput} (h : event.view = some (.serverGot input))
    (htick : input ≠ .tick) :
    ∃ got, event = .serverGot got ∧ got.input = input := by
  cases event with
  | serverGot got =>
    cases h
    exact ⟨got, rfl, rfl⟩
  | serverClosed =>
    cases h
    exact absurd rfl htick
  | clientDid effect =>
    obtain ⟨b, hb, heq⟩ := Option.map_eq_some_iff.mp h
    cases heq
  | serverDid effect =>
    obtain ⟨b, hb, heq⟩ := Option.map_eq_some_iff.mp h
    cases heq
  | _ => cases h

theorem mem_clientDid {a : ClientAction} :
    .clientDid a ∈ w.view.log ↔ ∃ effect, effect.action = some a ∧ .clientDid effect ∈ w.log := by
  rw [World.view, List.mem_filterMap]
  constructor
  · rintro ⟨event, hevent, hview⟩
    obtain ⟨effect, rfl, ha⟩ := of_clientDid hview
    exact ⟨effect, ha, hevent⟩
  · rintro ⟨effect, ha, hevent⟩
    exact ⟨_, hevent, by rw [Event.view, ha, Option.map_some]⟩

theorem mem_serverDid {a : ServerAction} :
    .serverDid a ∈ w.view.log ↔ ∃ effect, effect.action = some a ∧ .serverDid effect ∈ w.log := by
  rw [World.view, List.mem_filterMap]
  constructor
  · rintro ⟨event, hevent, hview⟩
    obtain ⟨effect, rfl, ha⟩ := of_serverDid hview
    exact ⟨effect, ha, hevent⟩
  · rintro ⟨effect, ha, hevent⟩
    exact ⟨_, hevent, by rw [Event.view, ha, Option.map_some]⟩

theorem mem_s2c {m : ServerMessage} {message : Message} (hm : m ≠ .registerFail)
    (hmessage : message.toClient = some m) : m ∈ w.view.s2c ↔ message ∈ w.s2c := by
  rw [World.view, List.mem_filterMap]
  constructor
  · rintro ⟨other, hother, hview⟩
    rwa [Message.toClient_inj hm hmessage hview]
  · exact fun h => ⟨message, h, hmessage⟩

theorem mem_c2s {m : ClientMessage} {message : Message} (hmessage : message.toServer = some m) :
    m ∈ w.view.c2s ↔ message ∈ w.c2s := by
  rw [World.view, List.mem_filterMap]
  constructor
  · rintro ⟨other, hother, hview⟩
    rwa [Message.toServer_inj hmessage hview]
  · exact fun h => ⟨message, h, hmessage⟩

theorem freshClient_view {effect : Client.ClientEffect} (h : w.FreshClient effect)
    {a : ClientAction} (ha : effect.action = some a) : w.view.FreshClient a := by
  have hcauses := Client.causes_of_action ha
  cases a with
  | start upgradeId =>
    obtain rfl : effect = _ := hcauses
    intro hm
    obtain ⟨other, hother, hmem⟩ := mem_clientDid.mp hm
    obtain rfl : other = _ := Client.causes_of_action hother
    exact h hmem
  | probe p => trivial
  | write m =>
    obtain ⟨message, rfl, hmessage⟩ := hcauses
    have hold (hm : .clientDid (.write m) ∈ w.view.log) : .clientDid (.tcp message) ∈ w.log := by
      obtain ⟨other, hother, hmem⟩ := mem_clientDid.mp hm
      obtain ⟨message', rfl, hmessage'⟩ := Client.causes_of_action hother
      obtain rfl := Message.toServer_inj hmessage hmessage'
      exact hmem
    cases message with
    | registerCid payload =>
      cases hmessage
      exact fun hm => h (hold hm)
    | fallbackToTcp fallbackId =>
      cases hmessage
      exact fun hm => h (hold hm)
    | _ => cases hmessage <;> trivial

theorem freshServer_view {effect : Server.ServerEffect} (h : w.FreshServer effect)
    {a : ServerAction} (ha : effect.action = some a) : w.view.FreshServer a := by
  have hcauses := Server.causes_of_action ha
  cases a with
  | write m =>
    cases m with
    | fallback fallbackId =>
      obtain ⟨message, rfl, hmessage⟩ := hcauses
      obtain rfl : message = .fallbackToTcp fallbackId :=
        Message.toClient_inj (m := .fallback fallbackId) nofun hmessage rfl
      intro hm
      obtain ⟨other, hother, hmem⟩ := mem_serverDid.mp hm
      obtain ⟨message, rfl, hmessage'⟩ := Server.causes_of_action hother
      obtain rfl : message = .fallbackToTcp fallbackId :=
        Message.toClient_inj (m := .fallback fallbackId) nofun hmessage' rfl
      exact h hmem
    | _ => trivial
  | _ => trivial

end Record

/-! ## One move -/

section Step

variable {w : World}

theorem step_afterClient {client : Client.ClientRun} {rest : List Message} {got : Event}
    {out : List Client.ClientEffect} {input : ClientInput}
    (hgot : got.view = some (.clientGot input))
    (htaken : input.Taken w.view.s2c (rest.filterMap Message.toClient)
      fun p => .serverDid (.echo p) ∈ w.view.log)
    (hstep : Client.Steps w.client.session input client.session.view (Client.party.actions out))
    (hfresh : ∀ effect ∈ out, w.FreshClient effect) :
    Upgrade.Step RegisterCidPayload.clientToServerCid w.view
      (w.afterClient client rest got out).view := by
  have hview : (w.afterClient client rest got out).view =
      w.view.afterClient input (rest.filterMap Message.toClient) client.session.view
        (Client.party.actions out) := by
    simp only [World.view, World.afterClient, Upgrade.State.afterClient, List.filterMap_append,
      clientMessages, List.filterMap_cons_some hgot, clientRecord]
  rw [hview]
  refine .client input _ _ _ htaken hstep fun a ha => ?_
  obtain ⟨effect, heffect, haction⟩ := List.mem_filterMap.mp ha
  exact freshClient_view (hfresh effect heffect) haction

theorem step_afterServer {server : Server.ServerRun} {rest : List Message} {got : Event}
    {out : List Server.ServerEffect} {input : ServerInput}
    (hgot : got.view = some (.serverGot input))
    (htaken : input.Taken w.view.c2s (rest.filterMap Message.toServer)
      fun p => .clientDid (.probe p) ∈ w.view.log)
    (hstep : Server.Steps w.server.session input server.session.view (Server.party.actions out))
    (hfresh : ∀ effect ∈ out, w.FreshServer effect) :
    Upgrade.Step RegisterCidPayload.clientToServerCid w.view
      (w.afterServer server rest got out).view := by
  have hview : (w.afterServer server rest got out).view =
      w.view.afterServer input (rest.filterMap Message.toServer) server.session.view
        (Server.party.actions out) := by
    simp only [World.view, World.afterServer, Upgrade.State.afterServer, List.filterMap_append,
      serverMessages, List.filterMap_cons_some hgot, serverRecord]
  rw [hview]
  refine .server input _ _ _ htaken hstep fun a ha => ?_
  obtain ⟨effect, heffect, haction⟩ := List.mem_filterMap.mp ha
  exact freshServer_view (hfresh effect heffect) haction

/-- A message is taken from the stream by the protocol as well, or passes it by. -/
theorem taken_of_head {M R I : Type} {seen : Message → Option M} {stream : List Message}
    {message : Message} (h : stream.head? = some message)
    (sent : Upgrade.Probe R I → Prop) :
    (((seen message).map .message).getD .tick : Upgrade.Input M R I).Taken
      (stream.filterMap seen) (stream.tail.filterMap seen) sent := by
  obtain ⟨rest, rfl⟩ : ∃ rest, stream = message :: rest := by
    cases stream with
    | nil => cases h
    | cons head rest =>
      cases h
      exact ⟨rest, rfl⟩
  cases hm : seen message with
  | none => exact List.filterMap_cons_none hm
  | some m => exact List.filterMap_cons_some hm

theorem taken_client {event : Client.SessionEvent} (h : w.OffersClient event) :
    event.input.Taken w.view.s2c ((clientRest w.s2c event).filterMap Message.toClient)
      fun p => .serverDid (.echo p) ∈ w.view.log := by
  cases event with
  | tcpMessage message => exact taken_of_head h _
  | udpResult result =>
    cases result with
    | error err => rfl
    | ok packet =>
      obtain ⟨sender, message⟩ := packet
      cases message with
      | upgradeProbeAck upgradeId nonce =>
        exact ⟨rfl, mem_serverDid.mpr ⟨_, rfl, h.1⟩⟩
      | _ => rfl
  | _ => rfl

theorem taken_server {event : Server.SessionEvent} (h : w.OffersServer event) :
    event.input.Taken w.view.c2s ((serverRest w.c2s event).filterMap Message.toServer)
      fun p => .clientDid (.probe p) ∈ w.view.log := by
  cases event with
  | tcpMessage message => exact taken_of_head h _
  | udp claim =>
    obtain ⟨peer, packetNumber, sender, payload⟩ := claim
    cases payload with
    | message message =>
      cases message with
      | upgradeProbe upgradeId nonce => exact ⟨rfl, mem_clientDid.mpr ⟨_, rfl, h.1⟩⟩
      | _ => rfl
    | _ => rfl
  | _ => rfl

/-- The packets that the network delivers are the ones the session expects. -/
theorem expects_client {packet : Client.Packet} (h : w.OffersClient (.udpResult (.ok packet))) :
    w.client.session.Expects packet := by
  obtain ⟨-, transport, hreceive, hmatch⟩ := h
  intro active hactive
  have hsame : w.client.session.udpReceiveTransport = some active := by
    simp [Client.ClientSession.udpReceiveTransport, hactive, Client.UdpState.asActive]
  obtain rfl : active = transport := Option.some.inj (hsame.symm.trans hreceive)
  exact hmatch

theorem expects_server {claim : Server.UdpClaim} (h : w.OffersServer (.udp claim)) :
    w.server.session.Expects claim := by
  obtain ⟨peer, packetNumber, sender, payload⟩ := claim
  cases payload with
  | message message =>
    obtain ⟨-, session, hsession, hmatch⟩ := h
    rw [Server.ServerSession.Expects, Server.ServerSession.view, hsession]
    exact congrArg some hmatch
  | _ => exact h.elim

end Step

/-! ## Whole runs -/

/-- The sessions are as their own invariants say. -/
structure World.Sound (w : World) : Prop where
  client : w.client.Sound
  clientLinked : w.client.session.Linked
  serverLinked : w.server.session.Linked

/-- A move is a step of the protocol or none at all. -/
structure Simulates (w w' : World) : Prop where
  sound : w'.Sound
  step : w'.view = w.view ∨ Upgrade.Step RegisterCidPayload.clientToServerCid w.view w'.view

namespace World.Sound

theorem initial (setup : Setup) : setup.initial.Sound where
  client := ⟨(Client.ClientSession.calm_new setup.config).atLoop, fun _ he => nomatch he⟩
  clientLinked := Client.ClientSession.linked_new setup.config
  serverLinked := Server.ServerSession.linked_new _ _ _ _

variable {w : World}

theorem steps_client (h : w.Sound) {env : Client.Env} {event : Client.SessionEvent}
    (hopen : env.TcpOpen) (hpolls : w.client.session.polls event = true)
    (hoffers : w.OffersClient event) :
    Client.party.Shows (Client.Steps w.client.session event.input) w.client.session
      (Client.handleEvent env event) :=
  Client.steps_handleEvent hopen h.clientLinked h.client.session hpolls
    (by rintro rfl; exact hoffers) (by rintro packet rfl; exact expects_client hoffers)

theorem steps_server (h : w.Sound) {env : Server.Env} {event : Server.SessionEvent}
    (hopen : env.TcpOpen) (hoffers : w.OffersServer event) :
    Server.party.Shows (Server.Steps w.server.session event.input) w.server.session
      (Server.handleEvent env event) :=
  Server.steps_handleEvent hopen h.serverLinked (by rintro rfl; exact hoffers)
    (by rintro type err rfl; exact hoffers) (by rintro claim rfl; exact expects_server hoffers)

theorem client_close (h : w.Sound) {env : Client.Env} (hopen : env.TcpOpen)
    {outcome : Client.SessionOutcome}
    (hfresh : ∀ effect ∈ w.clientCloseOut env outcome.exit, w.FreshClient effect) :
    Simulates w (w.afterClient (w.client.afterClose env outcome) w.s2c .clientClosed
      (w.clientCloseOut env outcome.exit)) := by
  have hsteps := Client.steps_closeSession hopen h.clientLinked outcome.exit
  refine ⟨⟨h.client.afterClose env outcome, hsteps.1, h.serverLinked⟩, .inr ?_⟩
  exact step_afterClient rfl rfl hsteps.2 hfresh

theorem server_close (h : w.Sound) {env : Server.Env} (hopen : env.TcpOpen)
    {outcome : Server.RunOutcome}
    (hfresh : ∀ effect ∈ w.serverCloseOut env outcome, w.FreshServer effect) :
    Simulates w (w.afterServer (w.server.afterClose env outcome) w.c2s .serverClosed
      (w.serverCloseOut env outcome)) := by
  have hsteps : Server.party.Shows (Server.Steps w.server.session .tick) w.server.session
      (Server.closeSession env outcome) :=
    (Server.hides_closeSession hopen h.serverLinked outcome).shows (.skip .tick trivial)
  refine ⟨⟨h.client, h.clientLinked, hsteps.1⟩, .inr ?_⟩
  exact step_afterServer rfl rfl hsteps.2 hfresh

theorem move (h : w.Sound) {move : Move} (hadmits : w.Admits move) (hopen : move.TcpOpen) :
    Simulates w (w.after move) := by
  cases move with
  | client env event =>
    obtain ⟨-, hpolls, hoffers, hfresh⟩ := hadmits
    have hsteps := h.steps_client hopen hpolls hoffers
    refine ⟨⟨h.client.afterEvent env hpolls, hsteps.1, h.serverLinked⟩, .inr ?_⟩
    exact step_afterClient rfl (taken_client hoffers) hsteps.2 hfresh
  | clientClose env =>
    simp only [World.Admits] at hadmits
    simp only [World.after]
    split at hadmits
    · exact h.client_close hopen hadmits
    · exact hadmits.elim
  | server env event =>
    obtain ⟨-, -, hoffers, hfresh⟩ := hadmits
    have hsteps := h.steps_server hopen hoffers
    refine ⟨⟨h.client, h.clientLinked, hsteps.1⟩, .inr ?_⟩
    exact step_afterServer rfl (taken_server hoffers) hsteps.2 hfresh
  | serverClose env =>
    simp only [World.Admits] at hadmits
    simp only [World.after]
    split at hadmits
    · exact h.server_close hopen hadmits
    · exact hadmits.elim
  | registry call =>
    have hlinked : (w.after (.registry call)).server.session.Linked :=
      ⟨h.serverLinked.tcpAlive, h.serverLinked.writable, h.serverLinked.clear⟩
    exact ⟨⟨h.client, h.clientLinked, hlinked⟩, .inl rfl⟩

end World.Sound

theorem Setup.view_initial (setup : Setup) : setup.initial.view = .initial := by
  simp [World.view, Setup.initial, Upgrade.State.initial, Client.ClientRun.initial,
    Server.ServerRun.initial, Client.ClientSession.view_new, Server.ServerSession.view_new]

section Runs

variable {allowed : World → Move → Prop} {setup : Setup} {w : World}

theorem Reachable.sound (h : Reachable allowed setup w) : w.Sound := by
  induction h with
  | initial => exact .initial setup
  | move move _ hadmits hopen _ ih => exact (ih.move hadmits hopen).sound

theorem Reachable.protocol (h : Reachable allowed setup w) :
    Upgrade.Reachable RegisterCidPayload.clientToServerCid w.view := by
  induction h with
  | initial =>
    rw [setup.view_initial]
    exact .refl
  | move move hreach hadmits hopen _ ih =>
    rcases (hreach.sound.move hadmits hopen).step with hsame | hstep
    · rw [hsame]
      exact ih
    · exact ih.tail hstep

end Runs

end Slt.Tunnel
