import Slt.Server.Echo
import Slt.Tunnel.Simulation
import Slt.Upgrade.Evidence

/-!
# Agreement on the transport

The two sessions prefer the same transport, up to what is still on its way. The
one thing that a server does not tell is a failure to send the echo of a probe,
so that agreement is about runs in which echoes can be sent. A client switches
to UDP only over a path that was validated for the upgrade it commits to.
-/

namespace Slt.Tunnel

open Lib Proto

/-! ## Servers that are not silent -/

/-- The server can send echoes during the move. -/
def Move.EchoesSent : Move → Prop
  | .server env _ => env.EchoesSent
  | _ => True

theorem World.Sound.loud {w : World} (h : w.Sound) {env : Server.Env} {event : Server.SessionEvent}
    (hoffers : w.OffersServer event) (hopen : env.TcpOpen) (hsent : env.EchoesSent) :
    ∀ effect ∈ w.serverOut env event, Server.Loud effect := by
  rintro effect heffect rfl
  have hsilence : .silence ∈ Server.party.actions (w.serverOut env event) :=
    List.mem_filterMap.mpr ⟨_, heffect, rfl⟩
  obtain ⟨p, hinput⟩ := (h.steps_server hopen hoffers).2.of_silence hsilence
  exact (Server.speaks_handleEvent hsent hinput).2 _ heffect rfl

theorem World.Sound.loud_close {w : World} (h : w.Sound) {env : Server.Env} (hopen : env.TcpOpen)
    (outcome : Server.RunOutcome) :
    ∀ effect ∈ w.serverCloseOut env outcome, Server.Loud effect := by
  rintro effect heffect rfl
  have hsilence : .silence ∈ Server.party.actions (w.serverCloseOut env outcome) :=
    List.mem_filterMap.mpr ⟨_, heffect, rfl⟩
  have hnothing : Server.party.actions (w.serverCloseOut env outcome) = [] :=
    (Server.hides_closeSession hopen h.serverLinked outcome).2.2
  rw [hnothing] at hsilence
  cases hsilence

section Loud

variable {setup : Setup} {w : World}

theorem Reachable.not_silent (h : Reachable (fun _ move => move.EchoesSent) setup w) :
    .serverDid (.recovering .retireOnly) ∉ w.log := by
  induction h with
  | initial => exact List.not_mem_nil
  | @move w move hreach hadmits hopen hsent ih =>
    have hsound := hreach.sound
    have hserver {server : Server.ServerRun} {rest : List Message} {got : Event}
        {out : List Server.ServerEffect} (hgot : got ≠ .serverDid (.recovering .retireOnly))
        (hloud : ∀ effect ∈ out, Server.Loud effect) :
        .serverDid (.recovering .retireOnly) ∉ (w.afterServer server rest got out).log := by
      intro hmem
      rcases List.mem_append.mp hmem with hold | hnew
      · exact ih hold
      rcases List.mem_cons.mp hnew with hhead | hout
      · exact hgot hhead.symm
      · obtain ⟨effect, heffect, heq⟩ := List.mem_map.mp hout
        cases heq
        exact hloud _ heffect rfl
    cases move with
    | client env event => simpa [World.after, World.afterClient] using ih
    | clientClose env =>
      simp only [World.after]
      split
      · simpa [World.afterClient] using ih
      · exact ih
    | server env event =>
      exact hserver (by simp) (hsound.loud hadmits.2.2.1 hopen hsent)
    | serverClose env =>
      simp only [World.after]
      split
      · exact hserver (by simp) (hsound.loud_close hopen _)
      · exact ih
    | registry call => exact ih

theorem Reachable.loud (h : Reachable (fun _ move => move.EchoesSent) setup w) :
    .serverDid .silence ∉ w.view.log := by
  intro hmem
  obtain ⟨effect, haction, hmem⟩ := mem_serverDid.mp hmem
  obtain rfl : effect = _ := Server.causes_of_action haction
  exact h.not_silent hmem

end Loud

/-! ## Agreement -/

/-- The client has accepted the switch and waits for its confirmation. -/
def AwaitsSwitchOk (s : Client.ClientSession) (upgradeId : UInt64) : Prop :=
  ∃ deadline, s.udpUpgrade = .awaitingSwitchOk upgradeId deadline

/-- The preferences agree, up to what is on its way. -/
structure World.Agrees (w : World) : Prop where
  client : w.client.session.activeTransport = .udpQsp →
    w.server.session.activeTransport = .udpQsp ∨ ∃ fallbackId, .fallbackToTcp fallbackId ∈ w.s2c
  server : w.server.session.activeTransport = .udpQsp →
    w.client.session.activeTransport = .udpQsp ∨
      (∃ upgradeId, AwaitsSwitchOk w.client.session upgradeId ∧ .switchOk upgradeId ∈ w.s2c) ∨
      ∃ fallbackId, .fallbackToTcp fallbackId ∈ w.c2s

theorem World.Agrees.settled {w : World} (h : w.Agrees) (hc2s : w.c2s = []) (hs2c : w.s2c = []) :
    w.client.session.activeTransport = w.server.session.activeTransport := by
  have hclient := h.client
  have hserver := h.server
  simp only [hc2s, hs2c, List.not_mem_nil, exists_false, and_false, or_false] at hclient hserver
  cases hc : w.client.session.activeTransport <;> cases hs : w.server.session.activeTransport <;>
    simp_all

/-- Whatever the timers and the network do, in every state that the two sessions
reach without a failure to send an echo, and so without any failure of a UDP
socket, the preferred transports agree up to what is on its way. When the
streams are drained and no confirmation is waited for, they are the same. -/
theorem transport_agreement {setup : Setup} {w : World}
    (h : Reachable (fun _ move => move.EchoesSent) setup w) :
    w.Agrees ∧
      (w.c2s = [] → w.s2c = [] → (∀ upgradeId, ¬ AwaitsSwitchOk w.client.session upgradeId) →
        w.client.session.activeTransport = w.server.session.activeTransport) := by
  have hagree := h.protocol.agreement
  have hagrees : w.Agrees := by
    refine ⟨fun hudp => ?_, fun hudp => ?_⟩
    · rcases hagree.clientUdp h.loud (.inl (ActiveTransport.isUdp_eq_true.mpr hudp)) with
        hserver | ⟨fallbackId, hf⟩
      · exact .inl (ActiveTransport.isUdp_eq_true.mp hserver)
      · exact .inr ⟨fallbackId, (mem_s2c (m := .fallback fallbackId) nofun rfl).mp hf⟩
    · rcases hagree.serverUdp (ActiveTransport.isUdp_eq_true.mpr hudp) with
        ⟨fallbackId, hf⟩ | hclient | ⟨upgradeId, hawaits, hok⟩
      · exact .inr (.inr ⟨fallbackId, (mem_c2s rfl).mp hf⟩)
      · exact .inl (ActiveTransport.isUdp_eq_true.mp hclient)
      · exact .inr (.inl ⟨upgradeId, Client.UdpUpgradeState.view_eq_awaiting hawaits,
          (mem_s2c (m := .switchOk upgradeId) nofun rfl).mp hok⟩)
  exact ⟨hagrees, fun hc2s hs2c _ => hagrees.settled hc2s hs2c⟩

/-! ## A run that switches to UDP -/

theorem echoesSent_quiet : Server.Env.quiet.EchoesSent :=
  ⟨fun _ _ => rfl, fun _ _ _ => nofun, fun _ _ _ => nofun, fun _ _ _ => nofun⟩

/-- A client that tries upgrades, and a server that knows it. -/
def Setup.usual : Setup :=
  ⟨.upgrading, Server.firstConnection.1, [.aes128Gcm], 1400, Server.firstConnection.2⟩

def usualIds : Client.QuicIds :=
  ⟨.filled 1, .filled 2, ⟨[127, 0, 0, 1], 443⟩⟩

/-- What the client registers with these ids and its random draw. -/
def usualPayload (ids : Client.QuicIds) (draw : Client.RegistrationDraw) : RegisterCidPayload where
  clientToServerCid := ids.dcid
  serverToClientCid := ids.scid
  cipher := .aes128Gcm
  secretTx := draw.secretS2c
  secretRx := draw.secretC2s
  pnStart := draw.pnStartS2c
  pnStartRx := draw.pnStartC2s
  keyPhase := false

def firstPayload : RegisterCidPayload := usualPayload usualIds .zero

/-- Up to a registration that the client is told of. -/
def registeringMoves : List Move :=
  [.client .quiet .udpReconnectTick, .client .quiet (.discoveryResult (some usualIds)),
    .client .quiet .udpReconnectTick, .server .quiet (.tcpMessage (.registerCid firstPayload)),
    .client .quiet (.tcpMessage (.registerOk usualIds.dcid))]

def probeClaim : Server.UdpClaim :=
  ⟨⟨[192, 0, 2, 7], 40000⟩, 0, firstPayload.clientSession, .message (.upgradeProbe 2 3)⟩

/-- The probe, its echo and the handshake up to the confirmation. -/
def acceptingMoves : List Move :=
  registeringMoves ++
    [.client .quiet .udpUpgradeTick, .server .quiet (.udp probeClaim),
      .client .quiet (.udpResult (.ok ⟨firstPayload.serverSession, .upgradeProbeAck 2 3⟩)),
      .server .quiet (.tcpMessage (.udpReady 2)), .client .quiet (.tcpMessage (.switchToUdp 2)),
      .server .quiet (.tcpMessage (.switchAck 2))]

def switchingMoves : List Move := acceptingMoves ++ [.client .quiet (.tcpMessage (.switchOk 2))]

def worldAfter (moves : List Move) : World := moves.foldl World.after Setup.usual.initial

/-- A run that has switched both sides to UDP. -/
theorem transport_agreement_switched :
    (worldAfter switchingMoves).client.session.activeTransport = .udpQsp ∧
      (worldAfter switchingMoves).server.session.activeTransport = .udpQsp := by
  have hreachable : Reachable (fun _ move => move.EchoesSent) Setup.usual
      (worldAfter switchingMoves) := by
    refine Reachable.moves .initial (by decide +kernel) ?_ (.of_forall fun _ => ?_)
    · simp [switchingMoves, acceptingMoves, registeringMoves, Move.TcpOpen, Client.Env.TcpOpen,
        Server.Env.TcpOpen, Client.Env.quiet, Server.Env.quiet]
    · simp [switchingMoves, acceptingMoves, registeringMoves, Move.EchoesSent, echoesSent_quiet]
  have hclient : (worldAfter switchingMoves).client.session.activeTransport = .udpQsp := by
    decide +kernel
  obtain ⟨hagrees, -⟩ := transport_agreement hreachable
  refine ⟨hclient, (hagrees.client hclient).resolve_right ?_⟩
  rintro ⟨fallbackId, hmem⟩
  have hs2c : (worldAfter switchingMoves).s2c = [] := by decide +kernel
  rw [hs2c] at hmem
  cases hmem

end Slt.Tunnel
