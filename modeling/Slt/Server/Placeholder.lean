import Slt.Server.Consistency
import Slt.Server.Emissions

/-!
# Packets for the placeholder peer

A registration installs a UDP session whose peer is not known yet. While the
loop runs, no packet is queued for such a session: packets are sent only when UDP
is preferred, or in answer to a packet that has set the peer, or to close the
session when TCP is gone, and then UDP is preferred. The closing steps have no
such condition. They turn to UDP whenever the CLOSE cannot be written to TCP.
-/

namespace Slt.Server

open Lib Lib.Handler Proto

variable {s : ServerSession} (env : Env)

/-! ## Handlers that send nothing over UDP -/

def NotUdp : ServerEffect → Prop
  | .udp _ _ => False
  | _ => True

abbrev Silent {α : Type} (s : ServerSession) (m : ServerM α) : Prop :=
  Keeps (fun _ => True) (.all NotUdp) s m

/-! ## Packets of the loop -/

/-- A packet is for the UDP session, and its peer has been authenticated. -/
def ServerSession.Sends (s : ServerSession) : ServerEffect → Prop
  | .udp params _ => s.udpSession.map (·.params) = some params ∧ s.udpPeerPacketNumber.isSome
  | _ => True

theorem routine_sends : RoutineEffects s.Sends := by
  constructor <;> intros <;> trivial

/-- What is left of the UDP session has the parameters of the one that may send. -/
abbrev ServerSession.Within (s : ServerSession) : ServerSession → Prop :=
  ServerSession.OnUdp fun params _ _ =>
    s.udpSession.map (·.params) = some params ∧ s.udpPeerPacketNumber.isSome

theorem routine_within : Routine env s.Within (.all s.Sends) :=
  routine_sends.keeps stable_onUdp env

theorem sendsUdp_within : SendsUdp s.Within (.all s.Sends) :=
  fun _ session _ h hs => h session hs

theorem within_self (hpeer : s.udpPeerPacketNumber.isSome) : s.Within s :=
  fun _ hs => ⟨by rw [hs]; rfl, hpeer⟩

/-- The session as the handler of an event sends: the source of an authentic
packet is taken as the peer before the packet is handled. -/
def ServerSession.facing (s : ServerSession) : SessionEvent → ServerSession
  | .udp claim => adoptUdpPeerIfNewer claim.peer claim.packetNumber s
  | _ => s

theorem adopted_facing {handled : List SessionEvent} (h : ServerRun.Adopted handled s)
    {event : SessionEvent} (hmem : event ∈ handled) (hpolls : s.polls event = true) :
    ServerRun.Adopted handled (s.facing event) := by
  cases event with
  | udp claim => exact h.facing hmem hpolls
  | _ => exact h

theorem sends_handleEvent (h : s.Inv True) {event : SessionEvent}
    (hpolls : s.polls event = true) :
    Keeps (fun _ => True) (.all (s.facing event).Sends) s (handleEvent env event) := by
  have hwithin (hudp : s.activeTransport = .udpQsp) : s.Within s := within_self (h.udp hudp).peer
  have hT := (@routine_sends s).keeps stable_true env
  cases event with
  | tcpMessage message =>
    exact keeps_handleTcpMessage hT trivial (fun _ _ _ _ _ => trivial)
      fun _ _ => ⟨trivial, fun _ => trivial⟩
  | tcpMalformed type err =>
    exact keeps_handleMalformedMessage hT trivial type err
  | tcpUnframed err => exact .throw _ trivial
  | tcpClosed =>
    refine .get_bind ?_
    split
    · exact .modify_bind (.pure _ trivial)
    · exact .pure _ trivial
  | tcpFailed source => exact .throw _ trivial
  | udp claim =>
    obtain ⟨session, hs, -⟩ := polls_udp hpolls
    have hfacing := within_self (adopt_usable hs claim.peer claim.packetNumber).peer
    exact .modify_bind ((keeps_handleUdpPayload (routine_within env) sendsUdp_within hfacing
      fun _ _ _ _ _ => trivial).mono fun _ _ => trivial)
  | udpDropped => exact .pure _ trivial
  | tunPacket packet =>
    refine .get_bind ?_
    split
    · exact .pure _ trivial
    split
    · exact keeps_sendTcpMessage_then hT trivial _ _
    · rename_i hudp
      have hsent := keeps_sendUdpMessage (routine_within env) sendsUdp_within (hwithin hudp)
      exact (hsent _ _).seq (fun _ _ => trivial) fun _ _ _ => .pure _ trivial
  | udpFlush =>
    refine (keeps_flushIfNeeded stable_true trivial _).bind fun flushed _ _ => ?_
    cases flushed with
    | none => exact .pure _ trivial
    | some source =>
      refine .bind ?_ fun _ _ _ => .pure _ trivial
      exact keeps_recoverFromUdpError hT trivial _ _ _
  | pingTimer =>
    refine .get_bind ?_
    split
    · exact keeps_sendTcpMessage_then hT trivial _ _
    · rename_i hudp
      have hsent := keeps_sendUdpMessageAndFlush (routine_within env) sendsUdp_within (hwithin hudp)
      exact (hsent _ _).seq (fun _ _ => trivial) fun _ _ _ => .pure _ trivial
  | udpLivenessTimer =>
    refine .get_bind ?_
    split
    · exact .pure _ trivial
    refine (keeps_setActiveTransport hT trivial .tcp).bind fun _ _ _ => ?_
    refine (keeps_retireUdpTransport hT trivial).bind fun _ _ _ => ?_
    exact (keeps_sendTcpFallbackRequest hT trivial).bind fun _ _ _ => .pure _ trivial
  | idleTimer =>
    refine .bind (Keeps.attempt (.get_bind ?_)) fun _ _ _ => .pure _ trivial
    split
    · exact keeps_sendCloseOverTcp hT trivial _
    · rename_i hgone
      -- no frame is half written, so TCP is gone and UDP is preferred
      rw [h.whole, Bool.not_false, Bool.and_true, Bool.not_eq_true] at hgone
      exact (keeps_sendCloseOverUdp (routine_within env).stable sendsUdp_within
        (hwithin (h.preferred hgone)) _).mono fun _ _ => trivial
  | shutdown => exact .drop trivial

/-! ## The closing steps -/

/-- The CLOSE of the closing steps can be written to TCP. -/
structure ServerSession.ClosesOnTcp (s : ServerSession) (env : Env) : Prop where
  alive : s.tcpAlive = true
  whole : s.tcpWriteInterrupted = false
  written : ∀ code, env.tcpWrite (.close code) = .done

namespace ServerSession.ClosesOnTcp

variable {env : Env}

/-- The frame is written, so the mark that it is under way is cleared again. -/
theorem sendCloseOverTcp (h : s.ClosesOnTcp env) (code : CloseCode) :
    Triple (sendCloseOverTcp env code) s fun r s' out =>
      r = .ok () ∧ s' = s ∧ ∀ x ∈ out, NotUdp x := by
  rw [Server.sendCloseOverTcp, triple_get_bind, h.alive, h.whole, if_neg (by decide),
    sendTcpMessage, triple_get_bind, h.whole, if_neg (by decide), setTcpWriteInterrupted,
    triple_modify_bind, writeFrame, h.written, triple_emit_bind, setTcpWriteInterrupted,
    triple_modify]
  refine ⟨rfl, by rw [← h.whole], fun x hx => ?_⟩
  rw [List.mem_singleton.mp hx]
  trivial

theorem sendCloseBestEffort (h : s.ClosesOnTcp env) (code : CloseCode) :
    Keeps (· = s) (.all NotUdp) s (sendCloseBestEffort env code) := by
  have hattempt : Triple (attempt (Server.sendCloseOverTcp env code)) s fun r s' out =>
      r = .ok (.ok ()) ∧ s' = s ∧ ∀ x ∈ out, NotUdp x :=
    (h.sendCloseOverTcp code).attempt (fun _ _ _ hsent => ⟨rfl, hsent.2⟩)
      (fun _ _ _ hsent => nomatch hsent.1) fun _ _ hsent => nomatch hsent.1
  have hclosed : Triple (timeout env.closeTcpExpires (attempt (Server.sendCloseOverTcp env code)))
      s fun r s' out => r = .ok (some (.ok ())) ∧ s' = s ∧ ∀ x ∈ out, NotUdp x := by
    refine hattempt.timeout (fun a _ _ hsent => ?_) (fun _ _ _ hsent => nomatch hsent.1)
      fun _ _ hsent => nomatch hsent.1
    cases hsent.1
    exact ⟨rfl, hsent.2⟩
  refine .get_bind ?_
  rw [h.alive, h.whole, if_pos (by decide)]
  refine hclosed.bind (fun a s' out hsent => ?_) fun _ _ _ hsent => nomatch hsent.1
  obtain ⟨ha, rfl, hout⟩ := hsent
  cases ha
  exact (Keeps.pure () rfl).after (c := ()) (t := s') hout

theorem closeSession (h : s.ClosesOnTcp env) (outcome : RunOutcome) :
    Silent s (closeSession env outcome) := by
  have hmanaged : Keeps (· = s) (.all NotUdp) s (handleManagedShutdown env outcome) := by
    cases outcome with
    | shutdown reason => exact h.sendCloseBestEffort _
    | _ => exact .pure _ rfl
  have htold : Keeps (· = s) (.all NotUdp) s (tellPeerAtFault env outcome.result) := by
    unfold tellPeerAtFault
    split
    · exact .pure _ rfl
    split
    · exact h.sendCloseBestEffort _
    · exact .pure _ rfl
  refine hmanaged.seq (fun _ _ => trivial) fun _ s' hs' => ?_
  subst hs'
  refine htold.seq (fun _ _ => trivial) fun _ _ _ => ?_
  have hflush {s : ServerSession} : Silent s (flushPendingUdpSessionBestEffort env) :=
    keeps_flushPendingUdpSessionBestEffort stable_true trivial
  exact hflush.bind fun _ _ _ => .modify trivial

end ServerSession.ClosesOnTcp

namespace ServerRun

/-- While its loop runs a session hands a packet to the UDP path only when an
authentic packet has given that path its peer. So do the closing steps, unless
TCP cannot take their CLOSE and no packet has been authenticated. -/
theorem udp_only_to_known_peer {tun : TunConfig} {clients : List ServerClient}
    {registry : SessionRegistry} {issued : List SessionHandle}
    (hvalid : validateClients tun clients = .ok ())
    (reach : SessionRegistry.Reachable clients registry issued)
    (hcount : issued.length + 1 < 2 ^ 64 - 1) {clientId : ClientId} {addr : Ipv4Addr}
    (hassigned : Assigned clients clientId addr) {tx : SessionTx}
    {allowedCiphers : List CipherSuite} {maxDataLen : Nat} {w : ServerRun}
    (h : Reachable (.new (registry.registerSession clientId addr tx).1 allowedCiphers maxDataLen
      (registry.registerSession clientId addr tx).2) w) (env : Env) :
    (∀ event, w.phase = .running → w.session.polls event = true → ∀ params message,
      .udp params message ∈ ((handleEvent env event).run w.session).2.2 →
      ∃ session claim, (w.session.facing event).udpSession = some session ∧
        session.params = params ∧ .udp claim ∈ w.handled ++ [event] ∧
        session.params.Opens claim.sender ∧ session.peer = claim.peer ∧
        (w.session.facing event).udpPeerPacketNumber = some claim.packetNumber) ∧
    (∀ outcome, w.phase = .ended outcome →
      w.session.ClosesOnTcp env ∨ w.session.udpPeerPacketNumber ≠ none →
      ∀ params message, .udp params message ∈ ((closeSession env outcome).run w.session).2.2 →
      ∃ session claim, w.session.udpSession = some session ∧ session.params = params ∧
        .udp claim ∈ w.handled ∧ session.params.Opens claim.sender ∧
        session.peer = claim.peer ∧
        w.session.udpPeerPacketNumber = some claim.packetNumber) := by
  have hsource {s : ServerSession} {handled : List SessionEvent} {params : QspSessionParams}
      {message : Message} (hsends : s.Sends (.udp params message)) (hadopted : Adopted handled s) :
      ∃ session claim, s.udpSession = some session ∧ session.params = params ∧
        .udp claim ∈ handled ∧ session.params.Opens claim.sender ∧ session.peer = claim.peer ∧
        s.udpPeerPacketNumber = some claim.packetNumber := by
    obtain ⟨hparams, hpeer⟩ := hsends
    obtain ⟨session, hs, rfl⟩ := Option.map_eq_some_iff.mp hparams
    obtain ⟨n, hn⟩ := Option.isSome_iff_exists.mp hpeer
    obtain ⟨claim, hhandled, hopens, hclaimed, hnumber⟩ := hadopted session hs n hn
    exact ⟨session, claim, hs, rfl, hhandled, hopens, hclaimed.symm, hnumber ▸ hn⟩
  have hadopted := h.adopted rfl
  refine ⟨fun event hrunning hpolls params message hmem => ?_,
    fun outcome _ hcloses params message hmem => ?_⟩
  · have hinv := h.inv (inv_new hvalid reach hcount hassigned tx allowedCiphers maxDataLen) hrunning
    exact hsource ((sends_handleEvent env hinv hpolls).2 _ hmem)
      (adopted_facing (hadopted.mono (by simp)) (by simp) hpolls)
  · rcases hcloses with hcloses | hpeer
    · exact ((hcloses.closeSession outcome).2 _ hmem).elim
    · have hwithin := within_self (Option.isSome_iff_ne_none.mpr hpeer)
      exact hsource ((keeps_closeSession (routine_within env) sendsUdp_within
        hwithin outcome).2 _ hmem) hadopted

/-- The answer to the first packet goes where it came from. -/
theorem udp_only_to_known_peer_probe :
    ServerEffect.udp somePayload.serverSession (.upgradeProbeAck 9 1) ∈
        ((handleEvent .quiet (.udp someProbe)).run registered.session).2.2 ∧
      ∃ session, (registered.session.facing (.udp someProbe)).udpSession = some session ∧
        session.peer ≠ placeholderPeer := by
  have hregistered : Reachable connected.session registered :=
    .event _ _ .initial rfl rfl fun _ hcall => nomatch hcall
  have hmem : ServerEffect.udp somePayload.serverSession (.upgradeProbeAck 9 1) ∈
      ((handleEvent .quiet (.udp someProbe)).run registered.session).2.2 :=
    List.mem_cons_self
  obtain ⟨session, claim, hs, -, hhandled, -, hpeer, -⟩ :=
    (udp_only_to_known_peer reconnecting_valid .new (by decide) reconnecting_assigned hregistered
      .quiet).1 (.udp someProbe) rfl rfl _ _ hmem
  refine ⟨hmem, session, hs, ?_⟩
  have hclaim : claim = someProbe := by
    simpa [registered, afterEvent, connected, initial] using hhandled
  rw [hpeer, hclaim]
  decide

/-- A takeover drops the frame of a PING, before the client has sent over UDP. -/
def interrupted : ServerRun :=
  registered.afterEvent { Env.quiet with tcpWrite := fun _ => .dropped 3 } .pingTimer

theorem interrupted_reachable : Reachable connected.session interrupted := by
  have hregistered : Reachable connected.session registered :=
    .event _ _ .initial rfl rfl fun _ hcall => nomatch hcall
  exact .event _ _ hregistered rfl rfl fun _ hcall => nomatch hcall

/-- With the frame cut, the CLOSE of the takeover is sent to the placeholder. -/
theorem close_to_placeholder :
    Reachable connected.session interrupted ∧ interrupted.phase = .ended (.shutdown .takeover) ∧
      interrupted.session.udpPeerPacketNumber = none ∧
      (interrupted.session.udpSession.map (·.peer)) = some placeholderPeer ∧
      ServerEffect.udp somePayload.serverSession (.close .normal) ∈
        ((closeSession .quiet (.shutdown .takeover)).run interrupted.session).2.2 :=
  ⟨interrupted_reachable, rfl, rfl, rfl, List.mem_cons_self⟩

end ServerRun

end Slt.Server
