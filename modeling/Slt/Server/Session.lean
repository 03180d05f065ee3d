import Slt.Server.Egress

/-!
# Server: registration, upgrade and the session loop

The handlers of the messages from either transport, and the events of the
session loop up to the closing steps of a run.
-/

namespace Slt.Server

open Lib Lib.Handler Proto

/-! ## The upgrade state -/

def maxStaleUpgradeIds : Nat := 16

inductive UpgradeSource where
  | upgradeProbe
  | udpReady
  deriving DecidableEq, Repr

namespace UdpUpgradeState

def resetAttemptPreservingHistory (u : UdpUpgradeState) : UdpUpgradeState :=
  { u with upgradeId := none, probeSeen := false, readySeen := false, switchToUdpSent := false }

def rememberStaleUpgradeId (u : UdpUpgradeState) (upgradeId : UInt64) : UdpUpgradeState :=
  if upgradeId ∈ u.staleUpgradeIds then u
  else
    let kept :=
      if maxStaleUpgradeIds ≤ u.staleUpgradeIds.length then u.staleUpgradeIds.tail
      else u.staleUpgradeIds
    { u with staleUpgradeIds := kept ++ [upgradeId] }

/-- The state that follows an identifier of the client, if it is taken. -/
def noteUpgradeId (u : UdpUpgradeState) (upgradeId : UInt64) (source : UpgradeSource) :
    Option UdpUpgradeState :=
  if source = .upgradeProbe ∧ upgradeId ∈ u.staleUpgradeIds then none
  else
    match u.upgradeId with
    | none => some { u with upgradeId := some upgradeId }
    | some existing =>
      if existing = upgradeId then some u
      else
        match source with
        | .udpReady => none
        | .upgradeProbe =>
          some { (u.rememberStaleUpgradeId existing).resetAttemptPreservingHistory with
                 upgradeId := some upgradeId }

end UdpUpgradeState

/-! ## Registration -/

def registerDecodeFailCode : PayloadError → RegisterFailCode
  | .invalidCipher _ => .invalidCipher
  | .lengthMismatch _ _ => .invalidKeys
  | .invalidKeyPhase _ => .invalidKeys
  | _ => .invalidCid

def cryptoFailCode : Crypto.QspCryptoError → RegisterFailCode
  | .unsupportedCipher => .invalidCipher
  | _ => .invalidKeys

def sendRegisterFail (env : Env) (code : RegisterFailCode) : ServerM SessionControl := do
  sendTcpMessage env (.registerFail code)
  pure .continue

def placeholderPeer : SocketAddr := ⟨[0, 0, 0, 0], 0⟩

/-- Why a registration is refused, or the registry with its route. -/
def admitRegistration (env : Env) (s : ServerSession) (register : RegisterCidPayload) :
    Except RegisterFailCode SessionRegistry :=
  if register.cipher ∉ s.allowedCiphers then .error .invalidCipher
  else
    match env.keysFailure with
    | some e => .error (cryptoFailCode e)
    | none =>
      match register.clientToServerCid.prefixOf with
      | .error _ => .error .invalidCid
      | .ok dcidPrefix =>
        match s.registry.insertCid s.clientId s.sessionId dcidPrefix s.tx with
        | .error _ => .error .invalidCid
        | .ok inserted =>
          let registry := env.foreign.foldl ForeignCall.apply inserted
          .ok (registry.removeCidsForSessionExcept s.sessionId dcidPrefix)

theorem admitRegistration_eq_ok {env : Env} {s : ServerSession} {register : RegisterCidPayload}
    {registry : SessionRegistry} (h : admitRegistration env s register = .ok registry) :
    env.keysFailure = none ∧
      ∃ dcidPrefix inserted, register.clientToServerCid.prefixOf = .ok dcidPrefix ∧
        s.registry.insertCid s.clientId s.sessionId dcidPrefix s.tx = .ok inserted ∧
        registry = (env.foreign.foldl ForeignCall.apply inserted).removeCidsForSessionExcept
          s.sessionId dcidPrefix := by
  unfold admitRegistration at h
  split at h
  · cases h
  split at h
  · cases h
  rename_i hkeys
  split at h
  · cases h
  rename_i dcidPrefix hroutedBy
  split at h
  · cases h
  rename_i inserted hinsert
  cases h
  exact ⟨hkeys, dcidPrefix, inserted, hroutedBy, hinsert, rfl⟩

def installUdpSession (register : RegisterCidPayload) : ServerM Unit := do
  modify fun s =>
    { s with udpSession := some ⟨register.serverSession, placeholderPeer, []⟩,
             udpPeerPacketNumber := none, lastAuthenticatedUdpActivity := none,
             udpUpgrade := .default }
  emit (.registered register)

def handleRegisterCid (env : Env) (decoded : Except PayloadError RegisterCidPayload) :
    ServerM SessionControl := do
  match decoded with
  | .error err => sendRegisterFail env (registerDecodeFailCode err)
  | .ok register =>
    match admitRegistration env (← get) register with
    | .error code => sendRegisterFail env code
    | .ok registry => do
      modify fun s => { s with registry := registry }
      match env.udpIoFailure with
      | some source => throw (.connection source)
      | none => do
        installUdpSession register
        sendTcpMessage env (.registerOk register.clientToServerCid)
        pure .continue

/-! ## The upgrade handshake -/

def maybeSendSwitchToUdp (env : Env) : ServerM Unit := do
  let u := (← get).udpUpgrade
  if u.switchToUdpSent || !u.probeSeen || !u.readySeen then pure ()
  else
    match u.upgradeId with
    | none => pure ()
    | some upgradeId => do
      sendTcpMessage env (.switchToUdp upgradeId)
      modify fun s => { s with udpUpgrade := { s.udpUpgrade with switchToUdpSent := true } }

def handleUpgradeProbe (env : Env) (upgradeId nonce : UInt64) : ServerM SessionControl := do
  match (← get).udpUpgrade.noteUpgradeId upgradeId .upgradeProbe with
  | none => pure .continue
  | some u => do
    modify fun s => { s with udpUpgrade := { u with probeSeen := true } }
    sendUdpMessageAndFlush env (.upgradeProbeAck upgradeId nonce) .retireOnly
    maybeSendSwitchToUdp env
    pure .continue

def handleUdpReady (env : Env) (upgradeId : UInt64) : ServerM SessionControl := do
  match (← get).udpUpgrade.noteUpgradeId upgradeId .udpReady with
  | none => pure .continue
  | some u => do
    modify fun s => { s with udpUpgrade := { u with readySeen := true } }
    maybeSendSwitchToUdp env
    pure .continue

def handleSwitchAck (env : Env) (upgradeId : UInt64) : ServerM SessionControl := do
  let u := (← get).udpUpgrade
  match u.upgradeId with
  | none => pure .continue
  | some expected =>
    if expected ≠ upgradeId then pure .continue
    else if !u.switchToUdpSent then pure .continue
    else do
      setActiveTransport .udpQsp
      sendTcpMessage env (.switchOk upgradeId)
      let done := (u.rememberStaleUpgradeId upgradeId).resetAttemptPreservingHistory
      modify fun s => { s with udpUpgrade := done }
      pure .continue

/-! ## Fallback to TCP -/

def acceptClientFallback (fallbackId : UInt64) : ServerM Unit := do
  setActiveTransport .tcp
  modify resetUdpUpgradeState
  modify fun s => { s with lastPeerFallbackId := some fallbackId }

def yieldToFallback (fallbackId : UInt64) : ServerM Unit := do
  if (← get).lastPeerFallbackId = some fallbackId then pure ()
  else acceptClientFallback fallbackId

def handleFallbackToTcp (env : Env) (fallbackId : UInt64) : ServerM SessionControl := do
  yieldToFallback fallbackId
  sendTcpMessage env (.fallbackOk fallbackId)
  pure .continue

def handleFallbackOk (fallbackId : UInt64) : ServerM SessionControl := do
  modify fun s =>
    if s.pendingTcpFallback = some fallbackId then { s with pendingTcpFallback := none } else s
  pure .continue

def handleUdpLivenessTimeout (env : Env) : ServerM SessionControl := do
  let s ← get
  if s.activeTransport ≠ .udpQsp ∨ !s.tcpAlive then pure .continue
  else do
    setActiveTransport .tcp
    retireUdpTransport
    sendTcpFallbackRequest env
    pure .continue

/-! ## Messages -/

def extractSrcAddr : Bytes → Option Bytes
  | [] => none
  | first :: rest =>
    let packet := first :: rest
    let ihl := (first &&& 0x0f).toNat * 4
    if packet.length < 20 then none
    else if first >>> 4 ≠ 4 then none
    else if ihl < 20 ∨ packet.length < ihl then none
    else some ((packet.drop 12).take 4)

/-- Deliver a packet to the tunnel if its source is the client's address. -/
def forwardToTun (env : Env) (packet : Bytes) : ServerM SessionControl := do
  if extractSrcAddr packet = some (← get).assignedIpv4.val then
    match env.tunAccept with
    | .done .accepted => do
      emit (.toTun packet)
      pure .continue
    | .done .dropped => pure .continue
    | .done .closed => throw (.io ⟨.brokenPipe, "TUN delivery path closed"⟩)
    | .failed source => throw (.io source)
    | .dropped => drop
  else pure .continue

def clientContext (transport : MessageTransport) : MessageContext :=
  ⟨.client, .established, transport⟩

def validateMessage (type : MessageType) (transport : MessageTransport) : ServerM Unit :=
  match validateMessageType type (clientContext transport) with
  | .ok () => pure ()
  | .error _ => throw .protocolViolation

/-- A registration is out of place while UDP is preferred. -/
def handleRegisterMessage (env : Env) (decoded : Except PayloadError RegisterCidPayload) :
    ServerM SessionControl := do
  match (← get).activeTransport with
  | .udpQsp => throw .protocolViolation
  | .tcp => handleRegisterCid env decoded

def dispatchTcpMessage (env : Env) : Message → ServerM SessionControl
  | .udpReady upgradeId => handleUdpReady env upgradeId
  | .switchAck upgradeId => handleSwitchAck env upgradeId
  | .data packet => forwardToTun env packet
  | .ping nonce => do
    sendTcpMessage env (.pong nonce)
    pure .continue
  | .pong _ => pure .continue
  | .close _ => pure .close
  | .registerCid payload => handleRegisterMessage env (.ok payload)
  | .fallbackToTcp fallbackId => handleFallbackToTcp env fallbackId
  | .fallbackOk fallbackId => handleFallbackOk fallbackId
  -- rejected by the validation
  | _ => pure .continue

def handleTcpMessage (env : Env) (message : Message) : ServerM SessionControl := do
  validateMessage message.ty .tcp
  dispatchTcpMessage env message

/-- The payload of a registration is decoded by its handler, which answers; all
others are decoded by the validation. -/
def handleMalformedMessage (env : Env) (type : MessageType) (err : PayloadError) :
    ServerM SessionControl := do
  validateMessage type .tcp
  match type with
  | .registerCid => handleRegisterMessage env (.error err)
  | _ => throw (.payload err)

def dispatchUdpMessage (env : Env) : Message → ServerM SessionControl
  | .ping nonce => do
    sendUdpMessageAndFlush env (.pong nonce) .signalTcpFallback
    pure .continue
  | .pong _ => pure .continue
  | .data packet => forwardToTun env packet
  | .upgradeProbe upgradeId nonce => handleUpgradeProbe env upgradeId nonce
  | .close _ => pure .close
  -- rejected by the validation
  | _ => pure .continue

/-- Packets that are not newer do not move the peer back. -/
def adoptUdpPeerIfNewer (peer : SocketAddr) (packetNumber : Nat) (s : ServerSession) :
    ServerSession :=
  match s.udpSession with
  | none => s
  | some session =>
    if s.udpPeerPacketNumber.any (packetNumber ≤ ·) then s
    else
      { s with udpSession := some { session with peer := peer },
               udpPeerPacketNumber := some packetNumber }

def noteAuthenticatedUdpActivity (env : Env) : ServerM Unit :=
  modify fun s => { s with lastAuthenticatedUdpActivity := some env.now }

def handleUdpMessage (env : Env) (message : Message) : ServerM SessionControl := do
  validateMessage message.ty .udpQsp
  let control ← dispatchUdpMessage env message
  noteAuthenticatedUdpActivity env
  pure control

def rejectMalformed (type : MessageType) (err : PayloadError) : ServerM SessionControl := do
  validateMessage type .udpQsp
  throw (.payload err)

def handleUdpPayload (env : Env) : UdpPayload → ServerM SessionControl
  | .message message => handleUdpMessage env message
  | .malformed type err => rejectMalformed type err
  | .unframed err => throw (.message err)
  | .incomplete => throw .protocolViolation

def handleUdpClaim (env : Env) (claim : UdpClaim) : ServerM SessionControl := do
  modify (adoptUdpPeerIfNewer claim.peer claim.packetNumber)
  handleUdpPayload env claim.payload

/-! ## The loop -/

def handleTunPacket (env : Env) (packet : Bytes) : ServerM SessionControl := do
  let s ← get
  if s.maxDataLen < packet.length then pure .continue
  else
    match s.activeTransport with
    | .tcp => do
      sendTcpMessage env (.data packet)
      pure .continue
    | .udpQsp => do
      sendUdpMessage env (.data packet) .retryMessageOnTcp
      pure .continue

def handlePingTick (env : Env) : ServerM SessionControl := do
  match (← get).activeTransport with
  | .tcp => do
    sendTcpMessage env (.ping env.pingNonce)
    pure .continue
  | .udpQsp => do
    sendUdpMessageAndFlush env (.ping env.pingNonce) .retryMessageOnTcp
    pure .continue

def handleTcpClosed : ServerM SessionControl := do
  match (← get).activeTransport with
  | .udpQsp => do
    modify fun s => { s with tcpAlive := false }
    pure .continue
  | .tcp => pure .close

def handleUdpFlush (env : Env) : ServerM SessionControl := do
  match ← flushUdpSession env none with
  | none => pure .continue
  | some source => do
    recoverFromUdpError env none .signalTcpFallback (.io source)
    pure .continue

def handleIdleTimer (env : Env) : ServerM SessionControl := do
  let _ ← attempt (sendClose env .idleTimeout)
  pure .close

def handleEvent (env : Env) : SessionEvent → ServerM SessionControl
  | .tcpMessage message => handleTcpMessage env message
  | .tcpMalformed type err => handleMalformedMessage env type err
  | .tcpUnframed err => throw (.message err)
  | .tcpClosed => handleTcpClosed
  | .tcpFailed source => throw (.connection source)
  | .udp claim => handleUdpClaim env claim
  | .udpDropped => pure .continue
  | .tunPacket packet => handleTunPacket env packet
  | .udpFlush => handleUdpFlush env
  | .pingTimer => handlePingTick env
  | .udpLivenessTimer => handleUdpLivenessTimeout env
  | .idleTimer => handleIdleTimer env
  | .shutdown => drop

def ServerSession.polls (s : ServerSession) : SessionEvent → Bool
  | .tcpMessage _ => s.tcpAlive
  | .tcpMalformed _ _ => s.tcpAlive
  | .tcpUnframed _ => s.tcpAlive
  | .tcpClosed => s.tcpAlive
  | .tcpFailed _ => s.tcpAlive
  | .udp claim => s.udpSession.any fun session => session.params.Opens claim.sender
  | .udpFlush => s.activeTransport = .udpQsp && s.udpSession.any (!·.slab.isEmpty)
  | .udpLivenessTimer =>
    s.activeTransport = .udpQsp && s.tcpAlive && s.lastAuthenticatedUdpActivity.isSome
  | _ => true

/-! ## The session -/

/-- `SessionRunOutcome`, with what the loop returned. -/
inductive RunOutcome where
  | completed (result : Except SessionError Unit)
  | shutdown (reason : SessionShutdownReason)
  | shutdownSignalUnavailable

/-- How the loop ended. Only the shutdown signal drops it. -/
def outcomeOf (env : Env) : Except (Stop SessionError) SessionControl → Option RunOutcome
  | .ok .continue => none
  | .ok .close => some (.completed (.ok ()))
  | .error (.error err) => some (.completed (.error err))
  | .error .dropped =>
    match env.shutdown with
    | some reason => some (.shutdown reason)
    | none => some .shutdownSignalUnavailable

def RunOutcome.result : RunOutcome → Except SessionError Unit
  | .completed result => result
  | .shutdown _ => .ok ()
  | .shutdownSignalUnavailable =>
    .error (.io ⟨.brokenPipe, "session shutdown signal unavailable without a reason"⟩)

def handleManagedShutdown (env : Env) : RunOutcome → ServerM Unit
  | .shutdown reason => sendCloseBestEffort env reason.closeCode
  | _ => pure ()

def tellPeerAtFault (env : Env) : Except SessionError Unit → ServerM Unit
  | .ok () => pure ()
  | .error err =>
    if err.isPeerProtocolError then sendCloseBestEffort env .protocolError else pure ()

def cleanup : ServerM Unit :=
  modify fun s =>
    { s with registry := s.registry.removeSession s.sessionId s.clientId s.assignedIpv4 }

def closeSession (env : Env) (outcome : RunOutcome) : ServerM Unit := do
  handleManagedShutdown env outcome
  tellPeerAtFault env outcome.result
  flushPendingUdpSessionBestEffort env
  cleanup

end Slt.Server
