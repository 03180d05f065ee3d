import Slt.Client.State

/-!
# Client: writes, fallback, registration and upgrade

The handlers of the client session, from the writes up to the upgrade state
machine. What the source does in line after an `if` is a function of its own
where more follows it.
-/

namespace Slt.Client

open Lib Lib.Handler Proto

/-! ## Writes -/

def writeTcpMessage (env : Env) (message : Message) : ClientM Unit :=
  match env.tcpWrite message with
  | .done => emit (.tcp message)
  | .failed source written => do
    emit (.tcpCut message written)
    throw (.io source)
  | .dropped written => do
    emit (.tcpCut message written)
    drop

/-- A failed send is never droppable, whatever the kind of its I/O error. -/
def udpSendError : Crypto.QspSessionError → UdpQspError
  | .io source => .sendIo source
  | other => .qsp other

def writeUdpMessage (env : Env) (transport : QspSessionParams) (message : Message) :
    ClientM Unit := do
  emit (.udp transport message)
  match env.udpWrite message with
  | .done => pure ()
  | .failed e => throw (.ofUdpQsp (udpSendError e))
  | .dropped => drop

/-- `flush` of a UDP transport, after `message` if one was written just before. -/
def flushUdp (env : Env) (message : Option Message) : ClientM Unit :=
  match env.udpFlush message with
  | .done => pure ()
  | .failed source => throw (.io source)
  | .dropped => drop

def inconsistent {α : Type} (detail : String) : ClientM α := do
  emit (.inconsistent detail)
  throw (.protocolViolation detail)

def transportMissing {α : Type} : ClientM α := inconsistent "udp-qsp transport missing"

def writeUdpMessageAndFlush (env : Env) (message : Message) : ClientM Unit := do
  match (← get).udpReceiveTransport with
  | none => transportMissing
  | some transport => do
    writeUdpMessage env transport message
    flushUdp env (some message)

def flushUdpTransport (env : Env) : ClientM Unit := do
  match (← get).udpState.asActive with
  | none => transportMissing
  | some _ => flushUdp env none

def writeActiveMessage (env : Env) (message : Message) : ClientM Unit := do
  let s ← get
  match s.activeTransport with
  | .tcp => writeTcpMessage env message
  | .udpQsp =>
    match s.udpState.asActive with
    | none => transportMissing
    | some transport => writeUdpMessage env transport message

def sendToTunOrShutdown (env : Env) (packet : Bytes) : ClientM SessionControl := do
  match env.tunSend with
  | .cancelled => pure (.close .shutdown)
  | .closed => pure (.close (.tunClosed .writer))
  | .dropped => drop
  | .accepted => do
    emit (.toTun packet)
    pure .continue

/-! ## Discovery and registration timers -/

namespace ClientSession

def disableUdp (s : ClientSession) : ClientSession :=
  { s with retainedUdpTransport := none, udpState := .disabled, udpUpgrade := .disabled,
           lastAuthenticatedUdpActivity := none }

def scheduleDiscoveryRetryWithReceivePath (s : ClientSession) (preserveReceivePath : Bool) :
    ClientSession :=
  if !s.config.upgradeEnabled then s.disableUdp
  else if preserveReceivePath then
    match s.retainedUdpTransport, s.udpState with
    | none, .active transport =>
      { s with udpUpgrade := .idle, udpState := .needDiscovery,
               retainedUdpTransport := some transport }
    | _, _ => { s with udpUpgrade := .idle, udpState := .needDiscovery }
  else
    { s with udpUpgrade := .idle, udpState := .needDiscovery, retainedUdpTransport := none,
             lastAuthenticatedUdpActivity := none }

def scheduleDiscoveryRetry (s : ClientSession) : ClientSession :=
  s.scheduleDiscoveryRetryWithReceivePath true

def scheduleDiscoveryRetryAfterUdpFailure (s : ClientSession) : ClientSession :=
  s.scheduleDiscoveryRetryWithReceivePath false

def scheduleDiscoveryNow (s : ClientSession) : ClientSession :=
  if !s.config.upgradeEnabled then s.disableUdp
  else
    { s with retainedUdpTransport := none, lastAuthenticatedUdpActivity := none,
             udpUpgrade := .idle, udpState := .needDiscovery }

def scheduleRegistrationRetry (s : ClientSession) : ClientSession :=
  match s.udpState with
  | .pending quicIds _ => { s with udpState := .pending quicIds none }
  | _ => s

end ClientSession

/-! ## Fallback to TCP -/

def discardPendingUdpSendForFallback : ClientM Unit := do
  match (← get).udpReceiveTransport with
  | none => pure ()
  | some transport => emit (.discardPendingSend transport)

def leaveUdp (reason : TransportChangeReason) : ClientM Unit := do
  match (← get).activeTransport with
  | .tcp => pure ()
  | .udpQsp => do
    modify fun s => { s with activeTransport := .tcp }
    emit (.observe (.transportChanged .udpQsp .tcp reason))

/-- Ask the server to fall back, unless it has been asked. -/
def writeFallbackRequest (env : Env) : ClientM Unit := do
  match (← get).pendingTcpFallback with
  | some _ => pure ()
  | none => do
    writeTcpMessage env (.fallbackToTcp env.fallbackId)
    modify fun s => { s with pendingTcpFallback := some env.fallbackId }

def requestTcpFallback (env : Env) (reason : TransportChangeReason) : ClientM Unit := do
  if (← get).tcpAlive then do
    writeFallbackRequest env
    discardPendingUdpSendForFallback
    leaveUdp reason
  else throw (.connection ⟨.notConnected, "tcp fallback unavailable"⟩)

/-- The server's request, when it is not a duplicate. -/
def acceptServerFallback (fallbackId : UInt64) : ClientM Unit := do
  discardPendingUdpSendForFallback
  leaveUdp .serverInitiated
  modify ClientSession.scheduleDiscoveryRetry
  modify fun s => { s with lastPeerFallbackId := some fallbackId }

def yieldToFallback (fallbackId : UInt64) : ClientM Unit := do
  if (← get).lastPeerFallbackId = some fallbackId then pure ()
  else acceptServerFallback fallbackId

def handleFallbackToTcp (env : Env) (fallbackId : UInt64) : ClientM SessionControl := do
  yieldToFallback fallbackId
  writeTcpMessage env (.fallbackOk fallbackId)
  pure .continue

def handleFallbackOk (fallbackId : UInt64) : ClientM SessionControl := do
  modify fun s =>
    if s.pendingTcpFallback = some fallbackId then { s with pendingTcpFallback := none } else s
  pure .continue

/-- A fatal failure of the retained receive path retires only that path. -/
def ClientSession.isReplacing (s : ClientSession) : Bool :=
  (match s.udpState with
    | .needDiscovery => true
    | .pending _ _ => true
    | _ => false) && s.retainedUdpTransport.isSome

/-- Whether the session can go on after a failure of the UDP path. -/
def handleUdpError (env : Env) (err : SessionError) : ClientM Bool := do
  let s ← get
  if err.isUdpQspRecoverable then pure true
  else if s.isReplacing then do
    modify fun s => { s with retainedUdpTransport := none, lastAuthenticatedUdpActivity := none }
    pure true
  else if !s.tcpAlive then pure false
  else do
    requestTcpFallback env .udpError
    modify ClientSession.scheduleDiscoveryRetryAfterUdpFailure
    pure true

def handleUdpEventError (env : Env) (err : SessionError) : ClientM SessionControl := do
  match ← handleUdpError env err with
  | true => pure .continue
  | false => pure (.close .connectionError)

/-- What follows a failed UDP write that has to be made good on TCP. -/
def recoverFromUdpWrite (env : Env) (err : SessionError) : ClientM Unit := do
  if err.isUdpPathTransportError then
    match ← handleUdpError env err with
    | true => pure ()
    | false => throw (.connection ⟨.notConnected, "both transports dead"⟩)
  else throw err

/-! ## Registration -/

def selectUdpQspCipher (env : Env) (policy : ClientUdpQspCipher) : CipherSuite :=
  policy.select env.aesAccelerated

def autoFallbackPolicy (env : Env) : ClientUdpQspCipher :=
  otherExplicitPolicy (selectUdpQspCipher env .auto)

def prepareUdpQspRegistration (env : Env) (ids : QuicIds) (cipher : CipherSuite) :
    Except SessionError PreparedUdpQspRegistration :=
  let draw := env.registration
  let payload : RegisterCidPayload :=
    { clientToServerCid := ids.dcid, serverToClientCid := ids.scid, cipher := cipher,
      secretTx := draw.secretS2c, secretRx := draw.secretC2s, pnStart := draw.pnStartS2c,
      pnStartRx := draw.pnStartC2s, keyPhase := false }
  if env.randomFailure then .error .crypto
  else
    match payload.encodable, env.keysFailure, env.socketFailure with
    | .error e, _, _ => .error (.payload e)
    | .ok (), some e, _ => .error (.udpQspKeys e)
    | .ok (), none, some source => .error (.io source)
    | .ok (), none, none =>
      .ok
        { payload := payload
          session := some
            { scid := ids.scid, dcid := ids.dcid, cipher := cipher, secretTx := payload.secretRx,
              secretRx := payload.secretTx, sendPn := draw.pnStartC2s,
              recvExpectedPn := draw.pnStartS2c, keyPhase := false }
          cipher := cipher }

def handleRegistrationSetupFailure (err : SessionError) : ClientM SessionControl := do
  if (← get).config.requireUdp then pure (.close .udpUpgradeRequired)
  else do
    emit (.observe (.udpRegisterSetupFailed err))
    modify ClientSession.scheduleRegistrationRetry
    pure .continue

def ClientSession.trackRegistration (s : ClientSession) (registration : PendingUdpQspRegistration) :
    ClientSession :=
  match s.udpState with
  | .pending quicIds _ => { s with udpState := .pending quicIds (some registration) }
  | _ => s

def attemptUdpRegistration (env : Env) : ClientM SessionControl := do
  let s ← get
  match s.udpState with
  | .pending quicIds none =>
    match prepareUdpQspRegistration env quicIds (selectUdpQspCipher env s.udpCipherPolicy) with
    | .error err => handleRegistrationSetupFailure err
    | .ok prepared => do
      writeTcpMessage env (.registerCid prepared.payload)
      modify (·.trackRegistration ⟨prepared, env.now + s.config.registerTimeout⟩)
      emit (.observe .udpRegisterStarted)
      pure .continue
  | _ => pure .continue

def startUdpUpgradeAttempt (env : Env) : ClientM Unit := do
  let s ← get
  match s.udpUpgrade, s.udpState, s.activeTransport with
  | .disabled, _, _ => pure ()
  | _, .active _, .tcp => do
    let attempt : Upgrading :=
      { upgradeId := env.upgradeId, deadline := env.now + s.config.registerTimeout,
        attempts := 0, nextProbeAt := env.now, probeNonce := env.probeNonce,
        probeAcked := false, readySent := false }
    modify fun s => { s with udpUpgrade := .upgrading attempt }
    emit (.observe (.udpUpgradeStarted env.upgradeId))
  | _, .active _, .udpQsp => pure ()
  | _, _, _ => modify fun s => { s with udpUpgrade := .idle }

def registerOkMismatch (expected got : Cid) : SessionError :=
  .protocolViolation
    ("register_ok client_to_server_cid mismatch: expected=" ++ expected.debug ++ ", got=" ++
      got.debug)

def handleRegisterOk (env : Env) (clientToServerCid : Cid) : ClientM SessionControl := do
  match (← get).udpState with
  | .pending quicIds (some inFlight) =>
    if clientToServerCid ≠ quicIds.dcid then
      throw (registerOkMismatch quicIds.dcid clientToServerCid)
    else
      match inFlight.prepared.session with
      | none => inconsistent "udp-qsp session missing"
      | some session => do
        modify fun s =>
          { s with udpState := .active session, retainedUdpTransport := none,
                   lastAuthenticatedUdpActivity := none }
        emit (.observe .udpRegistered)
        startUdpUpgradeAttempt env
        pure .continue
  | _ => pure .continue

def retryRejectedRegistration (code : RegisterFailCode) : ClientM SessionControl := do
  emit (.observe (.udpRegisterFailed ("register_cid rejected: " ++ code.debug)))
  modify ClientSession.scheduleRegistrationRetry
  pure .continue

def handleRegisterFail (env : Env) (code : RegisterFailCode) : ClientM SessionControl := do
  let s ← get
  match s.udpState with
  | .pending _ (some _) =>
    if code = .invalidCipher ∧ s.config.cipher = .auto ∧ s.udpCipherPolicy = .auto then do
      -- one retry with the other suite, since the policy is explicit afterwards
      modify fun s => { s with udpCipherPolicy := autoFallbackPolicy env }
      retryRejectedRegistration code
    else if s.config.requireUdp then pure (.close .udpUpgradeRequired)
    else retryRejectedRegistration code
  | _ => pure .continue

def handleRegistrationTimeout : ClientM SessionControl := do
  let s ← get
  match s.udpState with
  | .pending _ (some _) =>
    if s.config.requireUdp then pure (.close .udpUpgradeRequired)
    else do
      emit (.observe (.udpRegisterFailed "register_cid timed out"))
      modify ClientSession.scheduleRegistrationRetry
      pure .continue
  | _ => pure .continue

def handleDiscoveryResult (ids : Option QuicIds) : ClientM SessionControl := do
  match ids with
  | some ids => do
    modify fun s => { s with udpState := .pending ids none }
    pure .continue
  | none => do
    emit (.observe (.udpDiscoveryFailed "quic dcid discovery failed"))
    if (← get).config.requireUdp then pure (.close .udpUpgradeRequired)
    else do
      modify ClientSession.scheduleDiscoveryRetry
      pure .continue

/-! ## The upgrade handshake -/

def maxUpgradeProbes : Nat := 8

def handleUdpUpgradeTimeout (env : Env) : ClientM SessionControl := do
  if (← get).config.requireUdp then pure (.close .udpUpgradeRequired)
  else do
    modify fun s => { s with udpUpgrade := .tcpOnlyBlockedUdp (env.now + env.upgradeDelay) }
    pure .continue

def sendUpgradeProbe (env : Env) : ClientM Unit := do
  match (← get).udpUpgrade with
  | .upgrading attempt =>
    if attempt.probeAcked || decide (maxUpgradeProbes ≤ attempt.attempts) then pure ()
    else do
      let next : Upgrading :=
        { attempt with attempts := attempt.attempts + 1, nextProbeAt := env.now + env.probeDelay }
      modify fun s => { s with udpUpgrade := .upgrading next }
      match ← Handler.attempt
          (writeUdpMessageAndFlush env (.upgradeProbe attempt.upgradeId attempt.probeNonce)) with
      | .ok () => pure ()
      | .error err => recoverFromUdpWrite env err
  | _ => pure ()

def handleUdpUpgradeTick (env : Env) : ClientM SessionControl := do
  let s ← get
  match s.udpUpgrade with
  | .disabled => pure .continue
  | .idle => pure .continue
  | .awaitingSwitchOk _ deadline =>
    if env.now < deadline then pure .continue
    else if s.config.requireUdp then handleUdpUpgradeTimeout env
    else do
      requestTcpFallback env .udpError
      handleUdpUpgradeTimeout env
  | .tcpOnlyBlockedUdp retryAt =>
    if env.now < retryAt then pure .continue
    else do
      startUdpUpgradeAttempt env
      pure .continue
  | .upgrading attempt =>
    if attempt.deadline ≤ env.now then handleUdpUpgradeTimeout env
    else if attempt.probeAcked || decide (env.now < attempt.nextProbeAt) then pure .continue
    else if maxUpgradeProbes ≤ attempt.attempts then handleUdpUpgradeTimeout env
    else do
      sendUpgradeProbe env
      pure .continue

def handleUpgradeProbeAck (env : Env) (upgradeId nonce : UInt64) : ClientM SessionControl := do
  match (← get).udpUpgrade with
  | .upgrading attempt =>
    if upgradeId ≠ attempt.upgradeId then pure .continue
    else if nonce ≠ attempt.probeNonce then pure .continue
    else if attempt.readySent then do
      modify fun s => { s with udpUpgrade := .upgrading { attempt with probeAcked := true } }
      pure .continue
    else do
      modify fun s => { s with udpUpgrade := .upgrading { attempt with probeAcked := true } }
      writeTcpMessage env (.udpReady upgradeId)
      modify fun s =>
        { s with udpUpgrade := .upgrading { attempt with probeAcked := true, readySent := true } }
      emit (.observe (.udpPathValidated upgradeId))
      pure .continue
  | _ => pure .continue

def handleSwitchToUdp (env : Env) (upgradeId : UInt64) : ClientM SessionControl := do
  let s ← get
  match s.udpUpgrade with
  | .upgrading attempt =>
    if upgradeId ≠ attempt.upgradeId then pure .continue
    else if !attempt.probeAcked || !attempt.readySent then pure .continue
    else do
      writeTcpMessage env (.switchAck upgradeId)
      let deadline := env.now + s.config.registerTimeout
      modify fun s => { s with udpUpgrade := .awaitingSwitchOk upgradeId deadline }
      pure .continue
  | _ => pure .continue

def enterUdp : ClientM Unit := do
  match (← get).activeTransport with
  | .udpQsp => pure ()
  | .tcp => do
    modify fun s => { s with activeTransport := .udpQsp }
    emit (.observe (.transportChanged .tcp .udpQsp .upgradeCommitted))

def handleSwitchOk (upgradeId : UInt64) : ClientM SessionControl := do
  match (← get).udpUpgrade with
  | .awaitingSwitchOk expected _ =>
    if upgradeId ≠ expected then pure .continue
    else do
      enterUdp
      modify fun s => { s with udpUpgrade := .idle, pendingTcpFallback := none }
      emit (.observe (.udpSwitchCommitted upgradeId))
      pure .continue
  | _ => pure .continue

end Slt.Client
