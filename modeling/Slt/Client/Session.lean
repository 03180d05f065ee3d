import Slt.Client.Upgrade

/-!
# Client: dispatch and the event loop

Messages from either transport, the refresh of the UDP path after a network
change, and the events of the session loop. The refresh waits for an answer
inside the handler of the network change; here it is a part of the state, and
while it lasts the loop takes no other events.
-/

namespace Slt.Client

open Lib Lib.Handler Proto

/-! ## Messages -/

def serverContext (transport : MessageTransport) : MessageContext :=
  ⟨.server, .established, transport⟩

def validateMessage (type : MessageType) (transport : MessageTransport) : ClientM Unit :=
  match validateMessageType type (serverContext transport) with
  | .ok () => pure ()
  | .error err => throw (.ofValidation err)

/-- The payload is decoded by the validation, after the type. -/
def rejectMalformed (type : MessageType) (err : PayloadError) (transport : MessageTransport) :
    ClientM SessionControl := do
  validateMessage type transport
  throw (.payload err)

def dispatchTcpMessage (env : Env) : Message → ClientM SessionControl
  | .data packet => sendToTunOrShutdown env packet
  | .registerOk clientToServerCid => handleRegisterOk env clientToServerCid
  | .registerFail code => handleRegisterFail env code
  | .ping nonce => do
    writeTcpMessage env (.pong nonce)
    pure .continue
  | .pong _ => pure .continue
  | .close code => pure (.close (.remoteClose code))
  | .switchToUdp upgradeId => handleSwitchToUdp env upgradeId
  | .switchOk upgradeId => handleSwitchOk upgradeId
  | .fallbackToTcp fallbackId => handleFallbackToTcp env fallbackId
  | .fallbackOk fallbackId => handleFallbackOk fallbackId
  -- rejected by the validation
  | _ => pure .continue

def handleTcpMessage (env : Env) (message : Message) : ClientM SessionControl := do
  validateMessage message.ty .tcp
  dispatchTcpMessage env message

def dispatchUdpMessage (env : Env) : Message → ClientM SessionControl
  | .data packet => sendToTunOrShutdown env packet
  | .ping nonce => do
    writeUdpMessageAndFlush env (.pong nonce)
    pure .continue
  | .pong _ => pure .continue
  | .close code => pure (.close (.remoteClose code))
  | .upgradeProbeAck upgradeId nonce => handleUpgradeProbeAck env upgradeId nonce
  -- rejected by the validation
  | _ => pure .continue

def handleUdpMessage (env : Env) (message : Message) : ClientM SessionControl := do
  validateMessage message.ty .udpQsp
  dispatchUdpMessage env message

def noteAuthenticatedUdpActivity (env : Env) : ClientM Unit :=
  modify fun s => { s with lastAuthenticatedUdpActivity := some env.now }

/-! ## Refreshing the UDP path -/

/-- The first half of `refresh_udp_path`: send the ping, then wait. -/
def startRefresh (env : Env) (replaced : Bool) : ClientM Unit := do
  let nonce := if replaced then env.replacedPingNonce else env.pingNonce
  writeUdpMessageAndFlush (if replaced then env.onReplaced else env) (.ping nonce)
  modify fun s => { s with refresh := some ⟨nonce, replaced⟩ }

def recreateUdpIo (env : Env) : ClientM Unit := do
  match (← get).udpState.asActive with
  | none => transportMissing
  | some transport =>
    match env.socketFailure with
    | some source => throw (.io source)
    | none => if env.replaceIoDropped then drop else emit (.replaceIo transport)

def reconnectForNetwork : ClientM SessionControl := do
  emit (.observe (.networkChanged "underlying network changed"))
  pure (.close .networkChanged)

/-- The refresh has failed on both sockets, or for another reason. -/
def failRefresh (env : Env) (err : SessionError) : ClientM SessionControl := do
  modify fun s => { s with refresh := none }
  emit (.observe (.udpPathRefreshFailed err))
  if !err.isUdpPathTransportError then throw err
  else if !(← get).tcpAlive then reconnectForNetwork
  else do
    requestTcpFallback env .udpError
    modify ClientSession.scheduleDiscoveryNow
    pure .continue

/-- The refresh has failed on the existing socket. -/
def refreshReplacedSocket (env : Env) (err : SessionError) : ClientM SessionControl := do
  if err.isUdpPathTransportError then
    match ← attempt (do recreateUdpIo env; startRefresh env true) with
    | .ok () => pure .continue
    | .error err => failRefresh env err
  else failRefresh env err

def handleRefreshError (env : Env) (refresh : Refresh) (err : SessionError) :
    ClientM SessionControl :=
  if refresh.replaced then failRefresh env err else refreshReplacedSocket env err

def handleNetworkChanged (env : Env) : ClientM SessionControl := do
  let s ← get
  match s.activeTransport, s.udpState with
  | .udpQsp, .active _ => do
    emit (.observe .udpPathRefreshStarted)
    match ← attempt (startRefresh env false) with
    | .ok () => pure .continue
    | .error err => refreshReplacedSocket env err
  | _, _ => reconnectForNetwork

def finishRefresh (env : Env) : ClientM SessionControl := do
  noteAuthenticatedUdpActivity env
  modify fun s => { s with refresh := none }
  emit (.observe .udpPathRefreshSucceeded)
  pure .continue

/-- A message during the refresh that is not its answer. -/
def handleRefreshMessage (env : Env) (refresh : Refresh) (message : Message) :
    ClientM SessionControl := do
  match ← attempt (handleUdpMessage env message) with
  | .ok .continue => do
    noteAuthenticatedUdpActivity env
    pure .continue
  | .ok (.close exit) => do
    noteAuthenticatedUdpActivity env
    modify fun s => { s with refresh := none }
    pure (.close exit)
  | .error err =>
    if err.isUdpQspRecoverable then pure .continue else handleRefreshError env refresh err

/-- What one round of the loop of `refresh_udp_path` has waited for. -/
def handleRefreshResult (env : Env) (refresh : Refresh) : SessionEvent → ClientM SessionControl
  | .shutdown => do
    modify fun s => { s with refresh := none }
    pure (.close .shutdown)
  | .tunFault => pure (.close .tunFault)
  | .udpResult (.error err) =>
    if (SessionError.ofUdpQsp err).isUdpQspRecoverable then pure .continue
    else handleRefreshError env refresh (.ofUdpQsp err)
  | .udpResult (.ok packet) =>
    if packet.message = .pong refresh.nonce then finishRefresh env
    else handleRefreshMessage env refresh packet.message
  | .udpMalformed type err => do
    match ← attempt (rejectMalformed type err .udpQsp) with
    | .ok control => pure control
    | .error err => handleRefreshError env refresh err
  | .refreshTimeout =>
    handleRefreshError env refresh (.io ⟨.timedOut, "udp-qsp path refresh timed out"⟩)
  | _ => pure .continue

/-- The loop of `refresh_udp_path`, one round. -/
def handleRefreshEvent (env : Env) (refresh : Refresh) (event : SessionEvent) :
    ClientM SessionControl := do
  match (← get).udpState.asActive with
  | some _ => handleRefreshResult env refresh event
  | none =>
    match ← attempt transportMissing with
    | .ok control => pure control
    | .error err => handleRefreshError env refresh err

/-! ## Timers and packets -/

/-- Write on the preferred transport and flush; make a failure of UDP good on
TCP. -/
def writeControlMessage (env : Env) (message : Message) : ClientM Unit := do
  match (← get).activeTransport with
  | .tcp => writeTcpMessage env message
  | .udpQsp =>
    match ← attempt (writeUdpMessageAndFlush env message) with
    | .ok () => pure ()
    | .error err => do
      recoverFromUdpWrite env err
      writeTcpMessage env message

def handlePingTick (env : Env) : ClientM Unit := writeControlMessage env (.ping env.pingNonce)

def sendClose (env : Env) (code : CloseCode) : ClientM Unit := writeControlMessage env (.close code)

def sendCloseBestEffort (env : Env) (code : CloseCode) : ClientM Unit := do
  let _ ← timeout env.closeExpires (attempt (sendClose env code))
  pure ()

def handleTunPacket (env : Env) (packet : Bytes) : ClientM SessionControl := do
  let s ← get
  if packet.isEmpty then pure .continue
  else if s.config.maxDataLen < packet.length then pure .continue
  else
    match ← attempt (writeActiveMessage env (.data packet)) with
    | .ok () => pure .continue
    | .error err =>
      match s.activeTransport with
      | .tcp => throw err
      | .udpQsp => do
        recoverFromUdpWrite env err
        writeTcpMessage env (.data packet)
        pure .continue

def handleUdpLivenessTimeout (env : Env) : ClientM SessionControl := do
  let s ← get
  if s.activeTransport ≠ .udpQsp ∨ !s.tcpAlive then pure .continue
  else do
    requestTcpFallback env .udpLivenessTimeout
    modify ClientSession.scheduleDiscoveryRetry
    pure .continue

def handleUdpReconnectTick (env : Env) : ClientM SessionControl := do
  match (← get).udpState with
  | .needDiscovery => do
    emit (.observe .udpDiscoveryStarted)
    modify fun s => { s with discoveryTask := true }
    pure .continue
  | .pending _ _ => attemptUdpRegistration env
  | _ => pure .continue

def handleTcpClosed : ClientM SessionControl := do
  match (← get).activeTransport with
  | .udpQsp => do
    modify fun s => { s with tcpAlive := false }
    pure .continue
  | .tcp => pure (.close .tcpClosed)

def handleUdpResult (env : Env) : Except UdpQspError Packet → ClientM SessionControl
  | .ok packet => do
    match ← attempt (handleUdpMessage env packet.message) with
    | .ok control => do
      noteAuthenticatedUdpActivity env
      pure control
    | .error err => if err.isUdpPathTransportError then handleUdpEventError env err else throw err
  | .error err =>
    let err := SessionError.ofUdpQsp err
    if err.isUdpPathTransportError then handleUdpEventError env err else throw err

def handleUdpFlushReady (env : Env) : ClientM SessionControl := do
  match ← attempt (flushUdpTransport env) with
  | .ok () => pure .continue
  | .error err =>
    if err.isUdpPathTransportError then handleUdpEventError env err else pure .continue

def handleLoopEvent (env : Env) : SessionEvent → ClientM SessionControl
  | .shutdown => pure (.close .shutdown)
  | .tunFault => pure (.close .tunFault)
  | .control .stop => pure (.close .shutdown)
  | .control .networkChanged => handleNetworkChanged env
  | .tcpMessage message => handleTcpMessage env message
  | .tcpMalformed type err => rejectMalformed type err .tcp
  | .tcpUnframed err => throw (.message err)
  | .tcpClosed => handleTcpClosed
  | .tcpFailed source => throw (.io source)
  | .tunPacket none => pure (.close (.tunClosed .reader))
  | .tunPacket (some packet) => handleTunPacket env packet
  | .udpResult result => handleUdpResult env result
  | .udpMalformed type err => rejectMalformed type err .udpQsp
  | .udpFlushReady => handleUdpFlushReady env
  | .pingTick => do
    handlePingTick env
    pure .continue
  | .idleTimeout => do
    sendCloseBestEffort env .idleTimeout
    pure (.close .idleTimeout)
  | .udpLivenessTimeout => handleUdpLivenessTimeout env
  | .udpReconnectTick => handleUdpReconnectTick env
  | .registerTimeout => handleRegistrationTimeout
  | .discoveryResult ids => do
    modify fun s => { s with discoveryTask := false }
    handleDiscoveryResult ids
  | .udpUpgradeTick => handleUdpUpgradeTick env
  | .refreshTimeout => pure .continue

def handleEvent (env : Env) (event : SessionEvent) : ClientM SessionControl := do
  match (← get).refresh with
  | none => handleLoopEvent env event
  | some refresh => handleRefreshEvent env refresh event

/-! ## The session -/

/-- The event can wake the session: its timer is armed, its socket is read. -/
def ClientSession.polls (s : ClientSession) (event : SessionEvent) : Bool :=
  match s.refresh, event with
  | _, .shutdown => true
  | _, .tunFault => true
  | _, .udpResult _ => s.udpReceiveTransport.isSome
  | _, .udpMalformed _ _ => s.udpReceiveTransport.isSome
  | some _, .refreshTimeout => true
  | some _, _ => false
  | none, .control _ => true
  | none, .tcpMessage _ => s.tcpAlive
  | none, .tcpMalformed _ _ => s.tcpAlive
  | none, .tcpUnframed _ => s.tcpAlive
  | none, .tcpClosed => s.tcpAlive
  | none, .tcpFailed _ => s.tcpAlive
  | none, .tunPacket _ => true
  | none, .udpFlushReady => s.activeTransport = .udpQsp && s.udpState.asActive.isSome
  | none, .pingTick => true
  | none, .idleTimeout => true
  | none, .udpLivenessTimeout =>
    s.activeTransport = .udpQsp && s.tcpAlive && s.lastAuthenticatedUdpActivity.isSome
  | none, .udpReconnectTick => s.udpState.isWaiting && !s.discoveryTask
  | none, .registerTimeout => s.udpState.registerDeadline.isSome
  | none, .discoveryResult _ => s.discoveryTask
  | none, .udpUpgradeTick => s.udpUpgrade.timerAt.isSome
  | none, .refreshTimeout => false

structure SessionOutcome where
  exit : SessionExit
  error : Option SessionError
  deriving DecidableEq

def outcomeOf (env : Env) : Except (Stop SessionError) SessionControl → Option SessionOutcome
  | .ok .continue => none
  | .ok (.close exit) => some ⟨exit, none⟩
  | .error (.error err) => some ⟨err.exit, some err⟩
  | .error .dropped => some ⟨env.cancellation.exit, none⟩

def tellServer (env : Env) : SessionExit → ClientM Unit
  | .shutdown => sendCloseBestEffort env .normal
  | .tunClosed _ => sendCloseBestEffort env .normal
  | .tunFault => sendCloseBestEffort env .normal
  | .protocolError => sendCloseBestEffort env .protocolError
  | _ => pure ()

/-- The closing steps of `run`, after the loop has ended, and a refresh with it. -/
def closeSession (env : Env) (exit : SessionExit) : ClientM Unit := do
  modify fun s => { s with refresh := none }
  tellServer env exit

end Slt.Client
