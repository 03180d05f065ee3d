import Slt.Server.State

/-!
# Server: sends and their recovery

Writes to the stream, packets on the UDP path, and what follows a failure of
that path. A frame write that is dropped leaves its mark set, and with it no
other frame is written.
-/

namespace Slt.Server

open Lib Lib.Handler Proto

/-! ## TCP -/

def setTcpWriteInterrupted (interrupted : Bool) : ServerM Unit :=
  modify fun s => { s with tcpWriteInterrupted := interrupted }

/-- `send_tcp_message_inner`, with the clearing of the mark that follows it. -/
def writeFrame (env : Env) (message : Message) : ServerM Unit :=
  match env.tcpWrite message with
  | .done => do
    emit (.tcp message)
    setTcpWriteInterrupted false
  | .failed source written => do
    emit (.tcpCut message written)
    setTcpWriteInterrupted false
    throw (.connection source)
  | .dropped written => do
    emit (.tcpCut message written)
    drop

def sendTcpMessage (env : Env) (message : Message) : ServerM Unit := do
  if (← get).tcpWriteInterrupted then
    throw (.connection ⟨.connectionAborted, "TCP frame write was interrupted"⟩)
  else do
    setTcpWriteInterrupted true
    writeFrame env message

/-! ## The send slab -/

def ServerSession.mapUdp (s : ServerSession) (f : UdpSession → UdpSession) : ServerSession :=
  { s with udpSession := s.udpSession.map f }

def clearSendSlab (s : ServerSession) : ServerSession := s.mapUdp ({ · with slab := [] })

def appendToSlab (message : Message) (s : ServerSession) : ServerSession :=
  s.mapUdp fun session => { session with slab := session.slab ++ [message] }

/-- Transmit the slab. An empty slab is left alone. -/
def flushPending (session : UdpSession) (flush : Await IoError) : ServerM (Option IoError) :=
  if session.slab.isEmpty then pure none
  else
    match flush with
    | .done => do
      modify clearSendSlab
      pure none
    | .failed source => pure (some source)
    | .dropped => drop

/-- A flush that the sending of a packet may need. -/
def flushIfNeeded (flush : Option (Await IoError)) : ServerM (Option IoError) := do
  match (← get).udpSession, flush with
  | some session, some flush => flushPending session flush
  | _, _ => pure none

def appendPacket (env : Env) (session : UdpSession) (message : Message) :
    ServerM (Option UdpQspError) := do
  emit (.udp session.params message)
  modify (appendToSlab message)
  match ← flushIfNeeded (env.udpSend message).flushAfter with
  | some source => pure (some (.qsp (.io source)))
  | none => pure none

/-- The session encrypts the message and queues it for its peer. -/
def queueUdpMessage (env : Env) (message : Message) : ServerM (Option UdpQspError) := do
  match (← get).udpSession with
  | none => pure none
  | some session =>
    match (env.udpSend message).protect with
    | some err => pure (some (.qsp err))
    | none =>
      match ← flushIfNeeded (env.udpSend message).flushBefore with
      | some source => pure (some (.qsp (.io source)))
      | none => appendPacket env session message

def flushUdpSession (env : Env) (message : Option Message) : ServerM (Option IoError) :=
  flushIfNeeded (some (env.udpFlush message))

/-- Pending packets are dropped when UDP is left. -/
def discardPendingSend : ServerM Unit := do
  match (← get).udpSession with
  | none => pure ()
  | some session => do
    emit (.discardPendingSend session.params)
    modify clearSendSlab

/-! ## Preferring and retiring UDP -/

def setActiveTransport (transport : ActiveTransport) : ServerM Unit := do
  emit (.preferred transport)
  match (← get).activeTransport, transport with
  | .udpQsp, .tcp => do
    discardPendingSend
    modify fun s => { s with activeTransport := .tcp }
  | _, _ => modify fun s => { s with activeTransport := transport }

def resetUdpUpgradeState (s : ServerSession) : ServerSession := { s with udpUpgrade := .default }

def ServerSession.retireUdp (s : ServerSession) : ServerSession :=
  { s with registry := s.registry.removeCidsForSession s.sessionId, udpSession := none,
           udpPeerPacketNumber := none, lastAuthenticatedUdpActivity := none,
           udpUpgrade := .default }

def retireUdpTransport : ServerM Unit := do
  emit (.retired ((← get).udpSession.map (·.params)))
  modify ServerSession.retireUdp

def sendTcpFallbackRequest (env : Env) : ServerM Unit := do
  match (← get).pendingTcpFallback with
  | some _ => pure ()
  | none => do
    sendTcpMessage env (.fallbackToTcp env.fallbackId)
    modify fun s => { s with pendingTcpFallback := some env.fallbackId }

/-! ## Failures of the UDP path -/

def recoverOn (env : Env) (message : Option Message) : UdpFailureRecovery → ServerM Unit
  | .retryMessageOnTcp => do
    sendTcpFallbackRequest env
    match message with
    | none => pure ()
    | some message => sendTcpMessage env message
  | .signalTcpFallback => sendTcpFallbackRequest env
  | .retireOnly => pure ()

def applyUdpFailureRecovery (env : Env) (message : Option Message) (recovery : UdpFailureRecovery)
    (fallbackError : SessionError) : ServerM Unit := do
  if (← get).tcpAlive then do
    setActiveTransport .tcp
    emit (.recovering recovery)
    recoverOn env message recovery
  else throw fallbackError

/-- `recover_from_udp_send_error` and `recover_from_udp_flush_error`. -/
def recoverFromUdpError (env : Env) (message : Option Message) (recovery : UdpFailureRecovery)
    (err : UdpQspError) : ServerM Unit := do
  retireUdpTransport
  applyUdpFailureRecovery env message recovery (.udpQsp err)

def sendUdpMessage (env : Env) (message : Message) (recovery : UdpFailureRecovery) :
    ServerM Unit := do
  match ← queueUdpMessage env message with
  | none => pure ()
  | some err => recoverFromUdpError env (some message) recovery err

def sendUdpMessageAndFlush (env : Env) (message : Message) (recovery : UdpFailureRecovery) :
    ServerM Unit := do
  sendUdpMessage env message recovery
  match ← flushUdpSession env (some message) with
  | none => pure ()
  | some source => recoverFromUdpError env (some message) recovery (.io source)

/-! ## CLOSE -/

def sendCloseOverTcp (env : Env) (code : CloseCode) : ServerM Unit := do
  let s ← get
  if !s.tcpAlive || s.tcpWriteInterrupted then
    throw (.connection ⟨.notConnected, "TCP unavailable for CLOSE"⟩)
  else sendTcpMessage env (.close code)

def sendCloseOverUdp (env : Env) (code : CloseCode) : ServerM Unit := do
  match (← get).udpSession with
  | none => throw (.connection ⟨.notConnected, "UDP-QSP unavailable for CLOSE"⟩)
  | some _ =>
    match ← queueUdpMessage env (.close code) with
    | some err => throw (.udpQsp err)
    | none =>
      match ← flushUdpSession env (some (.close code)) with
      | some source => throw (.udpQsp (.io source))
      | none => pure ()

/-- TCP is more reliable, and is used while it is there. -/
def sendClose (env : Env) (code : CloseCode) : ServerM Unit := do
  let s ← get
  if s.tcpAlive && !s.tcpWriteInterrupted then sendCloseOverTcp env code
  else sendCloseOverUdp env code

def tryCloseOverUdp (env : Env) (code : CloseCode) : ServerM Unit := do
  match (← get).udpSession with
  | none => pure ()
  | some _ => do
    let _ ← timeout env.closeUdpExpires (attempt (sendCloseOverUdp env code))
    pure ()

/-- Unlike `sendClose` this also tries UDP when TCP fails. -/
def sendCloseBestEffort (env : Env) (code : CloseCode) : ServerM Unit := do
  let s ← get
  if s.tcpAlive && !s.tcpWriteInterrupted then
    match ← timeout env.closeTcpExpires (attempt (sendCloseOverTcp env code)) with
    | some (.ok ()) => pure ()
    | _ => tryCloseOverUdp env code
  else tryCloseOverUdp env code

def flushPendingUdpSessionBestEffort (env : Env) : ServerM Unit := do
  match (← get).udpSession with
  | none => pure ()
  | some session =>
    if session.slab.isEmpty then pure ()
    else do
      let _ ← timeout env.flushExpires (flushUdpSession env none)
      pure ()

end Slt.Server
