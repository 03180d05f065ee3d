import Slt.Crypto.Session
import Slt.Lib.Handler
import Slt.Proto.Message

/-!
# The client session: state, events and effects

The state that the event loop of the client works on, what it is woken by and
what it does to the outside. Each event comes with an `Env`: the clock, the
random numbers drawn and the results of the system calls made while the event
is handled. Backoff delays are among the random numbers, the timers
themselves are events.
-/

namespace Slt.Client

open Lib (Bytes Handler Await)
open Proto

/-! ## Configuration -/

inductive ClientUdpQspCipher where
  | auto
  | aes128Gcm
  | chaCha20Poly1305
  deriving DecidableEq, Repr

def ClientUdpQspCipher.select : ClientUdpQspCipher → Bool → CipherSuite
  | .auto, true => .aes128Gcm
  | .auto, false => .chaCha20Poly1305
  | .chaCha20Poly1305, _ => .chaCha20Poly1305
  | .aes128Gcm, _ => .aes128Gcm

def otherExplicitPolicy : CipherSuite → ClientUdpQspCipher
  | .aes128Gcm => .chaCha20Poly1305
  | .chaCha20Poly1305 => .aes128Gcm

structure ClientConfig where
  enableUpgrade : Bool
  requireUdp : Bool
  cipher : ClientUdpQspCipher
  maxDataLen : Nat
  registerTimeout : Nat

def ClientConfig.upgradeEnabled (config : ClientConfig) : Bool :=
  config.enableUpgrade || config.requireUdp

/-! ## Errors -/

inductive UdpQspError where
  | io (source : IoError)
  | sendIo (source : IoError)
  | qsp (e : Crypto.QspSessionError)
  | frame (e : FrameError)
  | message (e : MessageError)
  | incompleteMessage
  deriving DecidableEq

def IoErrorKind.isTransient : IoErrorKind → Bool
  | .wouldBlock => true
  | .timedOut => true
  | .connectionRefused => true
  | .connectionReset => true
  | _ => false

def UdpQspError.isRecoverable : UdpQspError → Bool
  | .sendIo _ => false
  | .io source => IoErrorKind.isTransient source.kind
  | .qsp (.io source) => IoErrorKind.isTransient source.kind
  | .qsp (.crypto _) => true
  | .qsp .replay => true
  | .qsp .tooOld => true
  | .qsp .packetNumberOverflow => false
  | .frame _ => false
  | .message _ => false
  | .incompleteMessage => false

inductive SessionError where
  | protocolViolation (detail : String)
  | permissionDenied (source : IoError)
  | udpUpgradeRequired
  | connection (source : IoError)
  | io (source : IoError)
  | udpQsp (e : UdpQspError)
  | crypto
  | udpQspKeys (e : Crypto.QspCryptoError)
  | frame (e : FrameError)
  | message (e : MessageError)
  | payload (e : PayloadError)
  deriving DecidableEq

inductive TunTask where
  | reader
  | writer
  deriving DecidableEq, Repr

inductive SessionExit where
  | shutdown
  | tcpClosed
  | tunClosed (task : TunTask)
  | tunFault
  | idleTimeout
  | remoteClose (code : CloseCode)
  | protocolError
  | permissionDenied
  | connectionError
  | networkChanged
  | udpUpgradeRequired
  deriving DecidableEq, Repr

inductive SessionControl where
  | continue
  | close (exit : SessionExit)
  deriving DecidableEq, Repr

namespace SessionError

def ofValidation (err : MessageValidationError) : SessionError := .protocolViolation err.display

/-- Protocol failures are told apart from failures of the UDP path. -/
def ofUdpQsp : UdpQspError → SessionError
  | .frame source => .frame source
  | .message source => .message source
  | .incompleteMessage =>
    .protocolViolation "authenticated udp-qsp datagram contained an incomplete message"
  | transport => .udpQsp transport

def ofIo (source : IoError) (other : SessionExit) : SessionExit :=
  if source.kind = .permissionDenied then .permissionDenied else other

/-- The reconnect policy that an error stands for. -/
def exit : SessionError → SessionExit
  | .protocolViolation _ => .protocolError
  | .frame _ => .protocolError
  | .message _ => .protocolError
  | .payload _ => .protocolError
  | .crypto => .protocolError
  | .udpQspKeys _ => .protocolError
  | .permissionDenied _ => .permissionDenied
  | .udpUpgradeRequired => .udpUpgradeRequired
  | .connection source => ofIo source .connectionError
  | .io source => ofIo source .connectionError
  | .udpQsp _ => .connectionError

def isUdpQspRecoverable : SessionError → Bool
  | .udpQsp err => err.isRecoverable
  | _ => false

/-- Whether the error is about the UDP path, if it comes from there. -/
def isUdpPathTransportError : SessionError → Bool
  | .udpQsp _ => true
  | .io _ => true
  | _ => false

end SessionError

/-! ## State -/

structure QuicIds where
  dcid : Cid
  scid : Cid
  peer : SocketAddr
  deriving DecidableEq

structure PreparedUdpQspRegistration where
  payload : RegisterCidPayload
  session : Option QspSessionParams
  cipher : CipherSuite
  deriving DecidableEq

structure PendingUdpQspRegistration where
  prepared : PreparedUdpQspRegistration
  deadline : Nat
  deriving DecidableEq

inductive UdpState where
  | disabled
  | needDiscovery
  | pending (quicIds : QuicIds) (registration : Option PendingUdpQspRegistration)
  | active (transport : QspSessionParams)
  deriving DecidableEq

def UdpState.asActive : UdpState → Option QspSessionParams
  | .active transport => some transport
  | _ => none

def UdpState.isWaiting : UdpState → Bool
  | .needDiscovery => true
  | .pending _ registration => registration.isNone
  | .disabled => false
  | .active _ => false

def UdpState.registerDeadline : UdpState → Option Nat
  | .pending _ (some registration) => some registration.deadline
  | _ => none

structure Upgrading where
  upgradeId : UInt64
  deadline : Nat
  attempts : Nat
  nextProbeAt : Nat
  probeNonce : UInt64
  probeAcked : Bool
  readySent : Bool
  deriving DecidableEq

inductive UdpUpgradeState where
  | disabled
  | idle
  | upgrading (attempt : Upgrading)
  | awaitingSwitchOk (upgradeId : UInt64) (deadline : Nat)
  | tcpOnlyBlockedUdp (retryAt : Nat)
  deriving DecidableEq

def UdpUpgradeState.timerAt : UdpUpgradeState → Option Nat
  | .disabled => none
  | .idle => none
  | .upgrading attempt =>
    if attempt.probeAcked then some attempt.deadline
    else some (min attempt.nextProbeAt attempt.deadline)
  | .awaitingSwitchOk _ deadline => some deadline
  | .tcpOnlyBlockedUdp retryAt => some retryAt

/-- A refresh of the UDP path after a network change, while the event loop is in
it: the ping it waits for, and whether the socket has been replaced. -/
structure Refresh where
  nonce : UInt64
  replaced : Bool
  deriving DecidableEq

structure ClientSession where
  config : ClientConfig
  activeTransport : ActiveTransport
  lastAuthenticatedUdpActivity : Option Nat
  udpState : UdpState
  /-- Kept for receiving until the next registration completes. -/
  retainedUdpTransport : Option QspSessionParams
  udpUpgrade : UdpUpgradeState
  udpCipherPolicy : ClientUdpQspCipher
  discoveryTask : Bool
  tcpAlive : Bool
  pendingTcpFallback : Option UInt64
  lastPeerFallbackId : Option UInt64
  refresh : Option Refresh

namespace ClientSession

def new (config : ClientConfig) : ClientSession where
  config := config
  activeTransport := .tcp
  lastAuthenticatedUdpActivity := none
  udpState := if config.upgradeEnabled then .needDiscovery else .disabled
  retainedUdpTransport := none
  udpUpgrade := if config.upgradeEnabled then .idle else .disabled
  udpCipherPolicy := config.cipher
  discoveryTask := false
  tcpAlive := true
  pendingTcpFallback := none
  lastPeerFallbackId := none
  refresh := none

def udpReceiveTransport (s : ClientSession) : Option QspSessionParams :=
  s.udpState.asActive <|> s.retainedUdpTransport

end ClientSession

/-! ## Effects and environment -/

inductive TransportChangeReason where
  | udpLivenessTimeout
  | udpError
  | serverInitiated
  | upgradeCommitted
  deriving DecidableEq, Repr

/-- What the observer is told. An error stands for the text printed from it. -/
inductive ClientEventKind where
  | udpDiscoveryStarted
  | udpDiscoveryFailed (detail : String)
  | udpRegisterStarted
  | udpRegistered
  | udpRegisterFailed (detail : String)
  | udpRegisterSetupFailed (error : SessionError)
  | udpUpgradeStarted (upgradeId : UInt64)
  | udpPathValidated (upgradeId : UInt64)
  | udpSwitchCommitted (upgradeId : UInt64)
  | transportChanged (before after : ActiveTransport) (reason : TransportChangeReason)
  | networkChanged (detail : String)
  | udpPathRefreshStarted
  | udpPathRefreshSucceeded
  | udpPathRefreshFailed (error : SessionError)
  deriving DecidableEq

/-- `tcp` is a whole frame, `tcpCut` one of which `written` bytes were written.
`udp` hands a packet to the UDP path, which may lose it, also when the write or
the flush fails. `inconsistent` marks the errors that report a state of the
session that should not be. -/
inductive ClientEffect where
  | tcp (message : Message)
  | tcpCut (message : Message) (written : Nat)
  | udp (transport : QspSessionParams) (message : Message)
  | discardPendingSend (transport : QspSessionParams)
  | replaceIo (transport : QspSessionParams)
  | toTun (packet : Bytes)
  | observe (event : ClientEventKind)
  | inconsistent (detail : String)
  deriving DecidableEq

inductive TunSend where
  | accepted
  | closed
  | cancelled
  | dropped
  deriving DecidableEq, Repr

inductive Cancellation where
  | shutdown
  | tunFault
  deriving DecidableEq, Repr

def Cancellation.exit : Cancellation → SessionExit
  | .shutdown => .shutdown
  | .tunFault => .tunFault

structure RegistrationDraw where
  secretC2s : TrafficSecret
  secretS2c : TrafficSecret
  pnStartS2c : UInt64
  pnStartC2s : UInt64
  deriving DecidableEq

structure Env where
  now : Nat
  fallbackId : UInt64
  upgradeId : UInt64
  probeNonce : UInt64
  pingNonce : UInt64
  /-- The nonce of the ping on the replaced socket. -/
  replacedPingNonce : UInt64
  probeDelay : Nat
  upgradeDelay : Nat
  aesAccelerated : Bool
  /-- Drawing the secrets of a registration, deriving its keys and cloning its
  socket. -/
  registration : RegistrationDraw
  randomFailure : Bool
  keysFailure : Option Crypto.QspCryptoError
  socketFailure : Option IoError
  tcpWrite : Message → TcpWrite
  udpWrite : Message → Await Crypto.QspSessionError
  /-- After a message, or on its own. -/
  udpFlush : Option Message → Await IoError
  /-- The same on a socket that the handler has replaced. -/
  replacedWrite : Message → Await Crypto.QspSessionError
  replacedFlush : Option Message → Await IoError
  replaceIoDropped : Bool
  tunSend : TunSend
  /-- The time limit of a close passes before the close is done. -/
  closeExpires : Bool
  cancellation : Cancellation

/-- From the point on where the socket has been replaced. -/
def Env.onReplaced (env : Env) : Env :=
  { env with udpWrite := env.replacedWrite, udpFlush := env.replacedFlush }

abbrev ClientM := Handler ClientSession ClientEffect SessionError

/-! ## Events -/

/-- A packet as the receiver sees it: the session that protected it and the
message inside. -/
structure Packet where
  sender : QspSessionParams
  message : Message
  deriving DecidableEq

inductive ClientCommand where
  | stop
  | networkChanged
  deriving DecidableEq, Repr

inductive SessionEvent where
  | shutdown
  | control (command : ClientCommand)
  /-- A message popped from the stream. -/
  | tcpMessage (message : Message)
  /-- A message whose payload does not decode. -/
  | tcpMalformed (type : MessageType) (err : PayloadError)
  /-- The bytes of the stream are not a message. -/
  | tcpUnframed (err : MessageError)
  | tcpClosed
  | tcpFailed (source : IoError)
  | tunPacket (packet : Option Bytes)
  | udpResult (result : Except UdpQspError Packet)
  /-- An authentic packet with a message whose payload does not decode. -/
  | udpMalformed (type : MessageType) (err : PayloadError)
  | udpFlushReady
  | pingTick
  | idleTimeout
  | udpLivenessTimeout
  | udpReconnectTick
  | registerTimeout
  | discoveryResult (ids : Option QuicIds)
  | udpUpgradeTick
  | refreshTimeout
  | tunFault
  deriving DecidableEq

end Slt.Client
