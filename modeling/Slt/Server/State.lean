import Slt.Crypto.Session
import Slt.Lib.Handler
import Slt.Proto.Message
import Slt.Server.Routing

/-!
# The server session: state, events and effects

The session that the server runs for an authenticated client. Each event comes
with an `Env` of random numbers and results of the system calls made while it
is handled. The session works on the shared registry, which other sessions
change between its events.
-/

namespace Slt.Server

open Lib (Bytes Handler Await)
open Proto

/-! ## Errors -/

inductive UdpQspError where
  | qsp (e : Crypto.QspSessionError)
  | io (source : IoError)
  deriving DecidableEq

inductive SessionError where
  | protocolViolation
  | connection (source : IoError)
  | udpQsp (e : UdpQspError)
  | io (source : IoError)
  | frame (e : FrameError)
  | message (e : MessageError)
  | payload (e : PayloadError)
  | payloadEncode (e : PayloadError)
  deriving DecidableEq

/-- The peer caused the error, and is told so. -/
def SessionError.isPeerProtocolError : SessionError → Bool
  | .protocolViolation => true
  | .message _ => true
  | .payload _ => true
  | _ => false

inductive SessionControl where
  | continue
  | close
  deriving DecidableEq, Repr

inductive UdpFailureRecovery where
  | retryMessageOnTcp
  | signalTcpFallback
  | retireOnly
  deriving DecidableEq, Repr

/-! ## State -/

structure UdpUpgradeState where
  upgradeId : Option UInt64
  probeSeen : Bool
  readySeen : Bool
  switchToUdpSent : Bool
  staleUpgradeIds : List UInt64

def UdpUpgradeState.default : UdpUpgradeState := ⟨none, false, false, false, []⟩

/-- A UDP-QSP session, the address it sends to and its send slab: the packets
that are protected but not transmitted, by what is inside them. -/
structure UdpSession where
  params : QspSessionParams
  peer : SocketAddr
  slab : List Message

structure ServerSession where
  clientId : ClientId
  assignedIpv4 : Ipv4Addr
  sessionId : UInt64
  tx : SessionTx
  allowedCiphers : List CipherSuite
  maxDataLen : Nat
  activeTransport : ActiveTransport
  udpSession : Option UdpSession
  udpPeerPacketNumber : Option Nat
  lastAuthenticatedUdpActivity : Option Nat
  udpUpgrade : UdpUpgradeState
  tcpAlive : Bool
  /-- A frame write was dropped before it was done. -/
  tcpWriteInterrupted : Bool
  pendingTcpFallback : Option UInt64
  lastPeerFallbackId : Option UInt64
  registry : SessionRegistry

def ServerSession.new (handle : SessionHandle) (allowedCiphers : List CipherSuite)
    (maxDataLen : Nat) (registry : SessionRegistry) : ServerSession where
  clientId := handle.clientId
  assignedIpv4 := handle.assignedIpv4
  sessionId := handle.sessionId
  tx := handle.tx
  allowedCiphers := allowedCiphers
  maxDataLen := maxDataLen
  activeTransport := .tcp
  udpSession := none
  udpPeerPacketNumber := none
  lastAuthenticatedUdpActivity := none
  udpUpgrade := .default
  tcpAlive := true
  tcpWriteInterrupted := false
  pendingTcpFallback := none
  lastPeerFallbackId := none
  registry := registry

/-! ## Effects and environment -/

/-- `tcp` is a whole frame, `tcpCut` one of which `written` bytes were written.
`udp` puts a packet into the send slab, from where the UDP path may deliver or
lose it. The last four mark changes of the session's state. -/
inductive ServerEffect where
  | tcp (message : Message)
  | tcpCut (message : Message) (written : Nat)
  | udp (session : QspSessionParams) (message : Message)
  | discardPendingSend (session : QspSessionParams)
  | toTun (packet : Bytes)
  | registered (payload : RegisterCidPayload)
  | retired (session : Option QspSessionParams)
  | preferred (transport : ActiveTransport)
  | recovering (recovery : UdpFailureRecovery)
  deriving DecidableEq

inductive TunPacketSendOutcome where
  | accepted
  | dropped
  | closed
  deriving DecidableEq, Repr

inductive TunAccept where
  | done (outcome : TunPacketSendOutcome)
  | failed (source : IoError)
  | dropped
  deriving DecidableEq, Repr

/-- How a packet is queued: protecting it may fail, and the slab may have to be
flushed before the packet is appended and after it. -/
structure UdpSend where
  protect : Option Crypto.QspSessionError
  flushBefore : Option (Await IoError)
  flushAfter : Option (Await IoError)
  deriving DecidableEq

inductive SessionShutdownReason where
  | takeover
  | serverRestart
  deriving DecidableEq, Repr

def SessionShutdownReason.closeCode : SessionShutdownReason → CloseCode
  | .takeover => .normal
  | .serverRestart => .serverRestart

/-- A call of the registry that is not this session's. -/
inductive ForeignCall where
  | register (clientId : ClientId) (assignedIpv4 : Ipv4Addr) (tx : SessionTx)
  | other (caller : SessionHandle) (call : SessionCall)

def ForeignCall.apply (registry : SessionRegistry) : ForeignCall → SessionRegistry
  | .register clientId assignedIpv4 tx => (registry.registerSession clientId assignedIpv4 tx).2
  | .other caller call => call.apply registry caller

structure Env where
  now : Nat
  fallbackId : UInt64
  pingNonce : UInt64
  keysFailure : Option Crypto.QspCryptoError
  udpIoFailure : Option IoError
  /-- What others do to the registry between the two calls of a registration. -/
  foreign : List ForeignCall
  tcpWrite : Message → TcpWrite
  udpSend : Message → UdpSend
  udpFlush : Option Message → Await IoError
  tunAccept : TunAccept
  /-- The time limits of a close on TCP, on UDP and of the last flush pass. -/
  closeTcpExpires : Bool
  closeUdpExpires : Bool
  flushExpires : Bool
  /-- What the shutdown signal says when it drops the handler. -/
  shutdown : Option SessionShutdownReason

abbrev ServerM := Handler ServerSession ServerEffect SessionError

/-! ## Events -/

/-- What a datagram holds: a message, or one whose payload does not decode, or
bytes that are not a message or not a whole one. -/
inductive UdpPayload where
  | message (message : Message)
  | malformed (type : MessageType) (err : PayloadError)
  | unframed (err : MessageError)
  | incomplete
  deriving DecidableEq

/-- A datagram that opened under the session's keys: where it came from, its
packet number, the session that protected it and what is inside. -/
structure UdpClaim where
  peer : SocketAddr
  packetNumber : Nat
  sender : QspSessionParams
  payload : UdpPayload
  deriving DecidableEq

inductive SessionEvent where
  | tcpMessage (message : Message)
  | tcpMalformed (type : MessageType) (err : PayloadError)
  | tcpUnframed (err : MessageError)
  | tcpClosed
  | tcpFailed (source : IoError)
  | udp (claim : UdpClaim)
  | udpDropped
  | tunPacket (packet : Bytes)
  | udpFlush
  | pingTimer
  | udpLivenessTimer
  | idleTimer
  /-- The shutdown signal, while the session waits for work. -/
  | shutdown
  deriving DecidableEq

end Slt.Server
