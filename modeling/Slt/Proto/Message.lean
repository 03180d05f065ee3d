import Slt.Types

/-!
# Protocol messages

The messages of the session protocol with their decoded payloads, and the
admissibility check that both endpoints run on every message they receive: who
may send it, in which phase, on which transport.
-/

namespace Slt.Proto

open Lib (Bytes)

/-! ## Payloads -/

inductive RegisterFailCode where
  | unknown
  | notAuthenticated
  | invalidCipher
  | invalidCid
  | invalidKeys
  deriving DecidableEq, Repr

/-- The name that `{:?}` prints. -/
def RegisterFailCode.debug : RegisterFailCode → String
  | .unknown => "Unknown"
  | .notAuthenticated => "NotAuthenticated"
  | .invalidCipher => "InvalidCipher"
  | .invalidCid => "InvalidCid"
  | .invalidKeys => "InvalidKeys"

inductive CloseCode where
  | normal
  | authTimeout
  | idleTimeout
  | protocolError
  | serverRestart
  deriving DecidableEq, Repr

/-- `REGISTER_CID`, in the server's terms: `secretTx` and `pnStart` are those of
the packets that the server sends. -/
structure RegisterCidPayload where
  clientToServerCid : Cid
  serverToClientCid : Cid
  cipher : CipherSuite
  secretTx : TrafficSecret
  secretRx : TrafficSecret
  pnStart : UInt64
  pnStartRx : UInt64
  keyPhase : Bool
  deriving DecidableEq

inductive PayloadError where
  | lengthTooShort (min actual : Nat)
  | lengthMismatch (expected actual : Nat)
  | invalidClientToServerCidLen (len : Nat)
  | invalidServerToClientCidLen (len : Nat)
  | invalidCipher (code : UInt8)
  | invalidKeyPhase (phase : UInt8)
  | invalidAuthFailCode (code : UInt8)
  | invalidRegisterFailCode (code : UInt8)
  | invalidCloseCode (code : UInt8)
  deriving DecidableEq, Repr

def RegisterCidPayload.encodable (payload : RegisterCidPayload) : Except PayloadError Unit :=
  if payload.clientToServerCid.len = maxDcidLen then .ok ()
  else .error (.invalidClientToServerCidLen payload.clientToServerCid.len)

inductive FrameError where
  | unknownType (type : UInt8)
  | lengthTooLarge (len max : Nat)
  | lengthOverflow (len : Nat)
  deriving DecidableEq, Repr

inductive MessageError where
  | frame (e : FrameError)
  | dataTooLarge (len max : Nat)
  deriving DecidableEq, Repr

/-! ## Messages -/

inductive MessageType where
  | auth
  | authOk
  | authFail
  | registerCid
  | registerOk
  | registerFail
  | ping
  | pong
  | close
  | data
  | upgradeProbe
  | upgradeProbeAck
  | udpReady
  | switchToUdp
  | switchAck
  | fallbackToTcp
  | fallbackOk
  | switchOk
  deriving DecidableEq, Repr

/-- The name that `{:?}` prints. -/
def MessageType.debug : MessageType → String
  | .auth => "Auth"
  | .authOk => "AuthOk"
  | .authFail => "AuthFail"
  | .registerCid => "RegisterCid"
  | .registerOk => "RegisterOk"
  | .registerFail => "RegisterFail"
  | .ping => "Ping"
  | .pong => "Pong"
  | .close => "Close"
  | .data => "Data"
  | .upgradeProbe => "UpgradeProbe"
  | .upgradeProbeAck => "UpgradeProbeAck"
  | .udpReady => "UdpReady"
  | .switchToUdp => "SwitchToUdp"
  | .switchAck => "SwitchAck"
  | .fallbackToTcp => "FallbackToTcp"
  | .fallbackOk => "FallbackOk"
  | .switchOk => "SwitchOk"

inductive Message where
  | auth (payload : Bytes)
  | authOk (payload : Bytes)
  | authFail (payload : Bytes)
  | registerCid (payload : RegisterCidPayload)
  | registerOk (clientToServerCid : Cid)
  | registerFail (code : RegisterFailCode)
  | ping (nonce : UInt64)
  | pong (nonce : UInt64)
  | close (code : CloseCode)
  | data (packet : Bytes)
  | upgradeProbe (upgradeId nonce : UInt64)
  | upgradeProbeAck (upgradeId nonce : UInt64)
  | udpReady (upgradeId : UInt64)
  | switchToUdp (upgradeId : UInt64)
  | switchAck (upgradeId : UInt64)
  | fallbackToTcp (fallbackId : UInt64)
  | fallbackOk (fallbackId : UInt64)
  | switchOk (upgradeId : UInt64)
  deriving DecidableEq

def Message.ty : Message → MessageType
  | .auth _ => .auth
  | .authOk _ => .authOk
  | .authFail _ => .authFail
  | .registerCid _ => .registerCid
  | .registerOk _ => .registerOk
  | .registerFail _ => .registerFail
  | .ping _ => .ping
  | .pong _ => .pong
  | .close _ => .close
  | .data _ => .data
  | .upgradeProbe _ _ => .upgradeProbe
  | .upgradeProbeAck _ _ => .upgradeProbeAck
  | .udpReady _ => .udpReady
  | .switchToUdp _ => .switchToUdp
  | .switchAck _ => .switchAck
  | .fallbackToTcp _ => .fallbackToTcp
  | .fallbackOk _ => .fallbackOk
  | .switchOk _ => .switchOk

/-! ## Admissibility -/

inductive MessageSender where
  | client
  | server
  deriving DecidableEq, Repr

inductive ProtocolPhase where
  | authentication
  | established
  deriving DecidableEq, Repr

inductive MessageTransport where
  | tcp
  | udpQsp
  deriving DecidableEq, Repr

structure MessageContext where
  sender : MessageSender
  phase : ProtocolPhase
  transport : MessageTransport

/-- The payload check is part of decoding here, so that `InvalidPayload` does
not occur. -/
inductive MessageValidationError where
  | invalidDirection (type : MessageType) (sender : MessageSender)
  | invalidPhase (type : MessageType) (phase : ProtocolPhase)
  | invalidTransport (type : MessageType) (transport : MessageTransport)
  deriving DecidableEq, Repr

def MessageValidationError.display : MessageValidationError → String
  | .invalidDirection type sender =>
    type.debug ++ " cannot be sent by " ++
      match sender with
      | .client => "Client"
      | .server => "Server"
  | .invalidPhase type phase =>
    type.debug ++ " is not valid during " ++
      match phase with
      | .authentication => "Authentication"
      | .established => "Established"
  | .invalidTransport type transport =>
    type.debug ++ " is not valid on " ++
      match transport with
      | .tcp => "Tcp"
      | .udpQsp => "UdpQsp"

def isValidDirection (type : MessageType) : MessageSender → Bool
  | .client =>
    type ∈ [.auth, .registerCid, .ping, .pong, .close, .data, .upgradeProbe, .udpReady, .switchAck,
      .fallbackToTcp, .fallbackOk]
  | .server =>
    type ∈ [.authOk, .authFail, .registerOk, .registerFail, .ping, .pong, .close, .data,
      .upgradeProbeAck, .switchToUdp, .fallbackToTcp, .fallbackOk, .switchOk]

def isValidPhase (type : MessageType) : ProtocolPhase → Bool
  | .authentication => type ∈ [.auth, .authOk, .authFail, .ping, .pong, .close]
  | .established => type ∉ [.auth, .authOk, .authFail]

def isValidTransport (type : MessageType) : MessageTransport → Bool
  | .tcp => type ∉ [.upgradeProbe, .upgradeProbeAck]
  | .udpQsp => type ∈ [.ping, .pong, .close, .data, .upgradeProbe, .upgradeProbeAck]

/-- Direction, phase and transport are checked in this order. -/
def validateMessageType (type : MessageType) (context : MessageContext) :
    Except MessageValidationError Unit :=
  if !isValidDirection type context.sender then .error (.invalidDirection type context.sender)
  else if !isValidPhase type context.phase then .error (.invalidPhase type context.phase)
  else if !isValidTransport type context.transport then
    .error (.invalidTransport type context.transport)
  else .ok ()

/-! ## Parameters of a UDP-QSP session -/

structure QspSessionParams where
  scid : Cid
  dcid : Cid
  cipher : CipherSuite
  secretTx : TrafficSecret
  secretRx : TrafficSecret
  sendPn : UInt64
  recvExpectedPn : UInt64
  keyPhase : Bool
  deriving DecidableEq

def RegisterCidPayload.serverSession (payload : RegisterCidPayload) : QspSessionParams where
  scid := payload.clientToServerCid
  dcid := payload.serverToClientCid
  cipher := payload.cipher
  secretTx := payload.secretTx
  secretRx := payload.secretRx
  sendPn := payload.pnStart
  recvExpectedPn := payload.pnStartRx
  keyPhase := payload.keyPhase

/-- The session that the client makes for a registration: the payload with its
directions reversed. -/
def RegisterCidPayload.clientSession (payload : RegisterCidPayload) : QspSessionParams where
  scid := payload.serverToClientCid
  dcid := payload.clientToServerCid
  cipher := payload.cipher
  secretTx := payload.secretRx
  secretRx := payload.secretTx
  sendPn := payload.pnStartRx
  recvExpectedPn := payload.pnStart
  keyPhase := payload.keyPhase

namespace QspSessionParams

def ofServer (params : QspSessionParams) : RegisterCidPayload where
  clientToServerCid := params.scid
  serverToClientCid := params.dcid
  cipher := params.cipher
  secretTx := params.secretTx
  secretRx := params.secretRx
  pnStart := params.sendPn
  pnStartRx := params.recvExpectedPn
  keyPhase := params.keyPhase

def ofClient (params : QspSessionParams) : RegisterCidPayload where
  clientToServerCid := params.dcid
  serverToClientCid := params.scid
  cipher := params.cipher
  secretTx := params.secretRx
  secretRx := params.secretTx
  pnStart := params.recvExpectedPn
  pnStartRx := params.sendPn
  keyPhase := params.keyPhase

@[simp] theorem ofServer_serverSession (payload : RegisterCidPayload) :
    payload.serverSession.ofServer = payload := rfl

@[simp] theorem ofClient_clientSession (payload : RegisterCidPayload) :
    payload.clientSession.ofClient = payload := rfl

@[simp] theorem serverSession_ofServer (params : QspSessionParams) :
    params.ofServer.serverSession = params := rfl

@[simp] theorem clientSession_ofClient (params : QspSessionParams) :
    params.ofClient.clientSession = params := rfl

/-- Packets of `sender` open under the keys and connection id of `receiver`. -/
def Opens (receiver sender : QspSessionParams) : Prop :=
  receiver.secretRx = sender.secretTx ∧ receiver.cipher = sender.cipher ∧
    receiver.scid = sender.dcid

instance (receiver sender : QspSessionParams) : Decidable (Opens receiver sender) :=
  inferInstanceAs (Decidable (_ ∧ _ ∧ _))

structure Matches (client server : QspSessionParams) : Prop where
  clientSecret : client.secretTx = server.secretRx
  serverSecret : server.secretTx = client.secretRx
  clientStart : client.sendPn = server.recvExpectedPn
  serverStart : server.sendPn = client.recvExpectedPn
  keyPhase : client.keyPhase = server.keyPhase
  clientCid : client.dcid = server.scid
  serverCid : server.dcid = client.scid
  cipher : client.cipher = server.cipher

theorem matches_of_registration (payload : RegisterCidPayload) :
    payload.clientSession.Matches payload.serverSession :=
  ⟨rfl, rfl, rfl, rfl, rfl, rfl, rfl, rfl⟩

end QspSessionParams

end Slt.Proto
