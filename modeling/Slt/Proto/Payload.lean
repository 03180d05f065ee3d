import Slt.Proto.Frame

/-!
# Payloads

The decoders of the payloads. Most payloads are one number, two numbers or one
code; AUTH and REGISTER_CID have several fields. A frame becomes a message when
its payload decodes.
-/

namespace Slt.Proto

open Lib

/-! ## Codes -/

inductive AuthFailCode where
  | unknown
  | unknownClient
  | disabled
  | badSignature
  | ipMismatch
  | challengeInvalid
  | mtuMismatch
  deriving DecidableEq, Repr

def AuthFailCode.tryFrom : UInt8 → Option AuthFailCode
  | 0x00 => some .unknown
  | 0x01 => some .unknownClient
  | 0x02 => some .disabled
  | 0x03 => some .badSignature
  | 0x04 => some .ipMismatch
  | 0x05 => some .challengeInvalid
  | 0x06 => some .mtuMismatch
  | _ => none

def AuthFailCode.toByte : AuthFailCode → UInt8
  | .unknown => 0x00
  | .unknownClient => 0x01
  | .disabled => 0x02
  | .badSignature => 0x03
  | .ipMismatch => 0x04
  | .challengeInvalid => 0x05
  | .mtuMismatch => 0x06

def RegisterFailCode.tryFrom : UInt8 → Option RegisterFailCode
  | 0x00 => some .unknown
  | 0x01 => some .notAuthenticated
  | 0x02 => some .invalidCipher
  | 0x03 => some .invalidCid
  | 0x04 => some .invalidKeys
  | _ => none

def CloseCode.tryFrom : UInt8 → Option CloseCode
  | 0x00 => some .normal
  | 0x01 => some .authTimeout
  | 0x02 => some .idleTimeout
  | 0x03 => some .protocolError
  | 0x04 => some .serverRestart
  | _ => none

def cipherTryFrom : UInt8 → Option CipherSuite
  | 0x01 => some .aes128Gcm
  | 0x02 => some .chaCha20Poly1305
  | _ => none

/-! ## Payloads of one kind of field -/

def decodeU64 (payload : Bytes) : Except PayloadError UInt64 :=
  if payload.length ≠ 8 then .error (.lengthMismatch 8 payload.length)
  else .ok (UInt64.ofNat (ofBe payload))

def decodeU64Pair (payload : Bytes) : Except PayloadError (UInt64 × UInt64) :=
  if payload.length ≠ 16 then .error (.lengthMismatch 16 payload.length)
  else .ok (UInt64.ofNat (ofBe (payload.take 8)), UInt64.ofNat (ofBe (payload.drop 8)))

def decodeCode {α : Type} (tryFrom : UInt8 → Option α) (invalid : UInt8 → PayloadError)
    (payload : Bytes) : Except PayloadError α :=
  if payload.length ≠ 1 then .error (.lengthMismatch 1 payload.length)
  else
    match tryFrom (payload.getD 0 0) with
    | none => .error (invalid (payload.getD 0 0))
    | some code => .ok code

def PingPayload.decode : Bytes → Except PayloadError UInt64 := decodeU64
def PongPayload.decode : Bytes → Except PayloadError UInt64 := decodeU64
def FallbackToTcpPayload.decode : Bytes → Except PayloadError UInt64 := decodeU64
def FallbackOkPayload.decode : Bytes → Except PayloadError UInt64 := decodeU64
def UdpReadyPayload.decode : Bytes → Except PayloadError UInt64 := decodeU64
def SwitchToUdpPayload.decode : Bytes → Except PayloadError UInt64 := decodeU64
def SwitchAckPayload.decode : Bytes → Except PayloadError UInt64 := decodeU64
def SwitchOkPayload.decode : Bytes → Except PayloadError UInt64 := decodeU64

def UpgradeProbePayload.decode : Bytes → Except PayloadError (UInt64 × UInt64) := decodeU64Pair
def UpgradeProbeAckPayload.decode : Bytes → Except PayloadError (UInt64 × UInt64) := decodeU64Pair

def AuthFailPayload.decode : Bytes → Except PayloadError AuthFailCode :=
  decodeCode AuthFailCode.tryFrom .invalidAuthFailCode

def RegisterFailPayload.decode : Bytes → Except PayloadError RegisterFailCode :=
  decodeCode RegisterFailCode.tryFrom .invalidRegisterFailCode

def ClosePayload.decode : Bytes → Except PayloadError CloseCode :=
  decodeCode CloseCode.tryFrom .invalidCloseCode

def AuthOkPayload.decode (payload : Bytes) : Except PayloadError Unit :=
  if !payload.isEmpty then .error (.lengthMismatch 0 payload.length) else .ok ()

/-! ## AUTH -/

def authChallengeLen : Nat := 32
def authSignatureLen : Nat := 64
def authPayloadLen : Nat := 16 + 4 + 2 + authChallengeLen + authSignatureLen

structure AuthPayload where
  clientId : FixedBytes 16
  assignedIpv4 : FixedBytes 4
  tunMtu : UInt16
  challenge : FixedBytes authChallengeLen
  signature : FixedBytes authSignatureLen
  deriving DecidableEq

def field (payload : Bytes) (offset n : Nat) (h : offset + n ≤ payload.length) : FixedBytes n :=
  ⟨(payload.drop offset).take n, by
    rw [List.length_take_of_le]
    rw [List.length_drop]
    omega⟩

def AuthPayload.decode (payload : Bytes) : Except PayloadError AuthPayload :=
  if h : payload.length ≠ authPayloadLen then
    .error (.lengthMismatch authPayloadLen payload.length)
  else
    have hlen : payload.length = 118 := Decidable.not_not.mp h
    .ok {
      clientId := field payload 0 16 (by omega)
      assignedIpv4 := field payload 16 4 (by omega)
      tunMtu := UInt16.ofNat (ofBe ((payload.drop 20).take 2))
      challenge := field payload 22 authChallengeLen (by unfold authChallengeLen; omega)
      signature :=
        field payload (22 + authChallengeLen) authSignatureLen (by
          unfold authChallengeLen authSignatureLen
          omega) }

/-! ## Registration -/

def encodedLenFor (c2sCidLen s2cCidLen : Nat) : Nat :=
  1 + c2sCidLen + 1 + s2cCidLen + 1 + udpQspTrafficSecretLen * 2 + 8 + 8 + 1

def decodeKeyPhase : UInt8 → Except PayloadError Bool
  | 0 => .ok false
  | 1 => .ok true
  | other => .error (.invalidKeyPhase other)

def RegisterCidPayload.decodeKeys (clientToServerCid serverToClientCid : Cid) (cipher : CipherSuite)
    (payload : Bytes) (offset : Nat)
    (h : offset + udpQspTrafficSecretLen * 2 + 17 ≤ payload.length) :
    Except PayloadError RegisterCidPayload :=
  let secretTx := field payload offset udpQspTrafficSecretLen (by omega)
  let secretRx := field payload (offset + udpQspTrafficSecretLen) udpQspTrafficSecretLen (by omega)
  let offset := offset + udpQspTrafficSecretLen * 2
  let pnStart := UInt64.ofNat (ofBe ((payload.drop offset).take 8))
  let pnStartRx := UInt64.ofNat (ofBe ((payload.drop (offset + 8)).take 8))
  (decodeKeyPhase (payload.getD (offset + 16) 0)).map fun keyPhase =>
    ⟨clientToServerCid, serverToClientCid, cipher, secretTx, secretRx, pnStart, pnStartRx,
      keyPhase⟩

/-- The fields after the length of the second connection id. -/
def RegisterCidPayload.decodeFrom (payload : Bytes) (s2cCidLen : Nat) :
    Except PayloadError RegisterCidPayload :=
  let cipherOffset := 1 + maxDcidLen + 1 + s2cCidLen
  if maxDcidLen < s2cCidLen then .error (.invalidServerToClientCidLen s2cCidLen)
  else if payload.length < cipherOffset + 1 then
    .error (.lengthTooShort (cipherOffset + 1) payload.length)
  else
    match cipherTryFrom (payload.getD cipherOffset 0) with
    | none => .error (.invalidCipher (payload.getD cipherOffset 0))
    | some cipher =>
      if h : payload.length ≠ encodedLenFor maxDcidLen s2cCidLen then
        .error (.lengthMismatch (encodedLenFor maxDcidLen s2cCidLen) payload.length)
      else
        match Cid.new ((payload.drop 1).take maxDcidLen),
          Cid.new ((payload.drop (1 + maxDcidLen + 1)).take s2cCidLen) with
        | .error _, _ => .error (.invalidClientToServerCidLen maxDcidLen)
        | .ok _, .error _ => .error (.invalidServerToClientCidLen s2cCidLen)
        | .ok clientToServerCid, .ok serverToClientCid =>
          decodeKeys clientToServerCid serverToClientCid cipher payload (cipherOffset + 1) (by
            have hlen := Decidable.not_not.mp h
            unfold encodedLenFor at hlen
            dsimp only [cipherOffset]
            omega)

def RegisterCidPayload.decode (payload : Bytes) : Except PayloadError RegisterCidPayload :=
  if payload.isEmpty then .error (.lengthTooShort 1 payload.length)
  else if (payload.getD 0 0).toNat ≠ maxDcidLen then
    .error (.invalidClientToServerCidLen (payload.getD 0 0).toNat)
  else if payload.length < 1 + maxDcidLen + 1 then
    .error (.lengthTooShort (1 + maxDcidLen + 1) payload.length)
  else decodeFrom payload (payload.getD (1 + maxDcidLen) 0).toNat

def RegisterOkPayload.decode (payload : Bytes) : Except PayloadError Cid :=
  if payload.isEmpty then .error (.lengthTooShort 1 payload.length)
  else
    let cidLen := (payload.getD 0 0).toNat
    if cidLen ≠ maxDcidLen then .error (.invalidClientToServerCidLen cidLen)
    else if payload.length ≠ 1 + cidLen then .error (.lengthMismatch (1 + cidLen) payload.length)
    else
      match Cid.new ((payload.drop 1).take cidLen) with
      | .error _ => .error (.invalidClientToServerCidLen cidLen)
      | .ok cid => .ok cid

/-! ## Messages -/

/-- The message of a frame. The authentication messages keep their payloads,
which their handlers decode again. -/
def Frame.decode (frame : Frame) : Except PayloadError Message :=
  match frame.ty with
  | .auth => (AuthPayload.decode frame.payload).map fun _ => .auth frame.payload
  | .authOk => (AuthOkPayload.decode frame.payload).map fun _ => .authOk frame.payload
  | .authFail => (AuthFailPayload.decode frame.payload).map fun _ => .authFail frame.payload
  | .registerCid => (RegisterCidPayload.decode frame.payload).map .registerCid
  | .registerOk => (RegisterOkPayload.decode frame.payload).map .registerOk
  | .registerFail => (RegisterFailPayload.decode frame.payload).map .registerFail
  | .ping => (PingPayload.decode frame.payload).map .ping
  | .pong => (PongPayload.decode frame.payload).map .pong
  | .close => (ClosePayload.decode frame.payload).map .close
  | .data => .ok (.data frame.payload)
  | .upgradeProbe =>
    (UpgradeProbePayload.decode frame.payload).map fun probe => .upgradeProbe probe.1 probe.2
  | .upgradeProbeAck =>
    (UpgradeProbeAckPayload.decode frame.payload).map fun ack => .upgradeProbeAck ack.1 ack.2
  | .udpReady => (UdpReadyPayload.decode frame.payload).map .udpReady
  | .switchToUdp => (SwitchToUdpPayload.decode frame.payload).map .switchToUdp
  | .switchAck => (SwitchAckPayload.decode frame.payload).map .switchAck
  | .fallbackToTcp => (FallbackToTcpPayload.decode frame.payload).map .fallbackToTcp
  | .fallbackOk => (FallbackOkPayload.decode frame.payload).map .fallbackOk
  | .switchOk => (SwitchOkPayload.decode frame.payload).map .switchOk

theorem map_eq_ok {α β : Type} {x : Except PayloadError α} {f : α → β} {b : β}
    (h : x.map f = .ok b) : ∃ a, x = .ok a ∧ b = f a := by
  cases x with
  | error e => cases h
  | ok a =>
    cases h
    exact ⟨a, rfl, rfl⟩

theorem Frame.ty_of_decode {frame : Frame} {message : Message} (h : frame.decode = .ok message) :
    message.ty = frame.ty := by
  obtain ⟨ty, payload⟩ := frame
  cases ty with
  | data =>
    cases h
    rfl
  | _ =>
    obtain ⟨_, -, rfl⟩ := map_eq_ok h
    rfl

theorem Frame.eq_of_decode_auth {frame : Frame} {payload : Bytes}
    (h : frame.decode = .ok (.auth payload)) : frame.ty = .auth ∧ payload = frame.payload := by
  have hty := Frame.ty_of_decode h
  obtain ⟨ty, bytes⟩ := frame
  cases (hty : MessageType.auth = ty)
  obtain ⟨_, -, heq⟩ := map_eq_ok h
  cases heq
  exact ⟨rfl, rfl⟩

theorem Frame.eq_of_decode_data {frame : Frame} {packet : Bytes}
    (h : frame.decode = .ok (.data packet)) : frame = ⟨.data, packet⟩ := by
  have hty := Frame.ty_of_decode h
  obtain ⟨ty, payload⟩ := frame
  cases (hty : MessageType.data = ty)
  cases h
  rfl

end Slt.Proto
