import Slt.Proto.Payload

/-!
# The encoders of the payloads

A payload is encoded by appending its fields to a buffer. Each decoder accepts
exactly the encodings: what is encoded decodes to the same value, and there is no
other string that does. Every control payload fits into a frame that the limits of
any MTU let through.
-/

namespace Slt.Proto

open Lib

/-! ## Codes -/

def RegisterFailCode.toByte : RegisterFailCode → UInt8
  | .unknown => 0x00
  | .notAuthenticated => 0x01
  | .invalidCipher => 0x02
  | .invalidCid => 0x03
  | .invalidKeys => 0x04

def CloseCode.toByte : CloseCode → UInt8
  | .normal => 0x00
  | .authTimeout => 0x01
  | .idleTimeout => 0x02
  | .protocolError => 0x03
  | .serverRestart => 0x04

def cipherToByte : CipherSuite → UInt8
  | .aes128Gcm => 0x01
  | .chaCha20Poly1305 => 0x02

/-- The bytes of the codes are those that `tryFrom` reads. -/
def Codes {α : Type} (tryFrom : UInt8 → Option α) (toByte : α → UInt8) : Prop :=
  ∀ b code, tryFrom b = some code ↔ toByte code = b

theorem codes_of {α : Type} {tryFrom : UInt8 → Option α} {toByte : α → UInt8}
    (hwrite : ∀ code, tryFrom (toByte code) = some code)
    (hread : ∀ b code, tryFrom b = some code → toByte code = b) : Codes tryFrom toByte := by
  intro b code
  refine ⟨hread b code, ?_⟩
  rintro rfl
  exact hwrite code

theorem codes_authFailCode : Codes AuthFailCode.tryFrom AuthFailCode.toByte := by
  refine codes_of (fun code => by cases code <;> rfl) fun b code h => ?_
  unfold AuthFailCode.tryFrom at h
  split at h <;> cases h <;> rfl

theorem codes_registerFailCode : Codes RegisterFailCode.tryFrom RegisterFailCode.toByte := by
  refine codes_of (fun code => by cases code <;> rfl) fun b code h => ?_
  unfold RegisterFailCode.tryFrom at h
  split at h <;> cases h <;> rfl

theorem codes_closeCode : Codes CloseCode.tryFrom CloseCode.toByte := by
  refine codes_of (fun code => by cases code <;> rfl) fun b code h => ?_
  unfold CloseCode.tryFrom at h
  split at h <;> cases h <;> rfl

theorem codes_cipher : Codes cipherTryFrom cipherToByte := by
  refine codes_of (fun code => by cases code <;> rfl) fun b code h => ?_
  unfold cipherTryFrom at h
  split at h <;> cases h <;> rfl

/-! ## Payloads of one kind of field -/

def encodeU64 (n : UInt64) (out : Bytes) : Bytes := out ++ beBytes 8 n.toNat

def encodeU64Pair (pair : UInt64 × UInt64) (out : Bytes) : Bytes :=
  encodeU64 pair.2 (encodeU64 pair.1 out)

def encodeCode {α : Type} (toByte : α → UInt8) (code : α) (out : Bytes) : Bytes :=
  out ++ [toByte code]

@[simp] theorem length_encodeU64 (n : UInt64) (out : Bytes) :
    (encodeU64 n out).length = out.length + 8 := by
  simp [encodeU64]

@[simp] theorem length_encodeU64Pair (pair : UInt64 × UInt64) (out : Bytes) :
    (encodeU64Pair pair out).length = out.length + 16 := by
  simp [encodeU64Pair]

@[simp] theorem length_encodeCode {α : Type} (toByte : α → UInt8) (code : α) (out : Bytes) :
    (encodeCode toByte code out).length = out.length + 1 := by
  simp [encodeCode]

def PingPayload.encode : UInt64 → Bytes → Bytes := encodeU64
def PongPayload.encode : UInt64 → Bytes → Bytes := encodeU64
def FallbackToTcpPayload.encode : UInt64 → Bytes → Bytes := encodeU64
def FallbackOkPayload.encode : UInt64 → Bytes → Bytes := encodeU64
def UdpReadyPayload.encode : UInt64 → Bytes → Bytes := encodeU64
def SwitchToUdpPayload.encode : UInt64 → Bytes → Bytes := encodeU64
def SwitchAckPayload.encode : UInt64 → Bytes → Bytes := encodeU64
def SwitchOkPayload.encode : UInt64 → Bytes → Bytes := encodeU64

def UpgradeProbePayload.encode : UInt64 × UInt64 → Bytes → Bytes := encodeU64Pair
def UpgradeProbeAckPayload.encode : UInt64 × UInt64 → Bytes → Bytes := encodeU64Pair

def AuthFailPayload.encode : AuthFailCode → Bytes → Bytes := encodeCode AuthFailCode.toByte
def RegisterFailPayload.encode : RegisterFailCode → Bytes → Bytes :=
  encodeCode RegisterFailCode.toByte
def ClosePayload.encode : CloseCode → Bytes → Bytes := encodeCode CloseCode.toByte

def AuthOkPayload.encode (out : Bytes) : Bytes := out

def Exact {α : Type} (encode : α → Bytes → Bytes) (decode : Bytes → Except PayloadError α) : Prop :=
  ∀ bytes a, decode bytes = .ok a ↔ encode a [] = bytes

theorem exact_u64 : Exact encodeU64 decodeU64 := by
  intro bytes n
  unfold decodeU64 encodeU64
  split
  · rename_i hlen
    simp only [reduceCtorEq, List.nil_append, false_iff]
    rintro rfl
    simp at hlen
  · rename_i hlen
    rw [Except.ok.injEq, u64_ofBe_iff (not_not.mp hlen), List.nil_append]

theorem exact_u64Pair : Exact encodeU64Pair decodeU64Pair := by
  rintro bytes ⟨a, b⟩
  have hpair : encodeU64Pair (a, b) [] = beBytes 8 a.toNat ++ beBytes 8 b.toNat := rfl
  unfold decodeU64Pair
  rw [hpair]
  split
  · rename_i hlen
    simp only [reduceCtorEq, false_iff]
    rintro rfl
    simp at hlen
  · rename_i hlen
    have hlen := not_not.mp hlen
    rw [Except.ok.injEq, Prod.mk.injEq, u64_ofBe_iff (by simp [hlen]), u64_ofBe_iff (by simp [hlen])]
    constructor
    · rintro ⟨hfirst, hsecond⟩
      rw [hfirst, hsecond, List.take_append_drop]
    · rintro rfl
      simp

theorem exact_code {α : Type} {tryFrom : UInt8 → Option α} {toByte : α → UInt8}
    (h : Codes tryFrom toByte) (invalid : UInt8 → PayloadError) :
    Exact (encodeCode toByte) (decodeCode tryFrom invalid) := by
  intro bytes code
  unfold decodeCode encodeCode
  rw [List.nil_append]
  match bytes with
  | [] => simp
  | [b] =>
    have hcode := h b code
    simp only [List.length_singleton, ne_eq, not_true, if_false, List.getD_cons_zero,
      List.singleton_inj]
    rw [← hcode]
    cases tryFrom b with
    | none => simp
    | some other => simp
  | _ :: _ :: _ => simp

theorem exact_authOk : Exact (fun () => AuthOkPayload.encode) AuthOkPayload.decode := by
  rintro bytes ⟨⟩
  cases bytes with
  | nil => simp [AuthOkPayload.decode, AuthOkPayload.encode]
  | cons b bytes => simp [AuthOkPayload.decode, AuthOkPayload.encode]

/-! ## AUTH -/

def AuthPayload.encode (self : AuthPayload) (out : Bytes) : Bytes :=
  out ++ self.clientId.val ++ self.assignedIpv4.val ++ beBytes 2 self.tunMtu.toNat ++
    self.challenge.val ++ self.signature.val

def AuthPayload.fields (self : AuthPayload) : List Bytes :=
  [self.clientId.val, self.assignedIpv4.val, beBytes 2 self.tunMtu.toNat, self.challenge.val,
    self.signature.val]

theorem AuthPayload.encode_eq (self : AuthPayload) : self.encode [] = self.fields.flatten := by
  simp [encode, fields]

theorem exact_auth : Exact AuthPayload.encode AuthPayload.decode := by
  rintro bytes payload
  rw [AuthPayload.encode_eq, eq_comm (a := payload.fields.flatten), ← laidOut_zero_iff]
  obtain ⟨clientId, ipv4, tunMtu, challenge, signature⟩ := payload
  simp only [LaidOut, AuthPayload.fields, length_beBytes, clientId.property, ipv4.property,
    challenge.property, signature.property]
  unfold AuthPayload.decode
  split
  · rename_i hlen
    simp only [reduceCtorEq, false_iff]
    rintro ⟨-, -, -, -, -, hlen'⟩
    exact hlen hlen'
  · rename_i hlen
    have hlen : bytes.length = 118 := not_not.mp hlen
    have hmtu : ((bytes.drop 20).take 2).length = 2 := by simp [hlen]
    rw [Except.ok.injEq, AuthPayload.mk.injEq, u16_ofBe_iff hmtu, eq_comm (a := beBytes 2 _)]
    simp only [Subtype.ext_iff]
    constructor
    · rintro ⟨h₁, h₂, h₃, h₄, h₅⟩
      exact ⟨h₁, h₂, h₃, h₄, h₅, hlen⟩
    · rintro ⟨h₁, h₂, h₃, h₄, h₅, -⟩
      exact ⟨h₁, h₂, h₃, h₄, h₅⟩

/-! ## Registration -/

def RegisterOkPayload.encode (clientToServerCid : Cid) (out : Bytes) :
    Except PayloadError Bytes :=
  if clientToServerCid.len ≠ maxDcidLen then
    .error (.invalidClientToServerCidLen clientToServerCid.len)
  else .ok (out ++ [UInt8.ofNat clientToServerCid.len] ++ clientToServerCid.bytes)

def RegisterCidPayload.encode (self : RegisterCidPayload) (out : Bytes) :
    Except PayloadError Bytes :=
  if self.clientToServerCid.len ≠ maxDcidLen then
    .error (.invalidClientToServerCidLen self.clientToServerCid.len)
  else
    .ok (out ++ [UInt8.ofNat self.clientToServerCid.len] ++ self.clientToServerCid.bytes ++
      [UInt8.ofNat self.serverToClientCid.len] ++ self.serverToClientCid.bytes ++
      [cipherToByte self.cipher] ++ self.secretTx.val ++ self.secretRx.val ++
      beBytes 8 self.pnStart.toNat ++ beBytes 8 self.pnStartRx.toNat ++
      [if self.keyPhase then 1 else 0])

def RegisterCidPayload.encodedLen (self : RegisterCidPayload) : Nat :=
  encodedLenFor self.clientToServerCid.len self.serverToClientCid.len

theorem Cid.new_ok {bytes : Bytes} (h : bytes.length ≤ maxDcidLen) :
    Cid.new bytes = .ok ⟨bytes, h⟩ :=
  dif_pos h

theorem toNat_eq_iff {b : UInt8} {n : Nat} (h : n < 256) : b.toNat = n ↔ b = UInt8.ofNat n := by
  constructor
  · rintro rfl
    exact (UInt8.ofNat_toNat).symm
  · rintro rfl
    exact UInt8.toNat_ofNat_of_lt' h

theorem decode_registerOk_iff (bytes : Bytes) (cid : Cid) :
    RegisterOkPayload.decode bytes = .ok cid ↔ RegisterOkPayload.encode cid [] = .ok bytes := by
  have hencode : RegisterOkPayload.encode cid [] = .ok bytes ↔
      cid.len = maxDcidLen ∧ LaidOut bytes 0 [[UInt8.ofNat cid.len], cid.bytes] := by
    rw [laidOut_zero_iff, RegisterOkPayload.encode]
    split
    · rename_i hlen
      simp [hlen]
    · rename_i hlen
      simp [not_not.mp hlen, eq_comm]
  rw [hencode, RegisterOkPayload.decode]
  simp only [LaidOut, List.length_singleton, Nat.zero_add]
  constructor
  · intro h
    split at h
    · cases h
    split at h
    · cases h
    rename_i hfirst
    split at h
    · cases h
    rename_i hlen
    have hfirst : (bytes.getD 0 0).toNat = maxDcidLen := not_not.mp hfirst
    rw [hfirst] at h hlen
    have hlen : bytes.length = 1 + maxDcidLen := not_not.mp hlen
    have hcid : ((bytes.drop 1).take maxDcidLen).length = maxDcidLen := by simp [hlen]
    rw [Cid.new_ok hcid.le] at h
    cases h
    simp only [Cid.len, hcid]
    refine ⟨trivial, ?_, trivial, hlen⟩
    exact (take_one_iff (by omega) _).mpr ((toNat_eq_iff (by decide)).mp hfirst)
  · rintro ⟨hcid, hfirst, hrest, hlen⟩
    rw [Cid.len] at hcid
    rw [hcid] at hrest hlen
    have hfirst : (bytes.getD 0 0).toNat = maxDcidLen := by
      rw [toNat_eq_iff (by decide), (take_one_iff (by omega) _).mp hfirst, Cid.len, hcid]
    rw [if_neg (by simp [← List.length_eq_zero_iff, hlen])]
    simp only [hfirst, hlen, ne_eq, not_true, if_false, hrest]
    rw [Cid.new_ok cid.bounded]

def RegisterCidPayload.fields (self : RegisterCidPayload) : List Bytes :=
  [[UInt8.ofNat self.clientToServerCid.len], self.clientToServerCid.bytes,
    [UInt8.ofNat self.serverToClientCid.len], self.serverToClientCid.bytes,
    [cipherToByte self.cipher], self.secretTx.val, self.secretRx.val,
    beBytes 8 self.pnStart.toNat, beBytes 8 self.pnStartRx.toNat,
    [if self.keyPhase then 1 else 0]]

theorem RegisterCidPayload.encode_eq_ok_iff (self : RegisterCidPayload) (bytes : Bytes) :
    self.encode [] = .ok bytes ↔
      self.clientToServerCid.len = maxDcidLen ∧ LaidOut bytes 0 self.fields := by
  rw [laidOut_zero_iff, encode]
  split
  · rename_i hlen
    simp [hlen]
  · rename_i hlen
    simp only [fields, List.flatten_cons, List.flatten_nil, List.append_nil, List.nil_append,
      List.append_assoc, not_not.mp hlen, true_and, Except.ok.injEq]
    exact eq_comm

theorem decodeKeyPhase_iff {b : UInt8} {keyPhase : Bool} :
    decodeKeyPhase b = .ok keyPhase ↔ b = if keyPhase then 1 else 0 := by
  constructor
  · intro h
    unfold decodeKeyPhase at h
    split at h <;> cases h <;> rfl
  · rintro rfl
    cases keyPhase <;> rfl

theorem RegisterCidPayload.decode_eq_ok {bytes : Bytes} {payload : RegisterCidPayload}
    (h : RegisterCidPayload.decode bytes = .ok payload) :
    payload.clientToServerCid.len = maxDcidLen ∧ LaidOut bytes 0 payload.fields := by
  unfold RegisterCidPayload.decode at h
  split at h
  · cases h
  split at h
  · cases h
  rename_i hfirst
  split at h
  · cases h
  generalize hs2c : (bytes.getD (1 + maxDcidLen) 0).toNat = s2cCidLen at h
  unfold decodeFrom at h
  dsimp only at h
  split at h
  · cases h
  split at h
  · cases h
  split at h
  · cases h
  rename_i cipher hcipher
  split at h
  · cases h
  rename_i hlen
  have hlen : bytes.length = encodedLenFor maxDcidLen s2cCidLen := not_not.mp hlen
  unfold encodedLenFor udpQspTrafficSecretLen maxDcidLen at hlen
  have hc2s : ((bytes.drop 1).take maxDcidLen).length = maxDcidLen := by
    unfold maxDcidLen
    simp only [List.length_take, List.length_drop]
    omega
  have hs2cLen : ((bytes.drop (1 + maxDcidLen + 1)).take s2cCidLen).length = s2cCidLen := by
    unfold maxDcidLen
    simp only [List.length_take, List.length_drop]
    omega
  rw [Cid.new_ok hc2s.le, Cid.new_ok (hs2cLen.le.trans (Nat.le_of_not_lt ‹_›))] at h
  dsimp only [decodeKeys] at h
  obtain ⟨keyPhase, hphase, rfl⟩ := map_eq_ok h
  refine ⟨hc2s, ?_⟩
  simp only [LaidOut, fields, Cid.len, List.length_singleton, length_beBytes, hc2s, hs2cLen,
    FixedBytes.length_val, Nat.zero_add, Nat.mul_two, ← Nat.add_assoc] at hphase ⊢
  unfold maxDcidLen udpQspTrafficSecretLen at *
  refine ⟨?_, trivial, ?_, trivial, ?_, rfl, rfl, ?_, ?_, ?_, ?_⟩
  · exact (take_one_iff (by omega) _).mpr ((toNat_eq_iff (by decide)).mp (not_not.mp hfirst))
  · exact (take_one_iff (by omega) _).mpr ((toNat_eq_iff (by omega)).mp hs2c)
  · exact (take_one_iff (by omega) _).mpr ((codes_cipher _ _).mp hcipher).symm
  · exact ((u64_ofBe_iff (by simp; omega) _).mp rfl).symm
  · exact ((u64_ofBe_iff (by simp; omega) _).mp rfl).symm
  · exact (take_one_iff (by omega) _).mpr (decodeKeyPhase_iff.mp hphase)
  · omega

theorem field_eq {payload : Bytes} {offset n : Nat} {h : offset + n ≤ payload.length}
    {x : FixedBytes n} (hx : (payload.drop offset).take n = x.val) : field payload offset n h = x :=
  Subtype.ext hx

theorem RegisterCidPayload.decode_of_laidOut {bytes : Bytes} {payload : RegisterCidPayload}
    (hcid : payload.clientToServerCid.len = maxDcidLen) (h : LaidOut bytes 0 payload.fields) :
    RegisterCidPayload.decode bytes = .ok payload := by
  obtain ⟨⟨c2s, hc2s⟩, ⟨s2c, hs2c⟩, cipher, secretTx, secretRx, pnStart, pnStartRx, keyPhase⟩ :=
    payload
  change c2s.length = maxDcidLen at hcid
  simp only [LaidOut, fields, Cid.len, List.length_singleton, length_beBytes, hcid,
    FixedBytes.length_val, Nat.zero_add] at h
  obtain ⟨hfirst, hc2sAt, hsecond, hs2cAt, hcipher, htx, hrx, hpn, hpnRx, hphase, hlen⟩ := h
  have hmax : maxDcidLen = 20 := rfl
  have hsecret : udpQspTrafficSecretLen = 32 := rfl
  have hfirst : (bytes.getD 0 0).toNat = maxDcidLen :=
    (toNat_eq_iff (by decide)).mpr ((take_one_iff (by omega) _).mp hfirst)
  have hsecond : (bytes.getD (1 + maxDcidLen) 0).toNat = s2c.length :=
    (toNat_eq_iff (by omega)).mpr ((take_one_iff (by omega) _).mp hsecond)
  have hcipher : cipherTryFrom (bytes.getD (1 + maxDcidLen + 1 + s2c.length) 0) = some cipher :=
    (codes_cipher _ _).mpr ((take_one_iff (by omega) _).mp hcipher).symm
  unfold RegisterCidPayload.decode
  rw [if_neg (by simp [← List.length_eq_zero_iff, hlen]), if_neg (not_not.mpr hfirst),
    if_neg (by omega), hsecond]
  unfold decodeFrom
  dsimp only
  rw [if_neg (by omega), if_neg (by omega)]
  simp only [hcipher]
  rw [dif_neg (by unfold encodedLenFor; omega)]
  simp only [hc2sAt, hs2cAt, Cid.new_ok hc2s, Cid.new_ok hs2c]
  unfold decodeKeys
  dsimp only
  simp only [Nat.mul_two, ← Nat.add_assoc]
  have hphase : decodeKeyPhase (bytes.getD (1 + maxDcidLen + 1 + s2c.length + 1 +
      udpQspTrafficSecretLen + udpQspTrafficSecretLen + 16) 0) = .ok keyPhase :=
    decodeKeyPhase_iff.mpr ((take_one_iff (by omega) _).mp hphase)
  have hpn := (u64_ofBe_iff (by rw [hpn]; simp) pnStart).mpr hpn.symm
  have hpnRx := (u64_ofBe_iff (by rw [hpnRx]; simp) pnStartRx).mpr hpnRx.symm
  rw [hphase, Except.map, hpn, hpnRx]
  rw [field_eq htx, field_eq hrx]

theorem decode_registerCid_iff (bytes : Bytes) (payload : RegisterCidPayload) :
    RegisterCidPayload.decode bytes = .ok payload ↔ payload.encode [] = .ok bytes := by
  rw [RegisterCidPayload.encode_eq_ok_iff]
  exact ⟨RegisterCidPayload.decode_eq_ok, fun h => RegisterCidPayload.decode_of_laidOut h.1 h.2⟩

def maxControlFrameLen : Nat :=
  1 + maxDcidLen + 1 + maxDcidLen + 1 + udpQspTrafficSecretLen * 2 + 8 + 8 + 1

theorem RegisterCidPayload.length_of_encode {payload : RegisterCidPayload} {bytes : Bytes}
    (h : payload.encode [] = .ok bytes) : bytes.length = payload.encodedLen := by
  obtain ⟨hcid, hlaid⟩ := (payload.encode_eq_ok_iff bytes).mp h
  rw [laidOut_zero_iff] at hlaid
  rw [hlaid]
  simp [fields, encodedLen, encodedLenFor, Cid.len]
  omega

theorem RegisterCidPayload.encodedLen_le (payload : RegisterCidPayload) :
    payload.encodedLen ≤ maxControlFrameLen := by
  have := payload.clientToServerCid.bounded
  have := payload.serverToClientCid.bounded
  simp only [encodedLen, encodedLenFor, maxControlFrameLen, Cid.len]
  omega

/-! ## Control payloads -/

inductive ControlPayload where
  | auth (payload : AuthPayload)
  | authOk
  | authFail (code : AuthFailCode)
  | registerCid (payload : RegisterCidPayload)
  | registerOk (clientToServerCid : Cid)
  | registerFail (code : RegisterFailCode)
  | ping (nonce : UInt64)
  | pong (nonce : UInt64)
  | close (code : CloseCode)
  | upgradeProbe (upgradeId nonce : UInt64)
  | upgradeProbeAck (upgradeId nonce : UInt64)
  | udpReady (upgradeId : UInt64)
  | switchToUdp (upgradeId : UInt64)
  | switchAck (upgradeId : UInt64)
  | fallbackToTcp (fallbackId : UInt64)
  | fallbackOk (fallbackId : UInt64)
  | switchOk (upgradeId : UInt64)
  deriving DecidableEq

namespace ControlPayload

def ty : ControlPayload → MessageType
  | .auth _ => .auth
  | .authOk => .authOk
  | .authFail _ => .authFail
  | .registerCid _ => .registerCid
  | .registerOk _ => .registerOk
  | .registerFail _ => .registerFail
  | .ping _ => .ping
  | .pong _ => .pong
  | .close _ => .close
  | .upgradeProbe _ _ => .upgradeProbe
  | .upgradeProbeAck _ _ => .upgradeProbeAck
  | .udpReady _ => .udpReady
  | .switchToUdp _ => .switchToUdp
  | .switchAck _ => .switchAck
  | .fallbackToTcp _ => .fallbackToTcp
  | .fallbackOk _ => .fallbackOk
  | .switchOk _ => .switchOk

/-- Append the payload to a buffer. Only those with a connection id can fail. -/
def encode (self : ControlPayload) (out : Bytes) : Except PayloadError Bytes :=
  match self with
  | .auth payload => .ok (payload.encode out)
  | .authOk => .ok (AuthOkPayload.encode out)
  | .authFail code => .ok (AuthFailPayload.encode code out)
  | .registerCid payload => payload.encode out
  | .registerOk clientToServerCid => RegisterOkPayload.encode clientToServerCid out
  | .registerFail code => .ok (RegisterFailPayload.encode code out)
  | .ping nonce => .ok (PingPayload.encode nonce out)
  | .pong nonce => .ok (PongPayload.encode nonce out)
  | .close code => .ok (ClosePayload.encode code out)
  | .upgradeProbe upgradeId nonce => .ok (UpgradeProbePayload.encode (upgradeId, nonce) out)
  | .upgradeProbeAck upgradeId nonce => .ok (UpgradeProbeAckPayload.encode (upgradeId, nonce) out)
  | .udpReady upgradeId => .ok (UdpReadyPayload.encode upgradeId out)
  | .switchToUdp upgradeId => .ok (SwitchToUdpPayload.encode upgradeId out)
  | .switchAck upgradeId => .ok (SwitchAckPayload.encode upgradeId out)
  | .fallbackToTcp fallbackId => .ok (FallbackToTcpPayload.encode fallbackId out)
  | .fallbackOk fallbackId => .ok (FallbackOkPayload.encode fallbackId out)
  | .switchOk upgradeId => .ok (SwitchOkPayload.encode upgradeId out)

def decode (type : MessageType) (bytes : Bytes) : Option (Except PayloadError ControlPayload) :=
  match type with
  | .auth => some ((AuthPayload.decode bytes).map .auth)
  | .authOk => some ((AuthOkPayload.decode bytes).map fun _ => .authOk)
  | .authFail => some ((AuthFailPayload.decode bytes).map .authFail)
  | .registerCid => some ((RegisterCidPayload.decode bytes).map .registerCid)
  | .registerOk => some ((RegisterOkPayload.decode bytes).map .registerOk)
  | .registerFail => some ((RegisterFailPayload.decode bytes).map .registerFail)
  | .ping => some ((PingPayload.decode bytes).map .ping)
  | .pong => some ((PongPayload.decode bytes).map .pong)
  | .close => some ((ClosePayload.decode bytes).map .close)
  | .data => none
  | .upgradeProbe =>
    some ((UpgradeProbePayload.decode bytes).map fun probe => .upgradeProbe probe.1 probe.2)
  | .upgradeProbeAck =>
    some ((UpgradeProbeAckPayload.decode bytes).map fun ack => .upgradeProbeAck ack.1 ack.2)
  | .udpReady => some ((UdpReadyPayload.decode bytes).map .udpReady)
  | .switchToUdp => some ((SwitchToUdpPayload.decode bytes).map .switchToUdp)
  | .switchAck => some ((SwitchAckPayload.decode bytes).map .switchAck)
  | .fallbackToTcp => some ((FallbackToTcpPayload.decode bytes).map .fallbackToTcp)
  | .fallbackOk => some ((FallbackOkPayload.decode bytes).map .fallbackOk)
  | .switchOk => some ((SwitchOkPayload.decode bytes).map .switchOk)

/-- A connection id that clients send packets to has the full length. -/
def Encodable : ControlPayload → Prop
  | .registerCid payload => payload.clientToServerCid.len = maxDcidLen
  | .registerOk clientToServerCid => clientToServerCid.len = maxDcidLen
  | _ => True

section

variable {α : Type} {encoder : α → Bytes → Bytes} {decoder : Bytes → Except PayloadError α}
  {wrap : α → ControlPayload} {bytes : Bytes}

theorem decode_of_exact (h : Exact encoder decoder) {a : α}
    (hbytes : Except.ok (encoder a []) = (.ok bytes : Except PayloadError Bytes)) :
    some ((decoder bytes).map wrap) = some (.ok (wrap a)) := by
  rw [(h bytes a).mpr (Except.ok.inj hbytes)]
  rfl

theorem encode_of_exact (h : Exact encoder decoder) {p : ControlPayload} {type : MessageType}
    (hp : some ((decoder bytes).map wrap) = some (.ok p))
    (hwrap : ∀ a, (wrap a).ty = type ∧ (wrap a).encode [] = .ok (encoder a [])) :
    p.ty = type ∧ p.encode [] = .ok bytes := by
  obtain ⟨a, hdecoded, rfl⟩ := map_eq_ok (Option.some.inj hp)
  refine ⟨(hwrap a).1, ?_⟩
  rw [(hwrap a).2, (h bytes a).mp hdecoded]

end

theorem decode_of_encode {p : ControlPayload} {bytes : Bytes} (h : p.encode [] = .ok bytes) :
    decode p.ty bytes = some (.ok p) := by
  cases p
  case auth payload => exact decode_of_exact exact_auth h
  case authOk => exact decode_of_exact exact_authOk (a := ()) h
  case authFail code => exact decode_of_exact (exact_code codes_authFailCode _) h
  case registerFail code => exact decode_of_exact (exact_code codes_registerFailCode _) h
  case close code => exact decode_of_exact (exact_code codes_closeCode _) h
  case registerCid payload =>
    simp only [ty, decode, (decode_registerCid_iff bytes payload).mpr h]
    rfl
  case registerOk cid =>
    simp only [ty, decode, (decode_registerOk_iff bytes cid).mpr h]
    rfl
  case upgradeProbe upgradeId nonce | upgradeProbeAck upgradeId nonce =>
    exact decode_of_exact exact_u64Pair h
  all_goals exact decode_of_exact exact_u64 h

theorem encode_of_decode {type : MessageType} {bytes : Bytes} {p : ControlPayload}
    (h : decode type bytes = some (.ok p)) : p.ty = type ∧ p.encode [] = .ok bytes := by
  cases type
  case auth => exact encode_of_exact exact_auth h fun _ => ⟨rfl, rfl⟩
  case authOk => exact encode_of_exact exact_authOk h fun _ => ⟨rfl, rfl⟩
  case authFail =>
    exact encode_of_exact (exact_code codes_authFailCode _) h fun _ => ⟨rfl, rfl⟩
  case registerFail =>
    exact encode_of_exact (exact_code codes_registerFailCode _) h fun _ => ⟨rfl, rfl⟩
  case close => exact encode_of_exact (exact_code codes_closeCode _) h fun _ => ⟨rfl, rfl⟩
  case registerCid =>
    obtain ⟨payload, hdecoded, rfl⟩ := map_eq_ok (Option.some.inj h)
    exact ⟨rfl, (decode_registerCid_iff bytes payload).mp hdecoded⟩
  case registerOk =>
    obtain ⟨cid, hdecoded, rfl⟩ := map_eq_ok (Option.some.inj h)
    exact ⟨rfl, (decode_registerOk_iff bytes cid).mp hdecoded⟩
  case data => cases h
  case upgradeProbe | upgradeProbeAck =>
    exact encode_of_exact exact_u64Pair h fun _ => ⟨rfl, rfl⟩
  all_goals exact encode_of_exact exact_u64 h fun _ => ⟨rfl, rfl⟩

theorem encode_ok_iff (p : ControlPayload) : (∃ bytes, p.encode [] = .ok bytes) ↔ p.Encodable := by
  cases p
  case registerCid payload =>
    simp only [encode, RegisterCidPayload.encode, Encodable]
    split <;> simp_all
  case registerOk cid =>
    simp only [encode, RegisterOkPayload.encode, Encodable]
    split <;> simp_all
  all_goals exact ⟨fun _ => trivial, fun _ => ⟨_, rfl⟩⟩

theorem encode_append (p : ControlPayload) (out : Bytes) :
    p.encode out = (p.encode []).map (out ++ ·) := by
  cases p
  case registerCid payload =>
    simp only [encode, RegisterCidPayload.encode]
    split <;> simp [Except.map]
  case registerOk cid =>
    simp only [encode, RegisterOkPayload.encode]
    split <;> simp [Except.map]
  case auth payload => simp [encode, AuthPayload.encode, Except.map]
  case authOk => simp [encode, AuthOkPayload.encode, Except.map]
  case upgradeProbe upgradeId nonce | upgradeProbeAck upgradeId nonce =>
    exact congrArg Except.ok (List.append_assoc _ _ _)
  all_goals rfl

theorem length_le_of_encode {p : ControlPayload} {bytes : Bytes} (h : p.encode [] = .ok bytes) :
    bytes.length ≤ maxControlFrameLen := by
  cases p
  case registerCid payload =>
    exact (RegisterCidPayload.length_of_encode h).le.trans payload.encodedLen_le
  case registerOk cid =>
    simp only [encode, RegisterOkPayload.encode] at h
    split at h
    · cases h
    · cases h
      have := cid.bounded
      simp [maxControlFrameLen, maxDcidLen] at *
      omega
  case auth payload =>
    cases h
    simp [AuthPayload.encode, maxControlFrameLen]
    decide
  case authOk =>
    cases h
    exact Nat.zero_le _
  case authFail code | registerFail code | close code =>
    cases h
    exact (length_encodeCode _ _ _).le.trans (by decide)
  case upgradeProbe upgradeId nonce | upgradeProbeAck upgradeId nonce =>
    cases h
    exact (length_encodeU64Pair _ _).le.trans (by decide)
  all_goals
    cases h
    exact (length_encodeU64 _ _).le.trans (by decide)

theorem ty_ne_data (p : ControlPayload) : p.ty ≠ .data := by
  cases p <;> nofun

end ControlPayload

/-! ## Frames of control payloads -/

def MessageLimits.fromMtu (mtu : UInt16) : MessageLimits where
  maxFrameLen := max mtu.toNat maxControlFrameLen
  maxDataLen := mtu.toNat

theorem Frame.Fits.decodeMessage_bytes {frame : Frame} {limits : MessageLimits}
    (h : frame.Fits limits) (hlen : frame.payload.length < 2 ^ 32) :
    decodeMessage frame.bytes limits = .ok (some (frame, frame.bytes.length)) := by
  have hframe := decodeFrame_bytes hlen h.1 []
  rw [List.append_nil] at hframe
  unfold decodeMessage
  rw [hframe]
  exact if_neg (by simp [h.not_dataTooLarge])

theorem fits_of_encode {p : ControlPayload} {bytes : Bytes} (h : p.encode [] = .ok bytes)
    (mtu : UInt16) : Frame.Fits ⟨p.ty, bytes⟩ (.fromMtu mtu) :=
  ⟨(ControlPayload.length_le_of_encode h).trans (le_max_right _ _),
    fun hdata => absurd hdata p.ty_ne_data⟩

/-- The decoders accept exactly the encodings, each for its own value. Every encoding is
within the bound on control frames, and its frame decodes to it at any MTU. -/
theorem control_codecs_exact :
    (∀ (p : ControlPayload) (bytes : Bytes),
      ControlPayload.decode p.ty bytes = some (.ok p) ↔ p.encode [] = .ok bytes) ∧
    (∀ (type : MessageType) (bytes : Bytes) (p : ControlPayload),
      ControlPayload.decode type bytes = some (.ok p) → p.ty = type) ∧
    (∀ (p : ControlPayload), (∃ bytes, p.encode [] = .ok bytes) ↔ p.Encodable) ∧
    (∀ (p : ControlPayload) (out : Bytes), p.encode out = (p.encode []).map (out ++ ·)) ∧
    (∀ (payload : RegisterCidPayload) (bytes : Bytes),
      payload.encode [] = .ok bytes → bytes.length = payload.encodedLen) ∧
    (∀ (p : ControlPayload) (bytes : Bytes), p.encode [] = .ok bytes →
      bytes.length ≤ maxControlFrameLen ∧
        ∀ mtu : UInt16, ∃ frame, encodeFrame p.ty bytes [] = .ok frame ∧
          decodeMessage frame (.fromMtu mtu) = .ok (some (⟨p.ty, bytes⟩, frame.length))) := by
  refine ⟨fun p bytes => ⟨fun h => (ControlPayload.encode_of_decode h).2,
      ControlPayload.decode_of_encode⟩,
    fun type bytes p h => (ControlPayload.encode_of_decode h).1,
    ControlPayload.encode_ok_iff, ControlPayload.encode_append,
    fun payload bytes => RegisterCidPayload.length_of_encode, fun p bytes h => ?_⟩
  have hle := ControlPayload.length_le_of_encode h
  refine ⟨hle, fun mtu => ?_⟩
  have hlen : bytes.length < 2 ^ 32 := hle.trans_lt (by decide)
  refine ⟨Frame.bytes ⟨p.ty, bytes⟩, if_pos hlen, ?_⟩
  exact (fits_of_encode h mtu).decodeMessage_bytes hlen

end Slt.Proto
