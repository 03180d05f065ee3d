import Slt.Lib.Bytes
import Slt.Crypto.PacketNumber
import Mathlib.Tactic.IntervalCases

/-!
# Short-header packets

The header of a packet is a flags byte, the destination connection id and the
truncated packet number. Header protection xors the low bits of the flags and
the packet number with a mask that depends on a sample of the ciphertext, so
that the receiver can compute the same mask before it knows how long the
packet number is.
-/

namespace Slt.Crypto

open Lib (Bytes FixedBytes beBytes ofBe xorBytes)

def hpMaskLen : Nat := 5
def hpSampleLen : Nat := 16
def aeadTagLen : Nat := 16

inductive QspCryptoError where
  | unsupportedCipher
  | packetTooShort
  | invalidHeader
  | invalidPacketNumber
  | cryptoFail
  | invalidCid
  deriving DecidableEq, Repr

def fixedBit : UInt8 := 0x40
def keyPhaseBit : UInt8 := 0x04
def reservedMask : UInt8 := 0x18
def pnLenMask : UInt8 := 0x03

abbrev HpMask := FixedBytes hpMaskLen

structure BuiltHeader where
  pnLen : Nat
  pnOffset : Nat

structure ParsedHeader where
  pn : Nat
  pnLen : Nat
  keyPhase : Bool
  header : Bytes

def firstByte (pnLen : Nat) (keyPhase : Bool) : UInt8 :=
  let first := fixedBit ||| ((UInt8.ofNat pnLen - 1) &&& pnLenMask)
  if keyPhase then first ||| keyPhaseBit else first

def buildHeader (dcid : Bytes) (pn : Nat) (keyPhase : Bool) (out : Bytes) :
    Except QspCryptoError (BuiltHeader × Bytes) :=
  let pnLen := packetNumberLen pn
  if pnLen = 0 ∨ pnLen > maxWirePnLen then .error .invalidPacketNumber
  else
    let pnOffset := 1 + dcid.length
    let first := firstByte pnLen keyPhase
    .ok (⟨pnLen, pnOffset⟩, out ++ ([first] ++ dcid ++ (beBytes 8 pn).drop (8 - pnLen)))

/-- `xs` with the bytes from `offset` on xored with `ys`. -/
def xorAt (xs : Bytes) (offset : Nat) (ys : Bytes) : Bytes :=
  xs.take offset ++ xorBytes (xs.drop offset) ys

def parseHeader (dcidLen : Nat) (packet : Bytes) (mask : HpMask) :
    Except QspCryptoError ParsedHeader :=
  let pnOffset := 1 + dcidLen
  let first := packet.headD 0 ^^^ (mask.val.headD 0 &&& 0x1f)
  if first &&& fixedBit = 0 ∨ first &&& 0x80 ≠ 0 then .error .invalidHeader
  else if first &&& reservedMask ≠ 0 then .error .invalidHeader
  else
    let pnLen := ((first &&& pnLenMask) + 1).toNat
    if pnLen = 0 ∨ pnLen > maxWirePnLen then .error .invalidPacketNumber
    else if packet.length < pnOffset + pnLen + aeadTagLen then .error .packetTooShort
    else
      let pnBytes := List.replicate (maxWirePnLen - pnLen) 0 ++
        xorBytes ((packet.drop pnOffset).take pnLen) (mask.val.drop 1)
      let keyPhase := first &&& keyPhaseBit ≠ 0
      let header :=
        [first] ++ (packet.drop 1).take dcidLen ++ pnBytes.drop (maxWirePnLen - pnLen)
      .ok ⟨ofBe pnBytes, pnLen, keyPhase, header⟩

def applyHeaderProtection (packet : Bytes) (pnOffset pnLen : Nat) (mask : HpMask) :
    Except QspCryptoError Bytes :=
  if pnLen = 0 ∨ pnLen > maxWirePnLen then .error .invalidPacketNumber
  else if packet.length < pnOffset + pnLen then .error .packetTooShort
  else
    let packet := xorAt packet 0 [mask.val.headD 0 &&& 0x1f]
    .ok (xorAt packet pnOffset ((mask.val.drop 1).take pnLen))

def sampleOffset (dcidLen : Nat) : Nat := 1 + dcidLen + 4

def requireHpSample (packet : Bytes) (dcidLen : Nat) : Except QspCryptoError Unit :=
  if packet.length < sampleOffset dcidLen + hpSampleLen then .error .packetTooShort else .ok ()

def hpSampleEnd (dcidLen : Nat) : Nat := sampleOffset dcidLen + hpSampleLen

def hpSample (packet : Bytes) (dcidLen : Nat) : Bytes :=
  (packet.drop (sampleOffset dcidLen)).take hpSampleLen

theorem requireHpSample_ok {packet : Bytes} {dcidLen : Nat}
    (h : hpSampleEnd dcidLen ≤ packet.length) : requireHpSample packet dcidLen = .ok () :=
  if_neg (Nat.not_lt.mpr h)

theorem length_hpSample {packet : Bytes} {dcidLen : Nat}
    (h : hpSampleEnd dcidLen ≤ packet.length) : (hpSample packet dcidLen).length = hpSampleLen := by
  rw [hpSample, List.length_take_of_le]
  rw [List.length_drop]
  unfold hpSampleEnd at h
  omega

/-! ## Headers -/

def pnBytes (pn : Nat) : Bytes := (beBytes 8 pn).drop (8 - packetNumberLen pn)

def headerBytes (dcid : Bytes) (pn : Nat) (keyPhase : Bool) : Bytes :=
  [firstByte (packetNumberLen pn) keyPhase] ++ dcid ++ pnBytes pn

theorem pnBytes_eq (pn : Nat) : pnBytes pn = beBytes (packetNumberLen pn) pn := by
  have hlen := packetNumberLen_bounds pn
  have hsplit : 8 = 8 - packetNumberLen pn + packetNumberLen pn := by omega
  rw [pnBytes]
  nth_rewrite 2 [hsplit]
  exact Lib.drop_beBytes _ _ _

@[simp] theorem length_pnBytes (pn : Nat) : (pnBytes pn).length = packetNumberLen pn := by
  rw [pnBytes_eq, Lib.length_beBytes]

@[simp] theorem length_headerBytes (dcid : Bytes) (pn : Nat) (keyPhase : Bool) :
    (headerBytes dcid pn keyPhase).length = 1 + dcid.length + packetNumberLen pn := by
  simp [headerBytes]
  omega

theorem ofBe_pnBytes (pn : Nat) : ofBe (pnBytes pn) = pn % 2 ^ (8 * packetNumberLen pn) := by
  rw [pnBytes_eq, Lib.ofBe_beBytes, Nat.pow_mul]

theorem buildHeader_eq (dcid : Bytes) (pn : Nat) (keyPhase : Bool) (out : Bytes) :
    buildHeader dcid pn keyPhase out =
      .ok (⟨packetNumberLen pn, 1 + dcid.length⟩, out ++ headerBytes dcid pn keyPhase) := by
  have hlen := packetNumberLen_bounds pn
  have hrange : ¬(packetNumberLen pn = 0 ∨ packetNumberLen pn > maxWirePnLen) := by
    unfold maxWirePnLen
    omega
  simp only [buildHeader, if_neg hrange]
  rfl

/-- What the flags byte says: it is accepted, and it gives the packet number
length and the key phase back. -/
theorem firstByte_fields {len : Nat} (h : 1 ≤ len ∧ len ≤ 4) (keyPhase : Bool) :
    firstByte len keyPhase &&& fixedBit ≠ 0 ∧ firstByte len keyPhase &&& 0x80 = 0 ∧
      firstByte len keyPhase &&& reservedMask = 0 ∧
      ((firstByte len keyPhase &&& pnLenMask) + 1).toNat = len ∧
      decide (firstByte len keyPhase &&& keyPhaseBit ≠ 0) = keyPhase := by
  obtain ⟨hlow, hhigh⟩ := h
  interval_cases len <;> cases keyPhase <;> decide

/-! ## Header protection -/

def protectedPacket (dcid : Bytes) (pn : Nat) (keyPhase : Bool) (ciphertext : Bytes)
    (mask : HpMask) : Bytes :=
  [firstByte (packetNumberLen pn) keyPhase ^^^ (mask.val.headD 0 &&& 0x1f)] ++ dcid ++
    xorBytes (pnBytes pn) (mask.val.drop 1) ++ ciphertext

section

variable (dcid : Bytes) (pn : Nat) (keyPhase : Bool) (ciphertext : Bytes) (mask : HpMask)

theorem applyHeaderProtection_eq :
    applyHeaderProtection (headerBytes dcid pn keyPhase ++ ciphertext) (1 + dcid.length)
      (packetNumberLen pn) mask = .ok (protectedPacket dcid pn keyPhase ciphertext mask) := by
  have hlen := packetNumberLen_bounds pn
  have hrange : ¬(packetNumberLen pn = 0 ∨ packetNumberLen pn > maxWirePnLen) := by
    unfold maxWirePnLen
    omega
  have hlong : ¬((headerBytes dcid pn keyPhase ++ ciphertext).length <
      1 + dcid.length + packetNumberLen pn) := by simp
  have htake : ((mask.val.drop 1).take (packetNumberLen pn)).length ≤ (pnBytes pn).length := by
    simp
  rw [applyHeaderProtection, if_neg hrange, if_neg hlong]
  simp only [headerBytes, protectedPacket, xorAt, List.take_zero, List.nil_append, List.drop_zero,
    List.cons_append, xorBytes, Lib.xorBytes_nil]
  rw [Nat.add_comm 1, List.take_succ_cons, List.drop_succ_cons, List.append_assoc,
    List.take_left, List.drop_left, Lib.xorBytes_append htake]
  nth_rewrite 2 [← length_pnBytes pn]
  rw [Lib.xorBytes_take, List.append_assoc]
  rfl

@[simp] theorem length_protectedPacket :
    (protectedPacket dcid pn keyPhase ciphertext mask).length =
      1 + dcid.length + packetNumberLen pn + ciphertext.length := by
  simp [protectedPacket]
  omega

theorem drop_protectedPacket :
    (protectedPacket dcid pn keyPhase ciphertext mask).drop
      (headerBytes dcid pn keyPhase).length = ciphertext := by
  have hsame : ([firstByte (packetNumberLen pn) keyPhase ^^^ (mask.val.headD 0 &&& 0x1f)] ++ dcid ++
      xorBytes (pnBytes pn) (mask.val.drop 1)).length = (headerBytes dcid pn keyPhase).length := by
    simp only [headerBytes, List.length_append, List.length_singleton, Lib.length_xorBytes]
  rw [protectedPacket, ← hsame, List.drop_left]

/-- The sample lies behind the longest packet number, so protecting the
header does not change it. -/
theorem hpSample_protectedPacket :
    hpSample (protectedPacket dcid pn keyPhase ciphertext mask) dcid.length =
      hpSample (headerBytes dcid pn keyPhase ++ ciphertext) dcid.length := by
  have hlen := packetNumberLen_bounds pn
  have hle : 1 + dcid.length + packetNumberLen pn ≤ sampleOffset dcid.length := by
    unfold sampleOffset
    omega
  obtain ⟨k, hk⟩ := Nat.exists_eq_add_of_le hle
  have hleft : (protectedPacket dcid pn keyPhase ciphertext mask).drop
      (1 + dcid.length + packetNumberLen pn) = ciphertext := by
    rw [← length_headerBytes dcid pn keyPhase]
    exact drop_protectedPacket _ _ _ _ _
  have hright : (headerBytes dcid pn keyPhase ++ ciphertext).drop
      (1 + dcid.length + packetNumberLen pn) = ciphertext := by
    rw [← length_headerBytes dcid pn keyPhase, List.drop_left]
  rw [hpSample, hpSample, hk, ← List.drop_drop (l := protectedPacket ..), hleft,
    ← List.drop_drop (l := headerBytes .. ++ _), hright]

theorem parseHeader_protectedPacket (h : aeadTagLen ≤ ciphertext.length) :
    parseHeader dcid.length (protectedPacket dcid pn keyPhase ciphertext mask) mask =
      .ok ⟨pn % 2 ^ (8 * packetNumberLen pn), packetNumberLen pn, keyPhase,
        headerBytes dcid pn keyPhase⟩ := by
  have hlen := packetNumberLen_bounds pn
  obtain ⟨hfixed, hlong, hreserved, hpnLen, hphase⟩ := firstByte_fields hlen keyPhase
  have hfirst : (protectedPacket dcid pn keyPhase ciphertext mask).headD 0 ^^^
      (mask.val.headD 0 &&& 0x1f) = firstByte (packetNumberLen pn) keyPhase := by
    simp only [protectedPacket, List.cons_append, List.nil_append, List.headD_cons]
    rw [UInt8.xor_assoc, UInt8.xor_self, UInt8.xor_zero]
  have hrange : ¬(packetNumberLen pn = 0 ∨ packetNumberLen pn > maxWirePnLen) := by
    unfold maxWirePnLen
    omega
  have htag : ¬((protectedPacket dcid pn keyPhase ciphertext mask).length <
      1 + dcid.length + packetNumberLen pn + aeadTagLen) := by
    rw [length_protectedPacket]
    omega
  have hpn : xorBytes (((protectedPacket dcid pn keyPhase ciphertext mask).drop
      (1 + dcid.length)).take (packetNumberLen pn)) (mask.val.drop 1) = pnBytes pn := by
    rw [protectedPacket, Nat.add_comm 1]
    simp only [List.cons_append, List.nil_append, List.drop_succ_cons, List.append_assoc,
      List.drop_left]
    rw [List.take_append_of_le_length (by simp), List.take_of_length_le (by simp),
      Lib.xorBytes_xorBytes]
  have hdcid : ((protectedPacket dcid pn keyPhase ciphertext mask).drop 1).take dcid.length =
      dcid := by
    simp [protectedPacket]
  simp only [parseHeader, hfirst, hpnLen, hpn, hdcid, hphase, if_neg hrange, if_neg htag,
    hreserved, hlong, Lib.ofBe_replicate_zero_append, ofBe_pnBytes, headerBytes]
  simp [hfixed]

end

theorem parseHeader_pn {dcidLen : Nat} {packet : Bytes} {mask : HpMask} {parsed : ParsedHeader}
    (h : parseHeader dcidLen packet mask = .ok parsed) :
    (1 ≤ parsed.pnLen ∧ parsed.pnLen ≤ 4) ∧ parsed.pn < 2 ^ (8 * parsed.pnLen) := by
  simp only [parseHeader] at h
  split_ifs at h with h1 h2 h3 h4
  simp only [Except.ok.injEq] at h
  subst h
  simp only [not_or, gt_iff_lt, Nat.not_lt, maxWirePnLen] at h3
  dsimp only
  refine ⟨⟨Nat.pos_of_ne_zero h3.1, h3.2⟩, ?_⟩
  rw [Lib.ofBe_replicate_zero_append]
  refine Nat.lt_of_lt_of_le (Lib.ofBe_lt _) ?_
  rw [Nat.pow_mul]
  refine Nat.pow_le_pow_right (by decide) ?_
  rw [Lib.length_xorBytes, List.length_take]
  omega

/-- A header determines the packet number length and the key phase that were
parsed from it. -/
theorem parseHeader_fields {dcidLen : Nat} {packet : Bytes} {mask : HpMask} {parsed : ParsedHeader}
    {dcid : Bytes} {pn : Nat} {keyPhase : Bool}
    (h : parseHeader dcidLen packet mask = .ok parsed)
    (hheader : parsed.header = headerBytes dcid pn keyPhase) :
    parsed.pnLen = packetNumberLen pn ∧ parsed.keyPhase = keyPhase := by
  obtain ⟨-, -, -, hpnLen, hphase⟩ := firstByte_fields (packetNumberLen_bounds pn) keyPhase
  simp only [parseHeader] at h
  split_ifs at h with h1 h2 h3 h4
  simp only [Except.ok.injEq] at h
  subst h
  simp only [headerBytes, List.cons_append, List.nil_append, List.cons.injEq] at hheader
  rw [← hheader.1] at hpnLen hphase
  exact ⟨hpnLen, hphase⟩

end Slt.Crypto
