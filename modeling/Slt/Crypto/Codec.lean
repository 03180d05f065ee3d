import Slt.Crypto.Keys
import Slt.Proto.Frame

/-!
# The packet codec

What protecting a payload and opening the packet give together: the packet
number, its length, the key phase and the payload come back, the payload filled
up with zeros that the message decoder does not see; and the packet is told by
its first bytes from other QUIC traffic.
-/

namespace Slt.Crypto

open Lib Proto

/-! ## Classification -/

inductive QuicVerdict where
  | drop
  | pass
  | short (dcidPrefix : CidPrefix)
  deriving DecidableEq

def classifyQuicDatagram (input : Bytes) : QuicVerdict :=
  match input with
  | [] => .drop
  | first :: rest =>
    if first &&& 0x40 = 0 then .drop
    else if first &&& 0x80 ≠ 0 then .pass
    else if h : quicDcidPrefixLen ≤ rest.length then
      .short ⟨rest.take quicDcidPrefixLen, List.length_take_of_le h⟩
    else .drop

/-- Header protection leaves the two bits alone that say what a packet is. -/
theorem masked_firstByte {len : Nat} (h : 1 ≤ len ∧ len ≤ 4) (keyPhase : Bool) (m : UInt8) :
    (firstByte len keyPhase ^^^ (m &&& 0x1f)) &&& 0x40 ≠ 0 ∧
      (firstByte len keyPhase ^^^ (m &&& 0x1f)) &&& 0x80 = 0 := by
  have hall : ∀ keyPhase : Bool, ∀ len : Fin 5, 1 ≤ len → ∀ n : Fin 256,
      (firstByte len keyPhase ^^^ (UInt8.ofNat n &&& 0x1f)) &&& 0x40 ≠ 0 ∧
        (firstByte len keyPhase ^^^ (UInt8.ofNat n &&& 0x1f)) &&& 0x80 = 0 := by decide +kernel
  have hm := hall keyPhase ⟨len, by omega⟩ h.1 ⟨m.toNat, m.toNat_lt⟩
  rwa [UInt8.ofNat_toNat] at hm

/-- A packet is short, with the prefix of its connection id, whatever the mask. -/
theorem classify_protectedPacket {cid : Cid} {dcidPrefix : CidPrefix}
    (hcid : cid.prefixOf = .ok dcidPrefix) (pn : Nat) (keyPhase : Bool) (ciphertext : Bytes)
    (mask : HpMask) :
    classifyQuicDatagram (protectedPacket cid.bytes pn keyPhase ciphertext mask) =
      .short dcidPrefix := by
  obtain ⟨hfixed, hlong⟩ :=
    masked_firstByte (packetNumberLen_bounds pn) keyPhase (mask.val.headD 0)
  unfold Cid.prefixOf at hcid
  split at hcid
  · rename_i hlen
    obtain rfl := Except.ok.inj hcid
    have hlen' : quicDcidPrefixLen ≤
        (cid.bytes ++ xorBytes (pnBytes pn) (mask.val.drop 1) ++ ciphertext).length := by
      rw [List.append_assoc, List.length_append]
      exact Nat.le_add_right_of_le hlen
    have htake : (cid.bytes ++ xorBytes (pnBytes pn) (mask.val.drop 1) ++ ciphertext).take
        quicDcidPrefixLen = cid.bytes.take quicDcidPrefixLen := by
      rw [List.append_assoc, List.take_append_of_le_length hlen]
    simp only [classifyQuicDatagram, protectedPacket, List.cons_append, List.nil_append,
      if_neg hfixed, if_neg (not_not_intro hlong), dif_pos hlen', htake]
  · cases hcid

/-! ## Padded messages -/

/-- The decoder sees a message in front of anything, and its own bytes only. -/
theorem decodePaddedMessage_encoded {message : Frame} {limits : MessageLimits} {bytes : Bytes}
    (hfits : message.Fits limits) (hencode : encodeMessage message [] = .ok bytes) (more : Bytes) :
    decodePaddedMessage (bytes ++ more) limits = .ok (some (message, bytes)) := by
  obtain ⟨hlen, rfl⟩ := encodeMessage_ok hencode
  rw [List.nil_append] at *
  simp only [decodePaddedMessage, decodeMessage, decodeFrame_bytes hlen hfits.1,
    hfits.not_dataTooLarge, Bool.false_eq_true, if_false, List.take_left]

/-! ## Round trip -/

namespace UdpQspKeys

/-- Protecting a payload gives a packet, unless the library's seal call fails. -/
theorem yields_protectInto (boring : Boring) (self : UdpQspKeys) (dcid : Bytes) (pn : Nat)
    (keyPhase : Bool) (payload : Bytes) :
    Faulty.Yields (protectInto boring self dcid pn keyPhase payload)
      (packetOf boring dcid (sealCallOf self.tx dcid pn keyPhase payload)) := by
  constructor
  · intro log
    rw [protectInto_run]
    exact ⟨_, rfl⟩
  · intro t t' packet h
    rw [protectInto_run] at h
    exact (Faulty.yields_call _ _).success h

theorem protectInto_error {boring : Boring} {self : UdpQspKeys} {dcid : Bytes} {pn : Nat}
    {keyPhase : Bool} {payload : Bytes} {t t' : QspTape} {e : QspCryptoError}
    (h : (protectInto boring self dcid pn keyPhase payload).run t = (.error e, t')) :
    e = .cryptoFail ∧ t.faults ≠ [] := by
  rw [protectInto_run] at h
  rcases Faulty.run_call QspCryptoError.cryptoFail _ _ with hr | ⟨hfaults, hr⟩
  · rw [hr] at h
    exact nomatch h
  · rw [hr, Prod.mk.injEq, Except.error.injEq] at h
    exact ⟨h.1.symm, hfaults⟩

end UdpQspKeys

/-- Opening undoes sealing, under the same key, nonce and header. -/
def Boring.OpensSealed (boring : Boring) : Prop :=
  ∀ kind key nonce ad plaintext,
    boring.aeadOpen kind key nonce ad (boring.aeadSeal kind key nonce ad plaintext).val =
      some plaintext

/-- The codec is exact. With keys from matching secrets, protecting a payload
fails only if the library's seal does, and without a failure the packet opens to
the payload with its padding. A message in it is decoded with exactly its own
bytes, and the packet is routed by its connection id. -/
theorem packet_codec_round_trip {boring : Boring} (haead : boring.OpensSealed)
    {cipher : CipherSuite} {secretTx secretRx : TrafficSecret} {sender receiver : UdpQspKeys}
    {t₁ t₁' t₂ t₂' : QspTape}
    (hsender : (UdpQspKeys.new boring cipher secretTx.val secretRx.val).run t₁ = (.ok sender, t₁'))
    (hreceiver :
      (UdpQspKeys.new boring cipher secretRx.val secretTx.val).run t₂ = (.ok receiver, t₂'))
    (cid : Cid) (pn : Nat) (keyPhase : Bool) (plaintext : Bytes) :
    (∀ t t' e, (sender.protectInto boring cid.bytes pn keyPhase plaintext).run t = (.error e, t') →
      e = .cryptoFail ∧ t.faults ≠ []) ∧
    ∃ packet, Faulty.Yields (sender.protectInto boring cid.bytes pn keyPhase plaintext) packet ∧
      (∀ expectedPn,
        reconstructPacketNumber (pn % 2 ^ (8 * packetNumberLen pn)) expectedPn
          (packetNumberLen pn) = pn →
        Faulty.Yields (receiver.openInto boring cid.len packet expectedPn)
          ⟨pn, packetNumberLen pn, keyPhase, plaintext ++
            List.replicate (4 - packetNumberLen pn - plaintext.length) 0⟩) ∧
      (∀ message limits, message.Fits limits → encodeMessage message [] = .ok plaintext →
        decodePaddedMessage (plaintext ++
            List.replicate (4 - packetNumberLen pn - plaintext.length) 0) limits =
          .ok (some (message, plaintext))) ∧
      ∀ dcidPrefix, cid.prefixOf = .ok dcidPrefix →
        classifyQuicDatagram packet = .short dcidPrefix := by
  have htx : receiver.rx = sender.tx := by
    rw [(UdpQspKeys.yields_new ..).success hsender, (UdpQspKeys.yields_new ..).success hreceiver]
  refine ⟨fun t t' e h => UdpQspKeys.protectInto_error h, _, UdpQspKeys.yields_protectInto .., ?_,
    fun message limits hfits hencode => decodePaddedMessage_encoded hfits hencode _,
    fun dcidPrefix hcid => classify_protectedPacket hcid ..⟩
  intro expectedPn hrec
  rw [UdpQspKeys.openInto, htx]
  exact UdpQspKeys.yields_openIntoInner_of boring (fun _ => rfl) hrec (haead ..)

theorem length_tagged (plaintext : Bytes) :
    (plaintext ++ List.replicate aeadTagLen 0).length = plaintext.length + aeadTagLen := by
  rw [List.length_append, List.length_replicate]

/-- A backend that leaves the payload in the clear, with a tag of zeros. -/
def clearBoring : Boring where
  hmacSha256 _ _ := FixedBytes.replicate 32 0
  aesEncrypt _ sample := sample
  chaCha20 _ _ _ plaintext := .self plaintext
  aeadSeal _ _ _ _ plaintext := ⟨plaintext ++ List.replicate aeadTagLen 0, length_tagged plaintext⟩
  aeadOpen _ _ _ _ ciphertext := some (ciphertext.take (ciphertext.length - aeadTagLen))

theorem opensSealed_clearBoring : clearBoring.OpensSealed := by
  intro kind key nonce ad plaintext
  simp [clearBoring]

def clearKeys : UdpQspKeys :=
  ⟨.aes128Gcm, .ofSecret clearBoring .aes128Gcm (FixedBytes.replicate _ 0),
    .ofSecret clearBoring .aes128Gcm (FixedBytes.replicate _ 0)⟩

/-- An empty payload under the shortest packet number gets three bytes of
padding. -/
theorem packet_codec_round_trip_empty :
    ∃ packet, Faulty.Yields
        (clearKeys.protectInto clearBoring (List.replicate 20 7) 5 true []) packet ∧
      Faulty.Yields (clearKeys.openInto clearBoring 20 packet 3) ⟨5, 1, true, [0, 0, 0]⟩ ∧
      classifyQuicDatagram packet = .short (FixedBytes.replicate _ 7) := by
  obtain ⟨t, hkeys⟩ := (UdpQspKeys.yields_new clearBoring .aes128Gcm
    (FixedBytes.replicate _ 0) (FixedBytes.replicate _ 0)).clean []
  obtain ⟨packet, hprotect, hopen, -, hclassify⟩ :=
    (packet_codec_round_trip opensSealed_clearBoring hkeys hkeys
      ⟨List.replicate 20 7, by decide⟩ 5 true []).2
  exact ⟨packet, hprotect, hopen 3 (by decide), hclassify _ rfl⟩

end Slt.Crypto
