import Slt.Crypto.Schedule

/-!
# Packet protection keys

The keys of a session: one set for each direction. `protectInto` seals a
payload into a short-header packet and protects the header; `openIntoInner`
undoes both. Every call of the AEAD's seal function is recorded, with what it
was given, whether or not it then succeeds.
-/

namespace Slt.Crypto

open Lib

/-- What a call of the AEAD's seal function is given. The nonce is that of
`pn` under the IV of `keys`. -/
structure SealCall where
  keys : DirectionKeys
  pn : Nat
  keyPhase : Bool
  ad : Bytes
  plaintext : Bytes
  deriving DecidableEq

def SealCall.nonce (call : SealCall) : Nonce := makeNonce call.keys.aead.iv call.pn

/-- What a session does that others can observe: seal calls, and packets
handed to the I/O layer. -/
inductive SessionEvent where
  | seal (call : SealCall)
  | transmit (packet : Bytes)
  deriving DecidableEq

abbrev QspTape := Tape SessionEvent
abbrev CryptoM := Faulty SessionEvent QspCryptoError

structure OpenedPacket where
  pn : Nat
  pnLen : Nat
  keyPhase : Bool
  payload : Bytes
  deriving DecidableEq

structure UdpQspKeys where
  cipher : CipherSuite
  tx : DirectionKeys
  rx : DirectionKeys
  deriving DecidableEq

namespace UdpQspKeys

def new (boring : Boring) (cipher : CipherSuite) (secretTx secretRx : Bytes) :
    CryptoM UdpQspKeys := do
  let config := CipherConfig.forSuite cipher
  let tx ← DirectionKeys.fromSecret boring secretTx config
  let rx ← DirectionKeys.fromSecret boring secretRx config
  pure { cipher, tx, rx }

def tryClone (self : UdpQspKeys) : CryptoM UdpQspKeys := do
  let tx ← self.tx.tryClone
  let rx ← self.rx.tryClone
  pure { cipher := self.cipher, tx, rx }

def withNextTxKeys (boring : Boring) (self : UdpQspKeys) : CryptoM UdpQspKeys := do
  let config := CipherConfig.forSuite self.cipher
  let tx ← self.tx.nextGeneration boring config
  let rx ← self.rx.tryClone
  pure { cipher := self.cipher, tx, rx }

def withNextRxKeys (boring : Boring) (self : UdpQspKeys) : CryptoM UdpQspKeys := do
  let config := CipherConfig.forSuite self.cipher
  let tx ← self.tx.tryClone
  let rx ← self.rx.nextGeneration boring config
  pure { cipher := self.cipher, tx, rx }

def protectInto (boring : Boring) (self : UdpQspKeys) (dcid : Bytes) (pn : Nat) (keyPhase : Bool)
    (plaintext : Bytes) : CryptoM Bytes := do
  let pnLen := packetNumberLen pn
  let headerLen := 1 + dcid.length + pnLen
  let minCipherLen := hpSampleEnd dcid.length - headerLen
  let padLen := minCipherLen - (plaintext.length + aeadTagLen)
  let (header, out) ← Faulty.ofExcept (buildHeader dcid pn keyPhase [])
  let headerLen := out.length
  let padded := plaintext ++ List.replicate padLen 0
  Faulty.emit (.seal ⟨self.tx, pn, keyPhase, out.take headerLen, padded⟩)
  let out ← self.tx.aead.sealInto boring pn headerLen padded out
  Faulty.ofExcept (requireHpSample out dcid.length)
  let mask ← Faulty.ofExcept (self.tx.hp.mask boring (hpSample out dcid.length))
  Faulty.ofExcept (applyHeaderProtection out header.pnOffset header.pnLen mask)

def openIntoInner (boring : Boring) (rx : DirectionKeys) (dcidLen : Nat) (packet : Bytes)
    (expectedPn : Nat) : CryptoM OpenedPacket := do
  Faulty.ofExcept (requireHpSample packet dcidLen)
  let mask ← Faulty.ofExcept (rx.hp.mask boring (hpSample packet dcidLen))
  let parsed ← Faulty.ofExcept (parseHeader dcidLen packet mask)
  if packet.length < parsed.header.length + aeadTagLen then throw .packetTooShort
  else
    let pn := reconstructPacketNumber parsed.pn expectedPn parsed.pnLen
    let payload ← rx.aead.openInto boring pn parsed.header (packet.drop parsed.header.length)
    pure { pn, pnLen := parsed.pnLen, keyPhase := parsed.keyPhase, payload }

def openInto (boring : Boring) (self : UdpQspKeys) (dcidLen : Nat) (packet : Bytes)
    (expectedPn : Nat) : CryptoM OpenedPacket :=
  openIntoInner boring self.rx dcidLen packet expectedPn

/-! ## Key updates -/

theorem yields_new (boring : Boring) (cipher : CipherSuite) (secretTx secretRx : TrafficSecret) :
    Faulty.Yields (new boring cipher secretTx.val secretRx.val)
      ⟨cipher, .ofSecret boring cipher secretTx, .ofSecret boring cipher secretRx⟩ :=
  (DirectionKeys.yields_fromSecret ..).bind
    ((DirectionKeys.yields_fromSecret ..).bind (Faulty.yields_pure _))

theorem yields_tryClone (self : UdpQspKeys) : Faulty.Yields (tryClone self) self :=
  (DirectionKeys.yields_tryClone _).bind
    ((DirectionKeys.yields_tryClone _).bind (Faulty.yields_pure _))

theorem yields_withNextTxKeys (boring : Boring) (self : UdpQspKeys) :
    Faulty.Yields (withNextTxKeys boring self)
      { self with tx := self.tx.next boring self.cipher } :=
  (DirectionKeys.yields_nextGeneration ..).bind
    ((DirectionKeys.yields_tryClone _).bind (Faulty.yields_pure _))

theorem yields_withNextRxKeys (boring : Boring) (self : UdpQspKeys) :
    Faulty.Yields (withNextRxKeys boring self)
      { self with rx := self.rx.next boring self.cipher } :=
  (DirectionKeys.yields_tryClone _).bind
    ((DirectionKeys.yields_nextGeneration ..).bind (Faulty.yields_pure _))

theorem quiet_tryClone (self : UdpQspKeys) : Faulty.Quiet (tryClone self) :=
  (DirectionKeys.quiet_tryClone _).bind fun _ =>
    (DirectionKeys.quiet_tryClone _).bind fun _ => Faulty.quiet_pure _

theorem quiet_withNextTxKeys (boring : Boring) (self : UdpQspKeys) :
    Faulty.Quiet (withNextTxKeys boring self) :=
  (DirectionKeys.quiet_nextGeneration ..).bind fun _ =>
    (DirectionKeys.quiet_tryClone _).bind fun _ => Faulty.quiet_pure _

theorem quiet_withNextRxKeys (boring : Boring) (self : UdpQspKeys) :
    Faulty.Quiet (withNextRxKeys boring self) :=
  (DirectionKeys.quiet_tryClone _).bind fun _ =>
    (DirectionKeys.quiet_nextGeneration ..).bind fun _ => Faulty.quiet_pure _

end UdpQspKeys

/-! ## Sealed packets -/

/-- The zero bytes a short payload is filled up with, so that the packet is
long enough for the header-protection sample. -/
def padding (pn : Nat) (payload : Bytes) : Bytes :=
  List.replicate (4 - packetNumberLen pn - payload.length) 0

def sealCallOf (keys : DirectionKeys) (dcid : Bytes) (pn : Nat) (keyPhase : Bool)
    (payload : Bytes) : SealCall :=
  ⟨keys, pn, keyPhase, headerBytes dcid pn keyPhase, payload ++ padding pn payload⟩

def SealCall.ciphertext (boring : Boring) (call : SealCall) : Bytes :=
  (boring.aeadSeal call.keys.aead.aead call.keys.aead.key call.nonce call.ad call.plaintext).val

@[simp] theorem SealCall.length_ciphertext (boring : Boring) (call : SealCall) :
    (call.ciphertext boring).length = call.plaintext.length + aeadTagLen :=
  (boring.aeadSeal ..).property

def maskOf (boring : Boring) (hp : HeaderProtectionKey) (sample : Bytes) : HpMask :=
  match hp.mask boring sample with
  | .ok mask => mask
  | .error _ => FixedBytes.replicate hpMaskLen 0

theorem mask_eq_maskOf (boring : Boring) (hp : HeaderProtectionKey) {sample : Bytes}
    (h : sample.length = hpSampleLen) : hp.mask boring sample = .ok (maskOf boring hp sample) := by
  obtain ⟨mask, hmask⟩ := HeaderProtectionKey.mask_ok boring hp h
  rw [maskOf, hmask]

def packetOf (boring : Boring) (dcid : Bytes) (call : SealCall) : Bytes :=
  let ciphertext := call.ciphertext boring
  let sample := hpSample (headerBytes dcid call.pn call.keyPhase ++ ciphertext) dcid.length
  protectedPacket dcid call.pn call.keyPhase ciphertext (maskOf boring call.keys.hp sample)

section
variable (boring : Boring) (keys : DirectionKeys) (dcid : Bytes) (pn : Nat) (keyPhase : Bool)
  (payload : Bytes)

theorem sealed_long_enough :
    hpSampleEnd dcid.length ≤ (headerBytes dcid pn keyPhase ++
      (sealCallOf keys dcid pn keyPhase payload).ciphertext boring).length := by
  have hlen := packetNumberLen_bounds pn
  simp [hpSampleEnd, sampleOffset, hpSampleLen, aeadTagLen, sealCallOf, padding]
  omega

/-- The packet carries what was sealed: its length, its sample and its
ciphertext are those of the unprotected packet, and its header parses back. -/
theorem parse_packetOf :
    let call := sealCallOf keys dcid pn keyPhase payload
    let packet := packetOf boring dcid call
    requireHpSample packet dcid.length = .ok () ∧
      (∃ mask, keys.hp.mask boring (hpSample packet dcid.length) = .ok mask ∧
        parseHeader dcid.length packet mask =
          .ok ⟨pn % 2 ^ (8 * packetNumberLen pn), packetNumberLen pn, keyPhase, call.ad⟩) ∧
      packet.drop call.ad.length = call.ciphertext boring ∧
      call.ad.length + aeadTagLen ≤ packet.length := by
  intro call packet
  have hlong := sealed_long_enough boring keys dcid pn keyPhase payload
  have hsample := hpSample_protectedPacket dcid pn keyPhase (call.ciphertext boring)
    (maskOf boring keys.hp (hpSample (headerBytes dcid pn keyPhase ++ call.ciphertext boring)
      dcid.length))
  have hmask := mask_eq_maskOf boring keys.hp (length_hpSample hlong)
  refine ⟨?_, ⟨_, ?_, parseHeader_protectedPacket _ _ _ _ _ ?_⟩, drop_protectedPacket .., ?_⟩
  · apply requireHpSample_ok
    simp only [packet, packetOf, length_protectedPacket]
    rwa [List.length_append, length_headerBytes] at hlong
  · exact (congrArg _ hsample).trans hmask
  · simp
  · simp [packet, packetOf, call, sealCallOf]

end

namespace UdpQspKeys

theorem protectInto_run (boring : Boring) (self : UdpQspKeys) (dcid : Bytes) (pn : Nat)
    (keyPhase : Bool) (payload : Bytes) (t : QspTape) :
    let call := sealCallOf self.tx dcid pn keyPhase payload
    (protectInto boring self dcid pn keyPhase payload).run t =
      Faulty.run (Faulty.call .cryptoFail (packetOf boring dcid call))
        { t with log := t.log ++ [.seal call] } := by
  intro call
  have hpad : hpSampleEnd dcid.length - (1 + dcid.length + packetNumberLen pn) -
      (payload.length + aeadTagLen) = 4 - packetNumberLen pn - payload.length := by
    unfold hpSampleEnd sampleOffset hpSampleLen aeadTagLen
    omega
  have hlong : hpSampleEnd dcid.length ≤
      (headerBytes dcid pn keyPhase ++ call.ciphertext boring).length :=
    sealed_long_enough boring self.tx dcid pn keyPhase payload
  have hmask := mask_eq_maskOf boring self.tx.hp (length_hpSample hlong)
  unfold protectInto
  dsimp only
  rw [hpad, Faulty.run_bind, Faulty.run_ofExcept, buildHeader_eq]
  simp only [List.nil_append, List.take_length]
  rw [Faulty.run_bind, Faulty.run_emit]
  refine Faulty.run_call_bind (fun t => ?_) _
  rw [← padding, List.take_length]
  change Faulty.run (do
    Faulty.ofExcept (requireHpSample (headerBytes dcid pn keyPhase ++ call.ciphertext boring)
      dcid.length)
    let mask ← Faulty.ofExcept (self.tx.hp.mask boring
      (hpSample (headerBytes dcid pn keyPhase ++ call.ciphertext boring) dcid.length))
    Faulty.ofExcept (applyHeaderProtection (headerBytes dcid pn keyPhase ++ call.ciphertext boring)
      (1 + dcid.length) (packetNumberLen pn) mask)) t = _
  simp only [Faulty.run_bind, Faulty.run_ofExcept, requireHpSample_ok hlong, hmask,
    applyHeaderProtection_eq]
  rfl

theorem quiet_openIntoInner (boring : Boring) (rx : DirectionKeys) (dcidLen : Nat)
    (packet : Bytes) (expectedPn : Nat) :
    Faulty.Quiet (openIntoInner boring rx dcidLen packet expectedPn) := by
  refine (Faulty.quiet_ofExcept _).bind fun _ => (Faulty.quiet_ofExcept _).bind fun mask =>
    (Faulty.quiet_ofExcept _).bind fun parsed => Faulty.quiet_ite (Faulty.quiet_throw _) ?_
  exact (PacketKey.quiet_openInto ..).bind fun _ => Faulty.quiet_pure _

/-- What an opened packet was: a header that parses under the mask of the
packet's sample, and a ciphertext that opens under the nonce of the packet
number completed from the header. -/
theorem openIntoInner_ok {boring : Boring} {rx : DirectionKeys} {dcidLen : Nat} {packet : Bytes}
    {expectedPn : Nat} {t t' : QspTape} {opened : OpenedPacket}
    (h : (openIntoInner boring rx dcidLen packet expectedPn).run t = (.ok opened, t')) :
    ∃ mask parsed, rx.hp.mask boring (hpSample packet dcidLen) = .ok mask ∧
      parseHeader dcidLen packet mask = .ok parsed ∧
      opened.pn = reconstructPacketNumber parsed.pn expectedPn parsed.pnLen ∧
      opened.pnLen = parsed.pnLen ∧ opened.keyPhase = parsed.keyPhase ∧
      boring.aeadOpen rx.aead.aead rx.aead.key (makeNonce rx.aead.iv opened.pn) parsed.header
        (packet.drop parsed.header.length) = some opened.payload := by
  obtain ⟨_, t₁, -, h⟩ := Faulty.run_bind_ok h
  obtain ⟨mask, t₂, hmask, h⟩ := Faulty.run_bind_ok h
  obtain ⟨parsed, t₃, hparsed, h⟩ := Faulty.run_bind_ok h
  rw [Faulty.run_ofExcept, Prod.mk.injEq] at hmask hparsed
  split_ifs at h with hshort
  · simp at h
  obtain ⟨payload, t₄, hpayload, h⟩ := Faulty.run_bind_ok h
  simp only [Faulty.run_pure, Prod.mk.injEq, Except.ok.injEq] at h
  obtain ⟨rfl, -⟩ := h
  exact ⟨mask, parsed, hmask.1, hparsed.1, rfl, rfl, rfl, PacketKey.openInto_ok hpayload⟩

/-- A genuine packet is opened by keys of its direction that open its
ciphertext, if its number is completed from the expected one. -/
theorem yields_openIntoInner_of {boring : Boring} {rx keys : DirectionKeys} {dcid : Bytes}
    {pn : Nat} {keyPhase : Bool} {payload plaintext : Bytes} {expectedPn : Nat} (sealer : Boring)
    (hhp : ∀ sample, rx.hp.mask boring sample = keys.hp.mask sealer sample)
    (hpn : reconstructPacketNumber (pn % 2 ^ (8 * packetNumberLen pn)) expectedPn
      (packetNumberLen pn) = pn)
    (hopen : boring.aeadOpen rx.aead.aead rx.aead.key (makeNonce rx.aead.iv pn)
      (headerBytes dcid pn keyPhase)
      ((sealCallOf keys dcid pn keyPhase payload).ciphertext sealer) = some plaintext) :
    Faulty.Yields (openIntoInner boring rx dcid.length
        (packetOf sealer dcid (sealCallOf keys dcid pn keyPhase payload)) expectedPn)
      ⟨pn, packetNumberLen pn, keyPhase, plaintext⟩ := by
  obtain ⟨hsample, ⟨mask, hmask, hparse⟩, hdrop, hlen⟩ :=
    parse_packetOf sealer keys dcid pn keyPhase payload
  refine (Faulty.yields_ofExcept hsample).bind
    ((Faulty.yields_ofExcept ((hhp _).trans hmask)).bind
      ((Faulty.yields_ofExcept hparse).bind ?_))
  simp only [if_neg (Nat.not_lt.mpr hlen), hpn, hdrop]
  refine (PacketKey.yields_openInto ?_ hopen).bind (Faulty.yields_pure _)
  simp

/-- In particular if its number is within half a window of the expected one. -/
theorem yields_openIntoInner {boring : Boring} {rx keys : DirectionKeys} {dcid : Bytes} {pn : Nat}
    {keyPhase : Bool} {payload plaintext : Bytes} {expectedPn : Nat} (sealer : Boring)
    (hhp : ∀ sample, rx.hp.mask boring sample = keys.hp.mask sealer sample)
    (hpn : pn < 2 ^ 64) (hexpected : expectedPn < 2 ^ 64) (hrec : Reconstructible pn expectedPn)
    (hopen : boring.aeadOpen rx.aead.aead rx.aead.key (makeNonce rx.aead.iv pn)
      (headerBytes dcid pn keyPhase)
      ((sealCallOf keys dcid pn keyPhase payload).ciphertext sealer) = some plaintext) :
    Faulty.Yields (openIntoInner boring rx dcid.length
        (packetOf sealer dcid (sealCallOf keys dcid pn keyPhase payload)) expectedPn)
      ⟨pn, packetNumberLen pn, keyPhase, plaintext⟩ :=
  yields_openIntoInner_of sealer hhp (reconstruct_of_reconstructible hpn hexpected hrec) hopen

end UdpQspKeys

end Slt.Crypto
