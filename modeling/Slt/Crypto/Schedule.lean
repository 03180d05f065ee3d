import Slt.Crypto.Backend

/-!
# Traffic secrets and key generations

Each direction of a session has a traffic secret, from which HKDF derives the
header-protection key and the packet key. A key update replaces the secret by
the next one of its chain and keeps the header-protection key.
-/

namespace Slt.Crypto

open Lib

variable {ev : Type}

/-! ## Derivation -/

/-- The bytes of `tls13 `. -/
def tls13LabelPrefix : Bytes := [0x74, 0x6c, 0x73, 0x31, 0x33, 0x20]
/-- The bytes of `quic key`. -/
def quicKeyLabel : Bytes := [0x71, 0x75, 0x69, 0x63, 0x20, 0x6b, 0x65, 0x79]
/-- The bytes of `quic iv`. -/
def quicIvLabel : Bytes := [0x71, 0x75, 0x69, 0x63, 0x20, 0x69, 0x76]
/-- The bytes of `quic hp`. -/
def quicHpLabel : Bytes := [0x71, 0x75, 0x69, 0x63, 0x20, 0x68, 0x70]
/-- The bytes of `quic ku`. -/
def quicKuLabel : Bytes := [0x71, 0x75, 0x69, 0x63, 0x20, 0x6b, 0x75]

/-- The loop of `hkdf_expand_sha256_vec`: `out` is what has been produced,
`prev` the last block (empty before the first), `counter` the next block's
number, a byte that must not overflow. -/
def hkdfExpandLoop (boring : Boring) (prk : TrafficSecret) (info : Bytes) (len : Nat)
    (out prev : Bytes) (counter : Nat) : Faulty ev QspCryptoError Bytes :=
  if out.length < len then do
    let block ← Faulty.call .cryptoFail
      (boring.hmacSha256 prk.val (prev ++ info ++ [UInt8.ofNat counter]))
    let out := out ++ block.val.take (min (len - out.length) block.val.length)
    if counter + 1 < 256 then hkdfExpandLoop boring prk info len out block.val (counter + 1)
    else throw .cryptoFail
  else pure out
termination_by 256 - counter

def hkdfExpandSha256Vec (boring : Boring) (prk : TrafficSecret) (info : Bytes) (len : Nat) :
    Faulty ev QspCryptoError Bytes :=
  if len = 0 then pure [] else hkdfExpandLoop boring prk info len [] [] 1

/-- The `HkdfLabel` of TLS 1.3: output length, label and context. -/
def hkdfLabelInfo (label context : Bytes) (len : Nat) : Bytes :=
  beBytes 2 len ++ [UInt8.ofNat (tls13LabelPrefix.length + label.length)] ++ tls13LabelPrefix ++
    label ++ [UInt8.ofNat context.length] ++ context

def hkdfExpandLabelSha256 (boring : Boring) (secret : TrafficSecret) (label context : Bytes)
    (len : Nat) : Faulty ev QspCryptoError Bytes :=
  if len < 2 ^ 16 ∧ tls13LabelPrefix.length + label.length < 2 ^ 8 ∧ context.length < 2 ^ 8 then
    hkdfExpandSha256Vec boring secret (hkdfLabelInfo label context len) len
  else throw .cryptoFail

structure PacketMaterial where
  key : Bytes
  iv : Bytes

def deriveHeaderProtectionKey (boring : Boring) (secret : TrafficSecret) (keyLen : Nat) :
    Faulty ev QspCryptoError Bytes :=
  hkdfExpandLabelSha256 boring secret quicHpLabel [] keyLen

def derivePacketMaterial (boring : Boring) (secret : TrafficSecret) (keyLen ivLen : Nat) :
    Faulty ev QspCryptoError PacketMaterial := do
  let key ← hkdfExpandLabelSha256 boring secret quicKeyLabel [] keyLen
  let iv ← hkdfExpandLabelSha256 boring secret quicIvLabel [] ivLen
  pure ⟨key, iv⟩

def deriveNextSecret (boring : Boring) (secret : TrafficSecret) :
    Faulty ev QspCryptoError TrafficSecret := do
  let bytes ← hkdfExpandLabelSha256 boring secret quicKuLabel [] udpQspTrafficSecretLen
  match FixedBytes.ofBytes? udpQspTrafficSecretLen bytes with
  | some next => pure next
  | none => throw .cryptoFail

/-- What the derivation computes for an output of at most one block. -/
def expandLabel (boring : Boring) (secret : TrafficSecret) (label : Bytes) (len : Nat) : Bytes :=
  (boring.hmacSha256 secret.val (hkdfLabelInfo label [] len ++ [1])).val.take len

theorem length_expandLabel (boring : Boring) (secret : TrafficSecret) (label : Bytes) {len : Nat}
    (h : len ≤ 32) : (expandLabel boring secret label len).length = len := by
  rw [expandLabel, List.length_take_of_le]
  rw [(boring.hmacSha256 _ _).property]
  exact h

theorem quiet_hkdfExpandLoop (boring : Boring) (prk : TrafficSecret) (info : Bytes) (len : Nat)
    (out prev : Bytes) (counter : Nat) :
    Faulty.Quiet (hkdfExpandLoop boring prk info len out prev counter : Faulty ev _ _) := by
  fun_induction hkdfExpandLoop boring prk info len out prev counter with
  | case1 out prev counter hlt ih =>
    refine (Faulty.quiet_call _ _).bind fun block => ?_
    dsimp only
    split
    · exact ih block ‹_›
    · exact Faulty.quiet_throw _
  | case2 => exact Faulty.quiet_pure _

theorem quiet_hkdfExpandLabel (boring : Boring) (secret : TrafficSecret) (label context : Bytes)
    (len : Nat) :
    Faulty.Quiet (hkdfExpandLabelSha256 boring secret label context len : Faulty ev _ _) := by
  refine Faulty.quiet_ite ?_ (Faulty.quiet_throw _)
  exact Faulty.quiet_ite (Faulty.quiet_pure _) (quiet_hkdfExpandLoop ..)

/-- Every output the schedule asks for fits in one block of the hash, so the
loop runs once. -/
theorem yields_hkdfExpandLabel (boring : Boring) (secret : TrafficSecret) {label : Bytes}
    {len : Nat} (hlabel : label.length ≤ 8) (hpos : 0 < len) (hlen : len ≤ 32) :
    Faulty.Yields (hkdfExpandLabelSha256 boring secret label [] len : Faulty ev _ _)
      (expandLabel boring secret label len) := by
  have hguard : len < 2 ^ 16 ∧ tls13LabelPrefix.length + label.length < 2 ^ 8 ∧
      ([] : Bytes).length < 2 ^ 8 := by
    refine ⟨by omega, ?_, by simp⟩
    rw [show tls13LabelPrefix.length = 6 from rfl]
    omega
  have hblock : (boring.hmacSha256 secret.val (hkdfLabelInfo label [] len ++ [1])).val.length =
      32 := (boring.hmacSha256 _ _).property
  rw [hkdfExpandLabelSha256, if_pos hguard, hkdfExpandSha256Vec, if_neg (by omega),
    hkdfExpandLoop, if_pos (by simpa using hpos)]
  refine (Faulty.yields_call _ _).bind ?_
  simp only [List.nil_append, List.length_nil, Nat.sub_zero, UInt8.reduceOfNat, hblock,
    Nat.min_eq_left hlen, Nat.reduceAdd, Nat.reduceLT, ↓reduceIte]
  rw [← expandLabel, hkdfExpandLoop, if_neg (by simp [length_expandLabel _ _ _ hlen])]
  exact Faulty.yields_pure _

/-! ## Directional keys -/

structure DirectionKeys where
  secret : TrafficSecret
  hp : HeaderProtectionKey
  aead : PacketKey
  deriving DecidableEq

namespace DirectionKeys

def fromSecret (boring : Boring) (secret : Bytes) (config : CipherConfig) :
    Faulty ev QspCryptoError DirectionKeys :=
  match FixedBytes.ofBytes? udpQspTrafficSecretLen secret with
  | none => throw .cryptoFail
  | some secret => do
    let hpKey ← deriveHeaderProtectionKey boring secret config.hp.keyLen
    let packet ← derivePacketMaterial boring secret config.aead.keyLen config.ivLen
    let hp ← HeaderProtectionKey.new config.hp hpKey
    let aead ← PacketKey.new packet.key packet.iv config.aead
    pure { secret, hp, aead }

def nextGeneration (boring : Boring) (self : DirectionKeys) (config : CipherConfig) :
    Faulty ev QspCryptoError DirectionKeys := do
  let secret ← deriveNextSecret boring self.secret
  let hp ← self.hp.tryClone
  let packet ← derivePacketMaterial boring secret config.aead.keyLen config.ivLen
  let aead ← PacketKey.new packet.key packet.iv config.aead
  pure { secret, hp, aead }

def tryClone (self : DirectionKeys) : Faulty ev QspCryptoError DirectionKeys := do
  let hp ← self.hp.tryClone
  let aead ← self.aead.tryClone
  pure { secret := self.secret, hp, aead }

end DirectionKeys

/-! ## What the schedule computes -/

theorem CipherConfig.keyLen_bounds (cipher : CipherSuite) :
    (0 < (forSuite cipher).hp.keyLen ∧ (forSuite cipher).hp.keyLen ≤ 32) ∧
      0 < (forSuite cipher).aead.keyLen ∧ (forSuite cipher).aead.keyLen ≤ 32 ∧
      (forSuite cipher).ivLen = aeadIvLen := by
  cases cipher <;> decide

def packetKeyOf (boring : Boring) (cipher : CipherSuite) (secret : TrafficSecret) : PacketKey where
  aead := (CipherConfig.forSuite cipher).aead
  key := ⟨expandLabel boring secret quicKeyLabel (CipherConfig.forSuite cipher).aead.keyLen,
    length_expandLabel _ _ _ (CipherConfig.keyLen_bounds cipher).2.2.1⟩
  iv := ⟨expandLabel boring secret quicIvLabel aeadIvLen,
    length_expandLabel _ _ _ (by decide)⟩

def headerProtectionKeyOf (boring : Boring) (secret : TrafficSecret) :
    CipherSuite → HeaderProtectionKey
  | .aes128Gcm => .aes128 ⟨expandLabel boring secret quicHpLabel hpKeyLen,
      length_expandLabel _ _ _ (by decide)⟩
  | .chaCha20Poly1305 => .chaCha20 ⟨expandLabel boring secret quicHpLabel chaCha20Poly1305KeyLen,
      length_expandLabel _ _ _ (by decide)⟩

def nextSecret (boring : Boring) (secret : TrafficSecret) : TrafficSecret :=
  ⟨expandLabel boring secret quicKuLabel udpQspTrafficSecretLen,
    length_expandLabel _ _ _ (by decide)⟩

namespace DirectionKeys

def ofSecret (boring : Boring) (cipher : CipherSuite) (secret : TrafficSecret) : DirectionKeys where
  secret := secret
  hp := headerProtectionKeyOf boring secret cipher
  aead := packetKeyOf boring cipher secret

def next (boring : Boring) (cipher : CipherSuite) (self : DirectionKeys) : DirectionKeys where
  secret := nextSecret boring self.secret
  hp := self.hp
  aead := packetKeyOf boring cipher (nextSecret boring self.secret)

end DirectionKeys

section

variable (boring : Boring) (secret : TrafficSecret)

theorem quiet_derivePacketMaterial (keyLen ivLen : Nat) :
    Faulty.Quiet (derivePacketMaterial boring secret keyLen ivLen : Faulty ev _ _) :=
  (quiet_hkdfExpandLabel ..).bind fun _ =>
    (quiet_hkdfExpandLabel ..).bind fun _ => Faulty.quiet_pure _

theorem quiet_deriveNextSecret : Faulty.Quiet (deriveNextSecret boring secret : Faulty ev _ _) := by
  refine (quiet_hkdfExpandLabel ..).bind fun bytes => ?_
  cases FixedBytes.ofBytes? udpQspTrafficSecretLen bytes with
  | none => exact Faulty.quiet_throw _
  | some next => exact Faulty.quiet_pure _

theorem yields_derivePacketMaterial {keyLen : Nat} (hpos : 0 < keyLen) (hlen : keyLen ≤ 32) :
    Faulty.Yields (derivePacketMaterial boring secret keyLen aeadIvLen : Faulty ev _ _)
      ⟨expandLabel boring secret quicKeyLabel keyLen,
        expandLabel boring secret quicIvLabel aeadIvLen⟩ :=
  (yields_hkdfExpandLabel _ _ (by decide) hpos hlen).bind
    ((yields_hkdfExpandLabel _ _ (by decide) (by decide) (by decide)).bind
      (Faulty.yields_pure _))

theorem yields_deriveNextSecret :
    Faulty.Yields (deriveNextSecret boring secret : Faulty ev _ _) (nextSecret boring secret) := by
  refine (yields_hkdfExpandLabel _ _ (by decide) (by decide) (by decide)).bind ?_
  rw [FixedBytes.ofBytes?_of_length (length_expandLabel _ _ _ (by decide))]
  exact Faulty.yields_pure _

end

theorem yields_packetKeyOf (boring : Boring) (cipher : CipherSuite) (secret : TrafficSecret) :
    Faulty.Yields (PacketKey.new
        (expandLabel boring secret quicKeyLabel (CipherConfig.forSuite cipher).aead.keyLen)
        (expandLabel boring secret quicIvLabel aeadIvLen)
        (CipherConfig.forSuite cipher).aead : Faulty ev _ _)
      (packetKeyOf boring cipher secret) :=
  PacketKey.yields_tryClone (packetKeyOf boring cipher secret)

namespace DirectionKeys

theorem quiet_nextGeneration (boring : Boring) (self : DirectionKeys) (config : CipherConfig) :
    Faulty.Quiet (nextGeneration boring self config : Faulty ev _ _) :=
  (quiet_deriveNextSecret ..).bind fun _ =>
    (HeaderProtectionKey.quiet_tryClone _).bind fun _ =>
      (quiet_derivePacketMaterial ..).bind fun _ =>
        (PacketKey.quiet_new ..).bind fun _ => Faulty.quiet_pure _

theorem quiet_tryClone (self : DirectionKeys) : Faulty.Quiet (tryClone self : Faulty ev _ _) :=
  (HeaderProtectionKey.quiet_tryClone _).bind fun _ =>
    (PacketKey.quiet_new ..).bind fun _ => Faulty.quiet_pure _

theorem yields_tryClone (self : DirectionKeys) :
    Faulty.Yields (tryClone self : Faulty ev _ _) self :=
  (HeaderProtectionKey.yields_tryClone _).bind
    ((PacketKey.yields_tryClone _).bind (Faulty.yields_pure _))

theorem yields_nextGeneration (boring : Boring) (cipher : CipherSuite) (self : DirectionKeys) :
    Faulty.Yields (nextGeneration boring self (CipherConfig.forSuite cipher) : Faulty ev _ _)
      (self.next boring cipher) := by
  obtain ⟨-, hpos, hlen, hiv⟩ := CipherConfig.keyLen_bounds cipher
  rw [nextGeneration, hiv]
  exact (yields_deriveNextSecret _ _).bind ((HeaderProtectionKey.yields_tryClone _).bind
    ((yields_derivePacketMaterial _ _ hpos hlen).bind
      ((yields_packetKeyOf ..).bind (Faulty.yields_pure _))))

theorem yields_fromSecret (boring : Boring) (cipher : CipherSuite) (secret : TrafficSecret) :
    Faulty.Yields (fromSecret boring secret.val (CipherConfig.forSuite cipher) : Faulty ev _ _)
      (ofSecret boring cipher secret) := by
  obtain ⟨⟨hhpPos, hhpLen⟩, hpos, hlen, hiv⟩ := CipherConfig.keyLen_bounds cipher
  simp only [fromSecret, FixedBytes.ofBytes?_val, hiv]
  refine (yields_hkdfExpandLabel _ _ (by decide) hhpPos hhpLen).bind
    ((yields_derivePacketMaterial _ _ hpos hlen).bind ?_)
  refine Faulty.Yields.bind (a := headerProtectionKeyOf boring secret cipher) ?_
    ((yields_packetKeyOf ..).bind (Faulty.yields_pure _))
  cases cipher with
  | aes128Gcm =>
    exact HeaderProtectionKey.yields_tryClone (headerProtectionKeyOf boring secret .aes128Gcm)
  | chaCha20Poly1305 =>
    exact HeaderProtectionKey.yields_tryClone
      (headerProtectionKeyOf boring secret .chaCha20Poly1305)

end DirectionKeys

end Slt.Crypto
