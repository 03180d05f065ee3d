import Slt.Lib.Faulty
import Slt.Types
import Slt.Crypto.Packet

/-!
# The packet-protection backend

The primitives of BoringSSL are a parameter: functions of their inputs, with
the lengths the library documents for its outputs. Setting up a key and
sealing can also fail for reasons of the library's own (`Faulty`).
-/

namespace Slt.Crypto

open Lib

def aeadKeyLen : Nat := 16
def hpKeyLen : Nat := 16
def chaCha20Poly1305KeyLen : Nat := 32
def aeadIvLen : Nat := 12

inductive AeadKind where
  | aes128Gcm
  | chaCha20Poly1305
  deriving DecidableEq, Repr

inductive HeaderProtectionKind where
  | aes128
  | chaCha20
  deriving DecidableEq, Repr

def AeadKind.keyLen : AeadKind → Nat
  | .aes128Gcm => aeadKeyLen
  | .chaCha20Poly1305 => chaCha20Poly1305KeyLen

def HeaderProtectionKind.keyLen : HeaderProtectionKind → Nat
  | .aes128 => hpKeyLen
  | .chaCha20 => chaCha20Poly1305KeyLen

abbrev Nonce := FixedBytes aeadIvLen

/-- The primitives taken from BoringSSL. Opening gives nothing when the
authentication tag does not match. -/
structure Boring where
  hmacSha256 : Bytes → Bytes → FixedBytes 32
  aesEncrypt : FixedBytes hpKeyLen → FixedBytes hpSampleLen → FixedBytes hpSampleLen
  chaCha20 : FixedBytes chaCha20Poly1305KeyLen → Bytes → Nat → (plaintext : Bytes) →
    FixedBytes plaintext.length
  aeadSeal : (kind : AeadKind) → FixedBytes kind.keyLen → Nonce → Bytes → (plaintext : Bytes) →
    FixedBytes (plaintext.length + aeadTagLen)
  aeadOpen : (kind : AeadKind) → FixedBytes kind.keyLen → Nonce → Bytes → Bytes → Option Bytes

structure CipherConfig where
  hp : HeaderProtectionKind
  aead : AeadKind
  ivLen : Nat

def CipherConfig.forSuite : CipherSuite → CipherConfig
  | .aes128Gcm => ⟨.aes128, .aes128Gcm, aeadIvLen⟩
  | .chaCha20Poly1305 => ⟨.chaCha20, .chaCha20Poly1305, aeadIvLen⟩

variable {ev : Type}

/-! ## Header protection keys -/

inductive HeaderProtectionKey where
  | aes128 (key : FixedBytes hpKeyLen)
  | chaCha20 (key : FixedBytes chaCha20Poly1305KeyLen)
  deriving DecidableEq

namespace HeaderProtectionKey

def new (kind : HeaderProtectionKind) (key : Bytes) :
    Faulty ev QspCryptoError HeaderProtectionKey :=
  match kind with
  | .aes128 =>
    match FixedBytes.ofBytes? hpKeyLen key with
    | none => throw .cryptoFail
    -- `AES_set_encrypt_key`
    | some key => Faulty.call .cryptoFail (.aes128 key)
  | .chaCha20 =>
    match FixedBytes.ofBytes? chaCha20Poly1305KeyLen key with
    | none => throw .cryptoFail
    | some key => pure (.chaCha20 key)

def ofLe (bs : Bytes) : Nat := ofBe bs.reverse

def mask (boring : Boring) (key : HeaderProtectionKey) (sample : Bytes) :
    Except QspCryptoError HpMask :=
  match FixedBytes.ofBytes? hpSampleLen sample with
  | none => .error .packetTooShort
  | some sample =>
    match key with
    | aes128 key =>
      .ok ⟨(boring.aesEncrypt key sample).val.take hpMaskLen, by
        rw [List.length_take_of_le]
        rw [(boring.aesEncrypt key sample).property]
        decide⟩
    | chaCha20 key =>
      let counter := ofLe (sample.val.take 4)
      let plaintext := List.replicate hpMaskLen 0
      .ok ⟨boring.chaCha20 key (sample.val.drop 4) counter plaintext, by
        rw [(boring.chaCha20 key (sample.val.drop 4) counter plaintext).property]
        exact List.length_replicate⟩

def tryClone : HeaderProtectionKey → Faulty ev QspCryptoError HeaderProtectionKey
  | aes128 key => new .aes128 key
  | chaCha20 key => new .chaCha20 key

theorem quiet_new (kind : HeaderProtectionKind) (key : Bytes) :
    Faulty.Quiet (new kind key : Faulty ev _ _) := by
  cases kind with
  | aes128 =>
    unfold new
    cases FixedBytes.ofBytes? hpKeyLen key with
    | none => exact Faulty.quiet_throw _
    | some key => exact Faulty.quiet_call _ _
  | chaCha20 =>
    unfold new
    cases FixedBytes.ofBytes? chaCha20Poly1305KeyLen key with
    | none => exact Faulty.quiet_throw _
    | some key => exact Faulty.quiet_pure _

theorem quiet_tryClone (key : HeaderProtectionKey) :
    Faulty.Quiet (tryClone key : Faulty ev _ _) := by
  cases key with
  | aes128 key => exact quiet_new .aes128 key.val
  | chaCha20 key => exact quiet_new .chaCha20 key.val

theorem yields_tryClone (key : HeaderProtectionKey) :
    Faulty.Yields (tryClone key : Faulty ev _ _) key := by
  cases key with
  | aes128 key =>
    simp only [tryClone, new, FixedBytes.ofBytes?_val]
    exact Faulty.yields_call _ _
  | chaCha20 key =>
    simp only [tryClone, new, FixedBytes.ofBytes?_val]
    exact Faulty.yields_pure _

theorem mask_ok (boring : Boring) (key : HeaderProtectionKey) {sample : Bytes}
    (h : sample.length = hpSampleLen) : ∃ m, mask boring key sample = .ok m := by
  cases key <;> simp [mask, FixedBytes.ofBytes?_of_length h]

end HeaderProtectionKey

/-! ## Packet keys -/

structure PacketKey where
  aead : AeadKind
  key : FixedBytes aead.keyLen
  iv : Nonce
  deriving DecidableEq

/-- The nonce of a packet: the low eight bytes of the IV xored with the packet
number. -/
def makeNonce (iv : Nonce) (counter : Nat) : Nonce :=
  ⟨iv.val.take 4 ++ xorBytes (iv.val.drop 4) (beBytes 8 counter), by
    simp [iv.property, aeadIvLen]⟩

theorem makeNonce_inj {iv : Nonce} {m n : Nat} (hm : m < 2 ^ 64) (hn : n < 2 ^ 64)
    (h : makeNonce iv m = makeNonce iv n) : m = n := by
  have hlen : (iv.val.drop 4).length = 8 := by simp [iv.property, aeadIvLen]
  have hx := List.append_cancel_left (congrArg Subtype.val h)
  have hbytes := xorBytes_inj (by simp [hlen]) (by simp [hlen]) hx
  exact beBytes_inj (by simpa using hm) (by simpa using hn) hbytes

namespace PacketKey

def new (key iv : Bytes) (aead : AeadKind) : Faulty ev QspCryptoError PacketKey :=
  match FixedBytes.ofBytes? aeadIvLen iv with
  | none => throw .cryptoFail
  | some iv =>
    match FixedBytes.ofBytes? aead.keyLen key with
    | none => throw .cryptoFail
    -- `EVP_AEAD_CTX_new`
    | some key => Faulty.call .cryptoFail ⟨aead, key, iv⟩

/-- Seal `plaintext` behind `out`, the first `adLen` bytes of which are
authenticated. -/
def sealInto (boring : Boring) (self : PacketKey) (pn adLen : Nat) (plaintext out : Bytes) :
    Faulty ev QspCryptoError Bytes :=
  let nonce := makeNonce self.iv pn
  let ciphertext := boring.aeadSeal self.aead self.key nonce (out.take adLen) plaintext
  -- `EVP_AEAD_CTX_seal`
  Faulty.call .cryptoFail (out ++ ciphertext.val)

def openInto (boring : Boring) (self : PacketKey) (pn : Nat) (ad ciphertext : Bytes) :
    Faulty ev QspCryptoError Bytes :=
  if ciphertext.length < aeadTagLen then throw .packetTooShort
  else
    let nonce := makeNonce self.iv pn
    -- `EVP_AEAD_CTX_open`
    match boring.aeadOpen self.aead self.key nonce ad ciphertext with
    | none => throw .cryptoFail
    | some plaintext => Faulty.call .cryptoFail plaintext

def tryClone (self : PacketKey) : Faulty ev QspCryptoError PacketKey :=
  new self.key self.iv self.aead

theorem quiet_new (key iv : Bytes) (aead : AeadKind) :
    Faulty.Quiet (new key iv aead : Faulty ev _ _) := by
  unfold new
  cases FixedBytes.ofBytes? aeadIvLen iv with
  | none => exact Faulty.quiet_throw _
  | some iv =>
    cases FixedBytes.ofBytes? aead.keyLen key with
    | none => exact Faulty.quiet_throw _
    | some key => exact Faulty.quiet_call _ _

theorem yields_new {aead : AeadKind} (key : FixedBytes aead.keyLen) (iv : Nonce) :
    Faulty.Yields (new key iv aead : Faulty ev _ _) ⟨aead, key, iv⟩ := by
  simp only [new, FixedBytes.ofBytes?_val]
  exact Faulty.yields_call _ _

theorem yields_tryClone (self : PacketKey) : Faulty.Yields (tryClone self : Faulty ev _ _) self :=
  yields_new self.key self.iv

theorem quiet_openInto (boring : Boring) (self : PacketKey) (pn : Nat) (ad ciphertext : Bytes) :
    Faulty.Quiet (openInto boring self pn ad ciphertext : Faulty ev _ _) := by
  unfold openInto
  refine Faulty.quiet_ite (Faulty.quiet_throw _) ?_
  dsimp only
  cases boring.aeadOpen self.aead self.key (makeNonce self.iv pn) ad ciphertext with
  | none => exact Faulty.quiet_throw _
  | some plaintext => exact Faulty.quiet_call _ _

theorem yields_openInto {boring : Boring} {self : PacketKey} {pn : Nat}
    {ad ciphertext plaintext : Bytes} (hlen : aeadTagLen ≤ ciphertext.length)
    (h : boring.aeadOpen self.aead self.key (makeNonce self.iv pn) ad ciphertext =
      some plaintext) :
    Faulty.Yields (openInto boring self pn ad ciphertext : Faulty ev _ _) plaintext := by
  simp only [openInto, if_neg (Nat.not_lt.mpr hlen), h]
  exact Faulty.yields_call _ _

theorem openInto_ok {boring : Boring} {self : PacketKey} {pn : Nat}
    {ad ciphertext plaintext : Bytes} {t t' : Tape ev}
    (h : (openInto boring self pn ad ciphertext).run t = (.ok plaintext, t')) :
    boring.aeadOpen self.aead self.key (makeNonce self.iv pn) ad ciphertext =
      some plaintext := by
  simp only [openInto] at h
  split_ifs at h with hshort
  · simp at h
  cases hopen : boring.aeadOpen self.aead self.key (makeNonce self.iv pn) ad ciphertext with
  | none => simp [hopen] at h
  | some p =>
    simp only [hopen] at h
    rw [(Faulty.yields_call _ _).success h]

end PacketKey

end Slt.Crypto
