import Slt.Lib.Bytes

/-!
# The claim token of a ClientHello

A client shows that it belongs to the server by the session id of its TLS
`ClientHello`. The first half of the token, the candidate, is a MAC of the
start of the random, so that other traffic can be told apart early; the
second half, the claim, is a MAC of the whole message with the session id
zeroed. The MAC is a parameter, which may also fail.
-/

namespace Slt.Tls

open Lib

def handshakeTypeClientHello : UInt8 := 0x01
def legacySessionIdLen : Nat := 32
def tokenPartLen : Nat := legacySessionIdLen / 2
def randomPrefixLen : Nat := 16
/-- The longest prefix of a stream, with its record headers, that a claiming
`ClientHello` may take. -/
def maxTcpClientHelloWireLen : Nat := 8 * 1024

/-- The bytes of `slt-tcp-candidate-v2`. -/
def candidateLabel : Bytes :=
  [0x73, 0x6c, 0x74, 0x2d, 0x74, 0x63, 0x70, 0x2d, 0x63, 0x61, 0x6e, 0x64, 0x69, 0x64, 0x61, 0x74,
    0x65, 0x2d, 0x76, 0x32]
/-- The bytes of `slt-tcp-claim-v2`. -/
def claimLabel : Bytes :=
  [0x73, 0x6c, 0x74, 0x2d, 0x74, 0x63, 0x70, 0x2d, 0x63, 0x6c, 0x61, 0x69, 0x6d, 0x2d, 0x76, 0x32]

def zeroSessionId : Bytes := List.replicate legacySessionIdLen 0

abbrev SharedSecret := FixedBytes 32

abbrev Hmac (ε : Type) := Bytes → Bytes → Except ε (FixedBytes 32)

inductive ClientHelloError (ε : Type) where
  | invalidSessionIdLength (expected actual : Nat)
  | malformedClientHello (detail : String)
  | hmacFailed (e : ε)

structure ClientHelloLayout where
  random : Bytes
  sessionIdStart : Nat

variable {ε : Type}

def bodyLen (header : Bytes) : Nat := ofBe ((header.drop 1).take 3)

def candidateSessionIdTag (hmac : Hmac ε) (random : Bytes) (secret : SharedSecret) :
    Except ε Bytes := do
  let mac ← hmac secret.val (candidateLabel ++ random.take randomPrefixLen)
  return mac.val.take tokenPartLen

def truncatedHmac (hmac : Hmac ε) (secret : SharedSecret) (label : Bytes) (parts : List Bytes) :
    Except ε Bytes := do
  let mac ← hmac secret.val (label ++ parts.flatten)
  return mac.val.take tokenPartLen

def clientHelloLayout (clientHello : Bytes) : Except (ClientHelloError ε) ClientHelloLayout :=
  if clientHello.length < 4 then .error (.malformedClientHello "missing handshake header")
  else if clientHello.getD 0 0 ≠ handshakeTypeClientHello then
    .error (.malformedClientHello "not a ClientHello handshake")
  else if clientHello.length ≠ 4 + bodyLen clientHello then
    .error (.malformedClientHello "handshake length does not match buffer")
  else if clientHello.length < 38 then .error (.malformedClientHello "missing ClientHello random")
  else if clientHello.length < 39 then
    .error (.malformedClientHello "missing legacy_session_id length")
  else if (clientHello.getD 38 0).toNat ≠ legacySessionIdLen then
    .error (.malformedClientHello "legacy_session_id is not 32 bytes")
  else if clientHello.length < 39 + legacySessionIdLen then
    .error (.malformedClientHello "truncated legacy_session_id")
  else .ok ⟨(clientHello.drop 6).take 32, 39⟩

def claimParts (clientHello : Bytes) (layout : ClientHelloLayout) : List Bytes :=
  [clientHello.take layout.sessionIdStart, zeroSessionId,
    clientHello.drop (layout.sessionIdStart + legacySessionIdLen)]

def completeClaimTag (hmac : Hmac ε) (clientHello : Bytes) (layout : ClientHelloLayout)
    (secret : SharedSecret) : Except (ClientHelloError ε) Bytes :=
  (truncatedHmac hmac secret claimLabel (claimParts clientHello layout)).mapError .hmacFailed

def verifyLegacySessionId (hmac : Hmac ε) (clientHello : Bytes) (secret : SharedSecret) :
    Except (ClientHelloError ε) Bool := do
  let layout ← clientHelloLayout clientHello
  let sessionId := (clientHello.drop layout.sessionIdStart).take legacySessionIdLen
  let candidate ← (candidateSessionIdTag hmac layout.random secret).mapError .hmacFailed
  let claim ← completeClaimTag hmac clientHello layout secret
  return sessionId.take tokenPartLen = candidate && sessionId.drop tokenPartLen = claim

def fillLegacySessionId (hmac : Hmac ε) (clientHello sessionId : Bytes) (secret : SharedSecret) :
    Except (ClientHelloError ε) Bytes := do
  if sessionId.length ≠ legacySessionIdLen then
    throw (.invalidSessionIdLength legacySessionIdLen sessionId.length)
  let layout ← clientHelloLayout clientHello
  let candidate ← (candidateSessionIdTag hmac layout.random secret).mapError .hmacFailed
  -- The second hello of a retry keeps the token of the first.
  if sessionId.take tokenPartLen = candidate then return sessionId
  let claim ← completeClaimTag hmac clientHello layout secret
  return candidate ++ claim

/-! ## Well-formed messages -/

/-- One complete `ClientHello` with a session id of 32 bytes. -/
structure WellFormed (clientHello : Bytes) : Prop where
  type : clientHello.getD 0 0 = handshakeTypeClientHello
  complete : clientHello.length = 4 + bodyLen clientHello
  sessionIdLen : (clientHello.getD 38 0).toNat = legacySessionIdLen
  sessionId : 71 ≤ clientHello.length

instance (clientHello : Bytes) : Decidable (WellFormed clientHello) :=
  decidable_of_iff (clientHello.getD 0 0 = handshakeTypeClientHello ∧
      clientHello.length = 4 + bodyLen clientHello ∧
      (clientHello.getD 38 0).toNat = legacySessionIdLen ∧ 71 ≤ clientHello.length)
    ⟨fun ⟨a, b, c, d⟩ => ⟨a, b, c, d⟩, fun ⟨a, b, c, d⟩ => ⟨a, b, c, d⟩⟩

def layoutOf (clientHello : Bytes) : ClientHelloLayout := ⟨(clientHello.drop 6).take 32, 39⟩

theorem clientHelloLayout_ok_iff {clientHello : Bytes} {layout : ClientHelloLayout} :
    (clientHelloLayout clientHello : Except (ClientHelloError ε) _) = .ok layout ↔
      WellFormed clientHello ∧ layout = layoutOf clientHello := by
  unfold clientHelloLayout
  constructor
  · intro h
    split_ifs at h with h₁ h₂ h₃ h₄ h₅ h₆ h₇
    cases h
    refine ⟨⟨not_not.mp h₂, not_not.mp h₃, not_not.mp h₆, ?_⟩, rfl⟩
    exact Nat.not_lt.mp h₇
  · rintro ⟨⟨htype, hcomplete, hlen, hid⟩, rfl⟩
    rw [if_neg (by omega), if_neg (not_not.mpr htype), if_neg (not_not.mpr hcomplete),
      if_neg (by omega), if_neg (by omega), if_neg (not_not.mpr hlen),
      if_neg (by rw [legacySessionIdLen]; omega)]
    rfl

theorem WellFormed.layout {clientHello : Bytes} (h : WellFormed clientHello) :
    (clientHelloLayout clientHello : Except (ClientHelloError ε) _) =
      .ok (layoutOf clientHello) :=
  clientHelloLayout_ok_iff.mpr ⟨h, rfl⟩

theorem verifyLegacySessionId_iff {hmac : Hmac ε} {clientHello : Bytes} {secret : SharedSecret} :
    verifyLegacySessionId hmac clientHello secret = .ok true ↔
      WellFormed clientHello ∧
      candidateSessionIdTag hmac ((clientHello.drop 6).take 32) secret =
        .ok (((clientHello.drop 39).take legacySessionIdLen).take tokenPartLen) ∧
      completeClaimTag hmac clientHello (layoutOf clientHello) secret =
        .ok (((clientHello.drop 39).take legacySessionIdLen).drop tokenPartLen) := by
  unfold verifyLegacySessionId
  cases hlayout : (clientHelloLayout clientHello : Except (ClientHelloError ε) _) with
  | error e =>
    refine ⟨fun h => (nomatch h), fun ⟨hwf, _⟩ => ?_⟩
    rw [hwf.layout] at hlayout
    cases hlayout
  | ok layout =>
    obtain ⟨hwf, rfl⟩ := clientHelloLayout_ok_iff.mp hlayout
    have hrandom : (layoutOf clientHello).random = (clientHello.drop 6).take 32 := rfl
    have hstart : (layoutOf clientHello).sessionIdStart = 39 := rfl
    simp only [bind, Except.bind, pure, Except.pure, hrandom, hstart]
    cases candidateSessionIdTag hmac ((clientHello.drop 6).take 32) secret with
    | error e => simp [Except.mapError]
    | ok candidate =>
      cases completeClaimTag hmac clientHello (layoutOf clientHello) secret with
      | error e => simp [Except.mapError]
      | ok claim =>
        simp only [Except.mapError, Except.ok.injEq, Bool.and_eq_true, decide_eq_true_eq, hwf,
          true_and]
        rw [eq_comm, @eq_comm _ _ claim]

end Slt.Tls
