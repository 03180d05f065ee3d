import Slt.Tls.Framing

/-!
# The token of a sealed ClientHello

The client fills the session id after the message has been serialised, the
server finds and zeroes it again. Both see the same bytes outside the session
id, and so compute the same MACs, here of an arbitrary function.
-/

namespace Slt.Tls

open Lib

def ofMac (mac : Bytes → Bytes → FixedBytes 32) : Hmac Empty :=
  fun key message => .ok (mac key message)

def writeSessionId (clientHello token : Bytes) : Bytes :=
  clientHello.take 39 ++ token ++ clientHello.drop 71

def outside (clientHello : Bytes) : Bytes × Bytes := (clientHello.take 39, clientHello.drop 71)

def claimInput (clientHello : Bytes) : Bytes :=
  claimLabel ++ (clientHello.take 39 ++ (zeroSessionId ++ clientHello.drop 71))

def candidateInput (clientHello : Bytes) : Bytes :=
  candidateLabel ++ ((clientHello.drop 6).take 32).take randomPrefixLen

def tokenOf (mac : Bytes → Bytes → FixedBytes 32) (clientHello : Bytes) (secret : SharedSecret) :
    Bytes :=
  (mac secret.val (candidateInput clientHello)).val.take tokenPartLen ++
    (mac secret.val (claimInput clientHello)).val.take tokenPartLen

/-! ## What the bytes outside the session id determine -/

theorem claimInput_eq (clientHello : Bytes) :
    claimInput clientHello =
      claimLabel ++ ((outside clientHello).1 ++ (zeroSessionId ++ (outside clientHello).2)) := by
  rfl

theorem candidateInput_eq (clientHello : Bytes) :
    candidateInput clientHello =
      candidateLabel ++ (((outside clientHello).1.drop 6).take 32).take randomPrefixLen := by
  simp [candidateInput, outside, List.drop_take, List.take_take, randomPrefixLen]

/-- The authenticated message determines every byte outside the session id. -/
theorem claimInput_inj {clientHello clientHello' : Bytes} (h : WellFormed clientHello)
    (h' : WellFormed clientHello') (heq : claimInput clientHello = claimInput clientHello') :
    outside clientHello = outside clientHello' := by
  rw [claimInput_eq, claimInput_eq] at heq
  have heq := List.append_cancel_left heq
  have hlength : (outside clientHello).1.length = (outside clientHello').1.length := by
    have := h.sessionId
    have := h'.sessionId
    simp only [outside, List.length_take]
    omega
  obtain ⟨hbefore, hrest⟩ := List.append_inj heq hlength
  exact Prod.ext hbefore (List.append_cancel_left hrest)

theorem tokenOf_congr (mac : Bytes → Bytes → FixedBytes 32) (secret : SharedSecret)
    {clientHello clientHello' : Bytes} (h : outside clientHello = outside clientHello') :
    tokenOf mac clientHello secret = tokenOf mac clientHello' secret := by
  rw [tokenOf, tokenOf, claimInput_eq, claimInput_eq, candidateInput_eq, candidateInput_eq, h]

theorem length_tokenOf (mac : Bytes → Bytes → FixedBytes 32) (clientHello : Bytes)
    (secret : SharedSecret) : (tokenOf mac clientHello secret).length = legacySessionIdLen := by
  simp [tokenOf, (mac _ _).property, tokenPartLen, legacySessionIdLen]

/-! ## Overwriting the session id -/

section WriteSessionId

variable {clientHello token : Bytes}

theorem outside_writeSessionId (h : WellFormed clientHello)
    (htoken : token.length = legacySessionIdLen) :
    outside (writeSessionId clientHello token) = outside clientHello := by
  have hbefore : (clientHello.take 39).length = 39 := by
    have := h.sessionId
    rw [List.length_take]
    omega
  have hboth : (clientHello.take 39 ++ token).length = 71 := by
    rw [List.length_append, hbefore, htoken]
    rfl
  rw [outside, writeSessionId]
  refine Prod.ext ?_ ?_
  · rw [List.append_assoc]
    exact List.take_left' hbefore
  · exact List.drop_left' hboth

theorem sessionId_writeSessionId (h : WellFormed clientHello)
    (htoken : token.length = legacySessionIdLen) :
    ((writeSessionId clientHello token).drop 39).take legacySessionIdLen = token := by
  have hbefore : (clientHello.take 39).length = 39 := by
    have := h.sessionId
    rw [List.length_take]
    omega
  rw [writeSessionId, List.append_assoc, List.drop_left' hbefore]
  exact List.take_left' htoken

theorem getD_eq_of_outside {a b : Bytes} (h : outside a = outside b) {i : Nat} (hi : i < 39) :
    a.getD i 0 = b.getD i 0 := by
  have htake : ∀ c : Bytes, c.getD i 0 = (c.take 39).getD i 0 := by
    intro c
    simp [List.getD_eq_getElem?_getD, hi]
  have hbefore : a.take 39 = b.take 39 := congrArg Prod.fst h
  rw [htake a, htake b, hbefore]

theorem bodyLen_eq_of_outside {a b : Bytes} (h : outside a = outside b) :
    bodyLen a = bodyLen b := by
  have htake : ∀ c : Bytes, (c.drop 1).take 3 = ((c.take 39).drop 1).take 3 := by
    intro c
    rw [List.drop_take, List.take_take]
    rfl
  have hbefore : a.take 39 = b.take 39 := congrArg Prod.fst h
  rw [bodyLen, bodyLen, htake a, htake b, hbefore]

theorem wellFormed_writeSessionId (h : WellFormed clientHello)
    (htoken : token.length = legacySessionIdLen) :
    WellFormed (writeSessionId clientHello token) := by
  have houtside := outside_writeSessionId h htoken
  have hid := h.sessionId
  have hlength : (writeSessionId clientHello token).length = clientHello.length := by
    rw [writeSessionId, List.length_append, List.length_append, htoken, List.length_take,
      List.length_drop, legacySessionIdLen]
    omega
  refine ⟨?_, ?_, ?_, by omega⟩
  · rw [getD_eq_of_outside houtside (by decide)]
    exact h.type
  · rw [hlength, bodyLen_eq_of_outside houtside]
    exact h.complete
  · rw [getD_eq_of_outside houtside (by decide)]
    exact h.sessionIdLen

end WriteSessionId

/-! ## Filling and verifying -/

section Mac

variable (mac : Bytes → Bytes → FixedBytes 32) (secret : SharedSecret) {clientHello : Bytes}

theorem candidateSessionIdTag_ofMac (random : Bytes) :
    candidateSessionIdTag (ofMac mac) random secret =
      .ok ((mac secret.val (candidateLabel ++ random.take randomPrefixLen)).val.take
        tokenPartLen) := rfl

theorem completeClaimTag_ofMac :
    completeClaimTag (ofMac mac) clientHello (layoutOf clientHello) secret =
      .ok ((mac secret.val (claimInput clientHello)).val.take tokenPartLen) := by
  have hparts : (claimParts clientHello (layoutOf clientHello)).flatten =
      clientHello.take 39 ++ (zeroSessionId ++ clientHello.drop 71) := by
    simp [claimParts, layoutOf, legacySessionIdLen]
  rw [claimInput, ← hparts]
  rfl

theorem fillLegacySessionId_ofMac (h : WellFormed clientHello) {sessionId : Bytes}
    (hlength : sessionId.length = legacySessionIdLen) :
    fillLegacySessionId (ofMac mac) clientHello sessionId secret =
      if sessionId.take tokenPartLen =
          (mac secret.val (candidateInput clientHello)).val.take tokenPartLen then
        .ok sessionId
      else .ok (tokenOf mac clientHello secret) := by
  have hclaim := @completeClaimTag_ofMac mac secret clientHello
  rw [fillLegacySessionId, if_neg (not_not.mpr hlength), h.layout]
  change (if _ = _ then _ else completeClaimTag _ _ (layoutOf clientHello) _ >>= _) = _
  rw [hclaim]
  rfl

theorem verify_iff_sessionId (h : WellFormed clientHello) :
    verifyLegacySessionId (ofMac mac) clientHello secret = .ok true ↔
      (clientHello.drop 39).take legacySessionIdLen = tokenOf mac clientHello secret := by
  have hcandidate : ((mac secret.val (candidateInput clientHello)).val.take tokenPartLen).length =
      tokenPartLen := by
    simp [(mac _ _).property, tokenPartLen, legacySessionIdLen]
  rw [verifyLegacySessionId_iff, candidateSessionIdTag_ofMac, completeClaimTag_ofMac, tokenOf]
  constructor
  · rintro ⟨-, hfirst, hsecond⟩
    rw [← List.take_append_drop tokenPartLen ((clientHello.drop 39).take legacySessionIdLen),
      ← Except.ok.inj hfirst, ← Except.ok.inj hsecond]
    rfl
  · intro hid
    rw [hid, List.take_left' hcandidate, List.drop_left' hcandidate]
    exact ⟨h, rfl, rfl⟩

theorem verify_writeSessionId (h : WellFormed clientHello) :
    verifyLegacySessionId (ofMac mac) (writeSessionId clientHello (tokenOf mac clientHello secret))
      secret = .ok true := by
  have htoken := length_tokenOf mac clientHello secret
  rw [verify_iff_sessionId mac secret (wellFormed_writeSessionId h htoken),
    sessionId_writeSessionId h htoken]
  exact tokenOf_congr mac secret (outside_writeSessionId h htoken).symm

/-- Filling and verifying agree: what is filled in and what is accepted is the
MAC of the label with the random's prefix, then the MAC of the label with the
message around a zeroed session id. The sealed message is claimed however it is
framed, the bytes outside the session id determine the token and are all
authenticated, and a token that is there already is kept. -/
theorem token_round_trip (h : WellFormed clientHello) {sessionId : Bytes}
    (hlength : sessionId.length = legacySessionIdLen) :
    (sessionId.take tokenPartLen ≠
        (mac secret.val (candidateInput clientHello)).val.take tokenPartLen →
      fillLegacySessionId (ofMac mac) clientHello sessionId secret =
        .ok (tokenOf mac clientHello secret)) ∧
    (sessionId.take tokenPartLen =
        (mac secret.val (candidateInput clientHello)).val.take tokenPartLen →
      fillLegacySessionId (ofMac mac) clientHello sessionId secret = .ok sessionId) ∧
    (tokenOf mac clientHello secret).length = legacySessionIdLen ∧
    verifyLegacySessionId (ofMac mac)
      (writeSessionId clientHello (tokenOf mac clientHello secret)) secret = .ok true ∧
    (∀ wire rest, FramedAs (writeSessionId clientHello (tokenOf mac clientHello secret)) wire →
      wire.length ≤ maxTcpClientHelloWireLen →
      classifyTcpClientHello (ofMac mac) (wire ++ rest) secret = .claim) ∧
    ∀ clientHello', WellFormed clientHello' →
      (verifyLegacySessionId (ofMac mac) clientHello' secret = .ok true ↔
        (clientHello'.drop 39).take legacySessionIdLen = tokenOf mac clientHello' secret) ∧
      (outside clientHello' = outside clientHello →
        tokenOf mac clientHello' secret = tokenOf mac clientHello secret) ∧
      (claimInput clientHello' = claimInput clientHello ↔
        outside clientHello' = outside clientHello) := by
  have hfill := fillLegacySessionId_ofMac mac secret h hlength
  refine ⟨fun hdiffers => hfill.trans (if_neg hdiffers), fun hsame => hfill.trans (if_pos hsame),
    length_tokenOf mac clientHello secret, verify_writeSessionId mac secret h, ?_, ?_⟩
  · intro wire rest hframed hlimit
    exact classify_claim_iff.mpr
      ⟨_, wire, rest, rfl, hframed, hlimit, verify_writeSessionId mac secret h⟩
  · intro clientHello' h'
    refine ⟨verify_iff_sessionId mac secret h', tokenOf_congr mac secret, claimInput_inj h' h, ?_⟩
    intro houtside
    rw [claimInput_eq, claimInput_eq, houtside]

end Mac

/-- The shortest `ClientHello` with a session id of 32 bytes. -/
def shortestHello : Bytes :=
  [0x01, 0x00, 0x00, 0x43, 0x03, 0x03] ++ List.replicate 32 0xaa ++ [0x20] ++ List.replicate 32 0

/-- A MAC that depends on key and message, by their lengths and first bytes. -/
def sampleMac (key message : Bytes) : FixedBytes 32 :=
  .replicate 32 (key.getD 0 0 + message.getD 40 0 + UInt8.ofNat message.length)

theorem token_round_trip_shortestHello :
    WellFormed shortestHello ∧
      fillLegacySessionId (ofMac sampleMac) shortestHello (List.replicate 32 0)
        (.replicate 32 1) = .ok (tokenOf sampleMac shortestHello (.replicate 32 1)) ∧
      verifyLegacySessionId (ofMac sampleMac) (writeSessionId shortestHello
        (tokenOf sampleMac shortestHello (.replicate 32 1))) (.replicate 32 1) = .ok true := by
  have hwf : WellFormed shortestHello := by decide
  have hid : (List.replicate 32 (0 : UInt8)).length = legacySessionIdLen := by decide
  obtain ⟨hfill, -, -, hverify, -⟩ := token_round_trip sampleMac (.replicate 32 1) hwf hid
  exact ⟨hwf, hfill (by decide), hverify⟩

end Slt.Tls
