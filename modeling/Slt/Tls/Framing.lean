import Slt.Tls.Decision

/-!
# Which streams are claimed

A stream is claimed when it starts with records that carry a `ClientHello`
with a valid token, and when the last byte of that message lies within the
limit. How the message is cut into records makes no difference.
-/

namespace Slt.Tls

open Lib

variable {ε : Type}

/-! ## What a decision says -/

/-- The start of a payload is claimed with its first `n` bytes. -/
def ClaimedWith (hmac : Hmac ε) (secret : SharedSecret) (seen : List (UInt8 × Nat)) (n : Nat) :
    Prop :=
  n ≤ seen.length ∧ wireEnd 0 seen n ≤ maxTcpClientHelloWireLen ∧
    verifyLegacySessionId hmac (bytes (seen.take n)) secret = .ok true

def Decided (hmac : Hmac ε) (secret : SharedSecret) (seen : List (UInt8 × Nat)) (v : Verdict) :
    Prop :=
  v = .pass ∨ v = .claim ∧ ∃ n, ClaimedWith hmac secret seen n

section

variable {hmac : Hmac ε} {secret : SharedSecret}

theorem decided_part {seen : List (UInt8 × Nat)} {total n : Nat}
    {next : List (UInt8 × Nat) → Option Verdict} {v : Verdict}
    (hnext : ∀ start, next start = some v → Decided hmac secret seen v)
    (h : part total n seen next = some v) : Decided hmac secret seen v := by
  unfold part at h
  split at h
  · cases h
    exact .inl rfl
  · exact hnext _ (need_eq_some.mp h).2

theorem decided_final {seen : List (UInt8 × Nat)} {total : Nat} {v : Verdict}
    (h : need total seen (finalVerdict hmac secret total) = some v) :
    Decided hmac secret seen v := by
  obtain ⟨hle, h⟩ := need_eq_some.mp h
  have hend : wireEnd 0 (seen.take total) total = wireEnd 0 seen total := by
    rw [wireEnd, wireEnd, List.take_take, Nat.min_self]
  rw [finalVerdict, hend] at h
  split at h
  · cases h
    exact .inl rfl
  · rename_i hlimit
    split at h
    · rename_i hverified
      cases h
      exact .inr ⟨rfl, total, hle, Nat.not_lt.mp hlimit, hverified⟩
    · cases h
      exact .inl rfl

theorem decided_candidate {seen start : List (UInt8 × Nat)} {total : Nat} {v : Verdict}
    (h : candidateVerdict hmac secret total seen start = some v) :
    Decided hmac secret seen v := by
  unfold candidateVerdict at h
  split at h
  · cases h
    exact .inl rfl
  · split at h
    · cases h
      exact .inl rfl
    · exact decided_final h

theorem decided_of_decision {seen : List (UInt8 × Nat)} {v : Verdict}
    (h : decision hmac secret seen = some v) : Decided hmac secret seen v := by
  have h := (need_eq_some.mp h).2
  split at h
  · cases h
    exact .inl rfl
  split at h
  · cases h
    exact .inl rfl
  refine decided_part (fun _ h => ?_) h
  refine decided_part (fun _ h => ?_) h
  refine decided_part (fun _ h => ?_) h
  split at h
  · cases h
    exact .inl rfl
  exact decided_part (fun _ h => decided_candidate h) h

end

/-! ## A complete message -/

def helloVerdict (hmac : Hmac ε) (hello : Bytes) (secret : SharedSecret) : Verdict :=
  match verifyLegacySessionId hmac hello secret with
  | .ok true => .claim
  | _ => .pass

section

variable {hmac : Hmac ε} {hello : Bytes} {secret : SharedSecret}

theorem helloVerdict_of_not (h : verifyLegacySessionId hmac hello secret ≠ .ok true) :
    helloVerdict hmac hello secret = .pass := by
  unfold helloVerdict
  split
  · contradiction
  · rfl

theorem helloVerdict_of_not_wellFormed (h : ¬ WellFormed hello) :
    helloVerdict hmac hello secret = .pass :=
  helloVerdict_of_not fun hverified => h (verifyLegacySessionId_iff.mp hverified).1

theorem helloVerdict_claim_iff :
    helloVerdict hmac hello secret = .claim ↔
      verifyLegacySessionId hmac hello secret = .ok true := by
  constructor
  · intro h
    by_contra hnot
    rw [helloVerdict_of_not hnot] at h
    cases h
  · intro h
    rw [helloVerdict, h]

end

theorem helloVerdict_ne_incomplete (hmac : Hmac ε) (hello : Bytes) (secret : SharedSecret) :
    helloVerdict hmac hello secret ≠ .incomplete := by
  unfold helloVerdict
  split <;> exact Verdict.noConfusion

section CompleteMessage

variable {hmac : Hmac ε} {secret : SharedSecret} {hello : Bytes} {seen : List (UInt8 × Nat)}

/-- A part that a complete message is too short for is the end of the matter. -/
theorem part_complete {n : Nat} {next : List (UInt8 × Nat) → Option Verdict}
    (hcomplete : hello <+: bytes seen) (hn : n ≤ 71)
    (hnext : n ≤ hello.length → bytes (seen.take n) = hello.take n →
      next (seen.take n) = some (helloVerdict hmac hello secret)) :
    part hello.length n seen next = some (helloVerdict hmac hello secret) := by
  unfold part
  split
  · rename_i hshort
    rw [helloVerdict_of_not_wellFormed fun hwf => by have := hwf.sessionId; omega]
  · rename_i hlong
    have hle : n ≤ hello.length := Nat.not_lt.mp hlong
    have hseen : n ≤ seen.length := by
      have := hcomplete.length_le
      rw [length_bytes] at this
      omega
    rw [need_of_le hseen]
    refine hnext hle ?_
    obtain ⟨more, hmore⟩ := hcomplete
    rw [bytes_take, ← hmore, List.take_append_of_le_length hle]

theorem final_complete (hcomplete : hello <+: bytes seen)
    (hlimit : wireEnd 0 seen hello.length ≤ maxTcpClientHelloWireLen) :
    need hello.length seen (finalVerdict hmac secret hello.length) =
      some (helloVerdict hmac hello secret) := by
  have hlength := hcomplete.length_le
  rw [length_bytes] at hlength
  have hbytes : bytes (seen.take hello.length) = hello := by
    rw [bytes_take]
    exact (List.prefix_iff_eq_take.mp hcomplete).symm
  have hend : wireEnd 0 (seen.take hello.length) hello.length = wireEnd 0 seen hello.length := by
    rw [wireEnd, wireEnd, List.take_take, Nat.min_self]
  rw [need_of_le hlength, finalVerdict, hend, if_neg (Nat.not_lt.mpr hlimit), hbytes]
  by_cases hverified : verifyLegacySessionId hmac hello secret = .ok true
  · rw [helloVerdict_claim_iff.mpr hverified, hverified]
  · rw [helloVerdict_of_not hverified]
    split
    · contradiction
    · rfl

theorem candidate_complete (hcomplete : hello <+: bytes seen)
    (hlimit : wireEnd 0 seen hello.length ≤ maxTcpClientHelloWireLen)
    {start : List (UInt8 × Nat)} (hstart : bytes start = hello.take 71) :
    candidateVerdict hmac secret hello.length seen start =
      some (helloVerdict hmac hello secret) := by
  have hrandom : ((bytes start).drop 6).take 32 = (hello.drop 6).take 32 := by
    rw [hstart, List.drop_take, List.take_take]
    rfl
  have hsession : ((bytes start).drop 39).take tokenPartLen =
      ((hello.drop 39).take legacySessionIdLen).take tokenPartLen := by
    rw [hstart, List.drop_take]
    rfl
  rw [candidateVerdict, hrandom, hsession]
  -- The candidate is checked early, and again with the whole token.
  cases hcandidate : candidateSessionIdTag hmac ((hello.drop 6).take 32) secret with
  | error e =>
    rw [helloVerdict_of_not]
    intro hverified
    rw [(verifyLegacySessionId_iff.mp hverified).2.1] at hcandidate
    cases hcandidate
  | ok candidate =>
    simp only
    split
    · rename_i hdiffers
      rw [helloVerdict_of_not]
      intro hverified
      rw [(verifyLegacySessionId_iff.mp hverified).2.1] at hcandidate
      exact hdiffers (Except.ok.inj hcandidate)
    · exact final_complete hcomplete hlimit

theorem decision_complete (hcomplete : hello <+: bytes seen)
    (hlength : hello.length = 4 + bodyLen hello)
    (hlimit : wireEnd 0 seen hello.length ≤ maxTcpClientHelloWireLen)
    (hminimum : tlsRecordHeaderLen + hello.length ≤ maxTcpClientHelloWireLen) :
    decision hmac secret seen = some (helloVerdict hmac hello secret) := by
  have hheader : 4 ≤ hello.length := by omega
  have hseen : 4 ≤ seen.length := by
    have := hcomplete.length_le
    rw [length_bytes] at this
    omega
  have hbytes : bytes (seen.take 4) = hello.take 4 := by
    obtain ⟨more, hmore⟩ := hcomplete
    rw [bytes_take, ← hmore, List.take_append_of_le_length hheader]
  have htype : (hello.take 4).getD 0 0 = hello.getD 0 0 := by
    simp [List.getD_eq_getElem?_getD]
  have hbody : bodyLen (hello.take 4) = bodyLen hello := by
    rw [bodyLen, bodyLen, List.drop_take, List.take_take]
    rfl
  rw [decision, need_of_le hseen, hbytes, htype, hbody, ← hlength]
  split
  · rename_i hother
    rw [helloVerdict_of_not_wellFormed fun hwf => hother hwf.type]
  rw [if_neg (by omega), messageVerdict]
  refine part_complete hcomplete (by decide) fun _ _ => ?_
  refine part_complete hcomplete (by decide) fun _ _ => ?_
  refine part_complete hcomplete (by decide) fun h39 hstart => ?_
  have hlen : (hello.take 39).getD 38 0 = hello.getD 38 0 := by
    simp [List.getD_eq_getElem?_getD]
  rw [hstart, hlen]
  split
  · rename_i hother
    rw [helloVerdict_of_not_wellFormed fun hwf => hother hwf.sessionIdLen]
  exact part_complete hcomplete (by decide) fun _ hstart =>
    candidate_complete hcomplete hlimit hstart

end CompleteMessage

theorem Carries.length_le {remaining : Nat} {wire hello : Bytes}
    (h : Carries remaining wire hello) : hello.length ≤ wire.length := by
  induction h with
  | header version hlen _ ih =>
    rw [List.length_append]
    omega
  | last b => exact Nat.le_refl _
  | byte b _ ih => exact Nat.succ_le_succ ih

theorem Carries.header_length_le {wire hello : Bytes} (h : Carries 0 wire hello) :
    5 + hello.length ≤ wire.length := by
  cases h with
  | header version hlen h =>
    have := h.length_le
    rw [List.length_append, length_recordHeader]
    omega

/-- However a complete message within the limit is framed and whatever
follows it, the answer is the same. -/
theorem classify_framed (hmac : Hmac ε) (secret : SharedSecret) {hello wire : Bytes}
    (hframed : FramedAs hello wire) (hlength : hello.length = 4 + bodyLen hello)
    (hlimit : wire.length ≤ maxTcpClientHelloWireLen) (rest : Bytes) :
    classifyTcpClientHello hmac (wire ++ rest) secret = helloVerdict hmac hello secret := by
  have hcarries := framedAs_iff_carries.mp hframed
  obtain ⟨hcomplete, hend⟩ := hcarries.deframe 0 rest
  have hminimum := hcarries.header_length_le
  have hdecision : decision hmac secret (payload (wire ++ rest)).1 =
      some (helloVerdict hmac hello secret) := by
    refine decision_complete hcomplete hlength ?_ ?_
    · rw [payload, hend]
      omega
    · rw [tlsRecordHeaderLen]
      omega
  rw [classifyTcpClientHello, classify_eq, hdecision, Option.getD_some, if_neg]
  exact fun h => helloVerdict_ne_incomplete hmac hello secret h.1

section

variable {hmac : Hmac ε} {secret : SharedSecret}

theorem framed_of_claim {input : Bytes}
    (h : classifyTcpClientHelloWithinLimit hmac input secret = .claim) :
    ∃ hello wire rest, input = wire ++ rest ∧ FramedAs hello wire ∧
      wire.length ≤ maxTcpClientHelloWireLen ∧ verifyLegacySessionId hmac hello secret = .ok true := by
  rw [classify_eq] at h
  cases hdecision : decision hmac secret (payload input).1 with
  | none =>
    rw [hdecision, Option.getD_none] at h
    rcases deframe_stop 0 0 input with hstop | hstop
    all_goals
      rw [payload, hstop] at h
      cases h
  | some v =>
    rw [hdecision, Option.getD_some] at h
    subst h
    rcases decided_of_decision hdecision with hpass | ⟨-, n, hle, hlimit, hverified⟩
    · cases hpass
    have hpositive : 0 < n := by
      have := (verifyLegacySessionId_iff.mp hverified).1.sessionId
      rw [length_bytes, List.length_take] at this
      omega
    obtain ⟨wire, rest, rfl, hcarries⟩ := deframe_carries hpositive hle
    obtain ⟨-, hend⟩ := hcarries.deframe 0 rest
    rw [payload] at hle hlimit hverified
    rw [List.length_map, List.length_take, Nat.min_eq_left hle, Nat.zero_add] at hend
    refine ⟨_, wire, rest, rfl, framedAs_iff_carries.mpr hcarries, ?_, hverified⟩
    rw [← hend]
    exact hlimit

theorem classify_claim {input : Bytes} :
    classifyTcpClientHello hmac input secret = .claim ↔
      classifyTcpClientHelloWithinLimit hmac input secret = .claim := by
  rw [classifyTcpClientHello]
  split
  · rename_i hlimit
    rw [hlimit.1]
    exact ⟨fun h => (nomatch h), fun h => (nomatch h)⟩
  · rfl

theorem classify_claim_iff {input : Bytes} :
    classifyTcpClientHello hmac input secret = .claim ↔
      ∃ hello wire rest, input = wire ++ rest ∧ FramedAs hello wire ∧
        wire.length ≤ maxTcpClientHelloWireLen ∧
        verifyLegacySessionId hmac hello secret = .ok true := by
  constructor
  · intro h
    exact framed_of_claim (classify_claim.mp h)
  · rintro ⟨hello, wire, rest, rfl, hframed, hlimit, hverified⟩
    have hwf := (verifyLegacySessionId_iff.mp hverified).1
    rw [classify_framed hmac secret hframed hwf.complete hlimit]
    exact helloVerdict_claim_iff.mpr hverified

/-! ## Prefixes -/

theorem withinLimit_prefix {p q : Bytes} (hpq : p <+: q)
    (h : classifyTcpClientHelloWithinLimit hmac p secret ≠ .incomplete) :
    classifyTcpClientHelloWithinLimit hmac q secret =
      classifyTcpClientHelloWithinLimit hmac p secret := by
  obtain ⟨more, rfl⟩ := hpq
  rw [classify_eq] at h ⊢
  rw [classify_eq]
  rcases deframe_append 0 0 p more with ⟨-, hsame⟩ | ⟨hstop, hinitial⟩
  · rw [payload, hsame, payload]
  · -- Without a decision the verdict would be that of a reader that waits.
    cases hdecision : decision hmac secret (payload p).1 with
    | none =>
      rw [hdecision, Option.getD_none, payload, hstop] at h
      exact absurd rfl h
    | some v =>
      have hlater := stable_decision hmac secret hinitial v hdecision
      rw [payload, hlater]
      rfl

end

theorem withinLimit_cases (hmac : Hmac ε) (secret : SharedSecret) (input : Bytes) :
    classifyTcpClientHelloWithinLimit hmac input secret = .pass ∨
      classifyTcpClientHelloWithinLimit hmac input secret = .incomplete ∨
      classifyTcpClientHelloWithinLimit hmac input secret = .claim := by
  rw [classify_eq]
  cases hdecision : decision hmac secret (payload input).1 with
  | none =>
    rcases deframe_stop 0 0 input with hstop | hstop
    · exact .inr (.inl hstop)
    · exact .inl hstop
  | some v =>
    rcases decided_of_decision hdecision with hpass | ⟨hclaim, -⟩
    · exact .inl hpass
    · exact .inr (.inr hclaim)

theorem classify_of_final {hmac : Hmac ε} {secret : SharedSecret} {input : Bytes}
    (h : classifyTcpClientHelloWithinLimit hmac input secret ≠ .incomplete) :
    classifyTcpClientHello hmac input secret =
      classifyTcpClientHelloWithinLimit hmac input secret :=
  if_neg fun hlimit => h hlimit.1

theorem classify_at_limit (hmac : Hmac ε) (secret : SharedSecret) {input : Bytes}
    (h : maxTcpClientHelloWireLen ≤ input.length) :
    classifyTcpClientHello hmac input secret ≠ .incomplete := by
  rw [classifyTcpClientHello]
  split
  · exact Verdict.noConfusion
  · rename_i hnot
    exact fun hincomplete => hnot ⟨hincomplete, h⟩

theorem classify_prefix {hmac : Hmac ε} {secret : SharedSecret} {p q : Bytes} (hpq : p <+: q)
    (h : classifyTcpClientHello hmac p secret ≠ .incomplete) :
    classifyTcpClientHello hmac q secret = classifyTcpClientHello hmac p secret := by
  by_cases hfinal : classifyTcpClientHelloWithinLimit hmac p secret = .incomplete
  · -- The limit decided `p`: a claim of `q` would lie within `p` already.
    have hlimit : maxTcpClientHelloWireLen ≤ p.length := by
      by_contra hshort
      rw [classifyTcpClientHello, if_neg fun hlimit => hshort hlimit.2] at h
      exact h hfinal
    have hp : classifyTcpClientHello hmac p secret = .pass := if_pos ⟨hfinal, hlimit⟩
    rw [hp]
    rcases withinLimit_cases hmac secret q with hpass | hincomplete | hclaim
    · rw [classify_of_final (by rw [hpass]; exact Verdict.noConfusion), hpass]
    · exact if_pos ⟨hincomplete, hlimit.trans hpq.length_le⟩
    · obtain ⟨hello, wire, rest, rfl, hframed, hwire, hverified⟩ := framed_of_claim hclaim
      obtain ⟨rest', rfl⟩ := List.prefix_of_prefix_length_le (List.prefix_append wire rest) hpq
        (hwire.trans hlimit)
      have hclaimed := classify_claim_iff.mpr ⟨hello, wire, rest', rfl, hframed, hwire, hverified⟩
      rw [hp] at hclaimed
      cases hclaimed
  · have hsame := withinLimit_prefix hpq hfinal
    rw [classify_of_final hfinal, classify_of_final (by rw [hsame]; exact hfinal), hsame]

/-! ## The claim set -/

/-- The streams that are claimed, and that the answer to a complete handshake
message within the limit does not depend on its framing. The readers are
total functions, so their loops end on every input. -/
theorem claim_set (hmac : Hmac ε) (secret : SharedSecret) :
    (∀ input, classifyTcpClientHello hmac input secret = .claim ↔
      ∃ hello wire rest, input = wire ++ rest ∧ FramedAs hello wire ∧
        wire.length ≤ maxTcpClientHelloWireLen ∧ WellFormed hello ∧
        verifyLegacySessionId hmac hello secret = .ok true) ∧
    ∀ hello wire wire' rest rest', hello.length = 4 + bodyLen hello →
      FramedAs hello wire → FramedAs hello wire' → wire.length ≤ maxTcpClientHelloWireLen →
      wire'.length ≤ maxTcpClientHelloWireLen →
      classifyTcpClientHello hmac (wire ++ rest) secret =
        classifyTcpClientHello hmac (wire' ++ rest') secret := by
  constructor
  · intro input
    rw [classify_claim_iff]
    constructor
    · rintro ⟨hello, wire, rest, hinput, hframed, hlimit, hverified⟩
      exact ⟨hello, wire, rest, hinput, hframed, hlimit,
        (verifyLegacySessionId_iff.mp hverified).1, hverified⟩
    · rintro ⟨hello, wire, rest, hinput, hframed, hlimit, -, hverified⟩
      exact ⟨hello, wire, rest, hinput, hframed, hlimit, hverified⟩
  · intro hello wire wire' rest rest' hlength hframed hframed' hlimit hlimit'
    rw [classify_framed hmac secret hframed hlength hlimit,
      classify_framed hmac secret hframed' hlength hlimit']

end Slt.Tls
