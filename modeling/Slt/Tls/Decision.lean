import Slt.Lib.Need
import Slt.Tls.Records

/-!
# What the classifier decides

The readers of the classifier hide what its verdict depends on. `decision` is
the same verdict as a function of the payload seen so far: a chain of
questions, each of which needs some number of payload bytes. `classify_eq`
shows that the code computes it.
-/

namespace Slt.Tls

open Lib

variable {ε : Type}

/-! ## Readers in front of a payload -/

/-- The payload of a stream, each byte with its end on the wire, and what
comes of wanting more of it. -/
abbrev Payload := List (UInt8 × Nat) × Verdict

def payload (input : Bytes) : Payload := deframe 0 0 input

def bytes (seen : List (UInt8 × Nat)) : Bytes := seen.map Prod.fst

theorem length_bytes (seen : List (UInt8 × Nat)) : (bytes seen).length = seen.length :=
  List.length_map ..

theorem bytes_take (seen : List (UInt8 × Nat)) (n : Nat) : bytes (seen.take n) = (bytes seen).take n :=
  List.map_take ..

theorem take_append_part (seen : List (UInt8 × Nat)) {k n : Nat} (h : k ≤ n) :
    bytes (seen.take k) ++ (bytes (seen.take n)).drop k = bytes (seen.take n) := by
  have htake : bytes (seen.take k) = (bytes (seen.take n)).take k := by
    rw [← bytes_take, List.take_take, Nat.min_eq_left h]
  rw [htake, List.take_append_drop]

/-- The reader has read `k` bytes of the payload. -/
structure RecordReader.At (s : Payload) (k : Nat) (r : RecordReader) : Prop where
  view : r.view = (s.1.drop k, s.2)
  pos : r.pos = wireEnd 0 s.1 k
  bounded : r.pos ≤ r.buf.length

theorem RecordReader.At.new (input : Bytes) :
    RecordReader.At (payload input) 0 (RecordReader.new input) :=
  ⟨rfl, rfl, Nat.zero_le _⟩

/-- What a computation that ends early with a verdict, or else returns one,
comes to. -/
def merge : Except Verdict Verdict → Verdict
  | .ok v => v
  | .error v => v

theorem RecordReader.At.readExact {s : Payload} {k len : Nat} {r : RecordReader}
    (h : RecordReader.At s k r) {f : Bytes × RecordReader → Except Verdict Verdict}
    {next : List (UInt8 × Nat) → Option Verdict} (hk : k ≤ s.1.length)
    (hnext : ∀ r', RecordReader.At s (k + len) r' → k + len ≤ s.1.length →
      merge (f ((bytes (s.1.take (k + len))).drop k, r')) =
        (next (s.1.take (k + len))).getD s.2) :
    merge (r.readExact len >>= f) = (need (k + len) s.1 next).getD s.2 := by
  have hspec := RecordReader.fill_spec len [] h.bounded
  rw [h.view, List.length_nil, Nat.sub_zero, List.length_drop] at hspec
  by_cases hle : k + len ≤ s.1.length
  · obtain ⟨r', hfill, hview, hpos, hbounded⟩ := hspec.1 (by omega)
    have hat : RecordReader.At s (k + len) r' := by
      refine ⟨?_, ?_, hbounded⟩
      · rw [hview, List.drop_drop]
      · rw [hpos, h.pos, wireEnd_add _ _ _ _ hk]
    have hread : (bytes (s.1.take (k + len))).drop k = ((s.1.drop k).take len).map Prod.fst := by
      rw [bytes, ← List.map_drop, List.drop_take, Nat.add_sub_cancel_left]
    rw [need_of_le hle, ← hnext r' hat hle, RecordReader.readExact, hfill, hread]
    rfl
  · rw [need_of_lt (Nat.not_le.mp hle), RecordReader.readExact, hspec.2 (by omega)]
    rfl

/-- The reader has read `k` bytes of a message of `total` bytes. -/
structure HandshakeReader.At (s : Payload) (total k : Nat) (hs : HandshakeReader) : Prop where
  record : RecordReader.At s k hs.record
  remaining : k + hs.remaining = total

/-- A part of the message that ends at `n`: a message that is too short for
it is someone else's. -/
def part (total n : Nat) (seen : List (UInt8 × Nat))
    (next : List (UInt8 × Nat) → Option Verdict) : Option Verdict :=
  if n > total then some .pass else need n seen next

theorem HandshakeReader.At.readExact {s : Payload} {total k n : Nat} {hs : HandshakeReader}
    (h : HandshakeReader.At s total k hs)
    {f : Bytes × HandshakeReader → Except Verdict Verdict}
    {next : List (UInt8 × Nat) → Option Verdict} (hk : k ≤ s.1.length)
    (hnext : ∀ hs', HandshakeReader.At s total (k + n) hs' → k + n ≤ s.1.length →
      merge (f ((bytes (s.1.take (k + n))).drop k, hs')) =
        (next (s.1.take (k + n))).getD s.2) :
    merge (hs.readExact n >>= f) = (part total (k + n) s.1 next).getD s.2 := by
  have hremaining := h.remaining
  by_cases hshort : k + n > total
  · rw [HandshakeReader.readExact, if_pos (by omega), part, if_pos hshort]
    rfl
  · rw [HandshakeReader.readExact, if_neg (by omega), part, if_neg hshort, bind_assoc]
    refine h.record.readExact hk fun r' hat hle => ?_
    exact hnext ⟨r', hs.remaining - n⟩ ⟨hat, by simp only; omega⟩ hle

theorem HandshakeReader.readRemainingInto_eq (hs : HandshakeReader) (output : Bytes) :
    hs.readRemainingInto output =
      if hs.remaining > 0 then
        hs.readExact (min hs.remaining 256) >>= fun read =>
          read.2.readRemainingInto (output ++ read.1)
      else .ok (output, hs) := by
  rw [HandshakeReader.readRemainingInto]
  split
  · cases hread : hs.readExact (min hs.remaining 256) <;> rfl
  · rfl

theorem HandshakeReader.At.readRemainingInto {s : Payload} {total k : Nat} {hs : HandshakeReader}
    (h : HandshakeReader.At s total k hs)
    {f : Bytes × HandshakeReader → Except Verdict Verdict}
    {next : List (UInt8 × Nat) → Option Verdict} (hk : k ≤ s.1.length)
    (hnext : ∀ hs', HandshakeReader.At s total total hs' → total ≤ s.1.length →
      merge (f (bytes (s.1.take total), hs')) = (next (s.1.take total)).getD s.2) :
    merge (hs.readRemainingInto (bytes (s.1.take k)) >>= f) = (need total s.1 next).getD s.2 := by
  induction hleft : hs.remaining using Nat.strong_induction_on generalizing k hs with
  | _ left ih =>
    subst hleft
    have hremaining := h.remaining
    rw [HandshakeReader.readRemainingInto_eq]
    by_cases hmore : hs.remaining > 0
    · have hpart : part total (k + min hs.remaining 256) s.1 (fun _ => need total s.1 next) =
          need total s.1 next := by
        rw [part, if_neg (by omega), need_need (by omega)]
      rw [if_pos hmore, bind_assoc, ← hpart]
      refine h.readExact hk fun hs' h' hle => ?_
      have hfirst := h'.remaining
      rw [take_append_part s.1 (Nat.le_add_right _ _)]
      exact ih hs'.remaining (by omega) h' hle rfl
    · obtain rfl : k = total := by omega
      rw [if_neg hmore, need_of_le hk, ← hnext hs h hk]
      rfl

/-! ## The decision -/

def finalVerdict (hmac : Hmac ε) (secret : SharedSecret) (total : Nat)
    (hello : List (UInt8 × Nat)) : Option Verdict :=
  if wireEnd 0 hello total > maxTcpClientHelloWireLen then some .pass
  else
    match verifyLegacySessionId hmac (bytes hello) secret with
    | .ok true => some .claim
    | _ => some .pass

/-- The verdict on the start of a message, up to the end of its session id. -/
def candidateVerdict (hmac : Hmac ε) (secret : SharedSecret) (total : Nat)
    (seen start : List (UInt8 × Nat)) : Option Verdict :=
  match candidateSessionIdTag hmac (((bytes start).drop 6).take 32) secret with
  | .error _ => some .pass
  | .ok candidate =>
    if ((bytes start).drop 39).take tokenPartLen ≠ candidate then some .pass
    else need total seen (finalVerdict hmac secret total)

def messageVerdict (hmac : Hmac ε) (secret : SharedSecret) (total : Nat)
    (seen : List (UInt8 × Nat)) : Option Verdict :=
  part total 6 seen fun _ => part total 38 seen fun _ => part total 39 seen fun start =>
    if ((bytes start).getD 38 0).toNat ≠ legacySessionIdLen then some .pass
    else part total 71 seen (candidateVerdict hmac secret total seen)

def decision (hmac : Hmac ε) (secret : SharedSecret) (seen : List (UInt8 × Nat)) :
    Option Verdict :=
  need 4 seen fun header =>
    if (bytes header).getD 0 0 ≠ handshakeTypeClientHello then some .pass
    else if tlsRecordHeaderLen + 4 + bodyLen (bytes header) > maxTcpClientHelloWireLen then
      some .pass
    else messageVerdict hmac secret (4 + bodyLen (bytes header)) seen

theorem classify_eq (hmac : Hmac ε) (input : Bytes) (secret : SharedSecret) :
    classifyTcpClientHelloWithinLimit hmac input secret =
      (decision hmac secret (payload input).1).getD (payload input).2 := by
  have hmerge : classifyTcpClientHelloWithinLimit hmac input secret =
      merge (classifyMessage hmac input secret) := by
    rw [classifyTcpClientHelloWithinLimit]
    cases classifyMessage hmac input secret <;> rfl
  rw [hmerge, classifyMessage, decision]
  -- Each read either ends with the verdict of the payload or leaves a reader behind it.
  refine (RecordReader.At.new input).readExact (Nat.zero_le _) fun record hrecord h4 => ?_
  simp only [Nat.zero_add, List.drop_zero] at hrecord h4 ⊢
  split
  · rfl
  split
  · rfl
  have hhs : HandshakeReader.At (payload input) (4 + bodyLen (bytes ((payload input).1.take 4))) 4
      ⟨record, bodyLen (bytes ((payload input).1.take 4))⟩ := ⟨hrecord, rfl⟩
  -- Version, random, the length of the session id, and the session id.
  refine hhs.readExact h4 fun hs hhs h6 => ?_
  refine hhs.readExact h6 fun hs hhs h38 => ?_
  refine hhs.readExact h38 fun hs hhs h39 => ?_
  simp only [Nat.reduceAdd] at hhs h39 ⊢
  have hlen : ((bytes ((payload input).1.take 39)).drop 38).getD 0 0 =
      (bytes ((payload input).1.take 39)).getD 38 0 := by
    simp [List.getD_eq_getElem?_getD, List.getElem?_drop]
  rw [hlen]
  split
  · rfl
  refine hhs.readExact (n := 32) h39 fun hs hhs h71 => ?_
  have hrandom : (bytes ((payload input).1.take 38)).drop 6 =
      ((bytes ((payload input).1.take 71)).drop 6).take 32 := by
    simp [bytes_take, List.drop_take, List.take_take]
  -- The parts read so far are the start of the message.
  have hhello : bytes ((payload input).1.take 4) ++ (bytes ((payload input).1.take 6)).drop 4 ++
      (bytes ((payload input).1.take 38)).drop 6 ++ (bytes ((payload input).1.take 39)).drop 38 ++
      (bytes ((payload input).1.take 71)).drop 39 = bytes ((payload input).1.take 71) := by
    rw [take_append_part _ (by decide), take_append_part _ (by decide),
      take_append_part _ (by decide), take_append_part _ (by decide)]
  simp only [Nat.reduceAdd] at hhs h71 ⊢
  rw [hhello, hrandom, candidateVerdict]
  cases candidateSessionIdTag hmac (((bytes ((payload input).1.take 71)).drop 6).take 32) secret with
  | error e => rfl
  | ok candidate =>
  by_cases hmatches : ((bytes ((payload input).1.take 71)).drop 39).take tokenPartLen = candidate
  case neg =>
    simp only [if_pos (show _ ≠ candidate from hmatches)]
    rfl
  simp only [if_neg (not_not.mpr hmatches)]
  refine hhs.readRemainingInto h71 fun hs hhs htotal => ?_
  have hend : wireEnd 0 ((payload input).1.take (4 + bodyLen (bytes ((payload input).1.take 4))))
      (4 + bodyLen (bytes ((payload input).1.take 4))) = hs.wireBytesRead := by
    rw [HandshakeReader.wireBytesRead, hhs.record.pos, wireEnd, List.take_take, Nat.min_self]
    rfl
  rw [finalVerdict, hend]
  split
  · rfl
  dsimp only
  cases verifyLegacySessionId hmac
    (bytes ((payload input).1.take (4 + bodyLen (bytes ((payload input).1.take 4))))) secret with
  | error e => rfl
  | ok verified => cases verified <;> rfl

/-! ## Stability -/

theorem stable_part {total n : Nat}
    {next : List (UInt8 × Nat) → List (UInt8 × Nat) → Option Verdict}
    (h : ∀ start, Stable (next start)) :
    Stable fun seen => part total n seen fun start => next start seen :=
  .ite (.const _) (.need h)

theorem stable_candidateVerdict (hmac : Hmac ε) (secret : SharedSecret) (total : Nat)
    (start : List (UInt8 × Nat)) :
    Stable fun seen => candidateVerdict hmac secret total seen start := by
  unfold candidateVerdict
  cases candidateSessionIdTag hmac (((bytes start).drop 6).take 32) secret with
  | error e => exact .const _
  | ok candidate => exact .ite (.const _) (.need fun _ => .const _)

theorem stable_decision (hmac : Hmac ε) (secret : SharedSecret) :
    Stable (decision hmac secret) := by
  refine .need fun header => .ite (.const _) (.ite (.const _) ?_)
  refine stable_part fun _ => stable_part fun _ => stable_part fun start => .ite (.const _) ?_
  exact stable_part fun start => stable_candidateVerdict hmac secret _ start

end Slt.Tls
