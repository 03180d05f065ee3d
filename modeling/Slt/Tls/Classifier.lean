import Slt.Tls.ClientHello

/-!
# The classifier of TCP streams

The front door looks at the start of a stream, a sequence of TLS records,
without consuming it: `RecordReader` reads payload bytes across records and
`HandshakeReader` those of one handshake message. Both say when the bytes
seen so far are not enough to decide.
-/

namespace Slt.Tls

open Lib

inductive Verdict where
  | claim
  | pass
  | drop
  | incomplete
  deriving DecidableEq, Repr

def tlsHandshakeContentType : UInt8 := 0x16
def tlsRecordHeaderLen : Nat := 5

/-! ## Records -/

structure RecordReader where
  buf : Bytes
  pos : Nat
  recordRemaining : Nat

namespace RecordReader

def new (buf : Bytes) : RecordReader := ⟨buf, 0, 0⟩

def nextRecord (r : RecordReader) : Except Verdict RecordReader :=
  if r.pos + 5 > r.buf.length then .error .incomplete
  else if r.buf.getD r.pos 0 ≠ tlsHandshakeContentType then .error .pass
  else
    .ok { r with
          pos := r.pos + 5
          recordRemaining := ofBe [r.buf.getD (r.pos + 3) 0, r.buf.getD (r.pos + 4) 0] }

/-- The record to go on with: the current one, or the next when it is used up. -/
def currentRecord (r : RecordReader) : Except Verdict RecordReader :=
  if r.recordRemaining = 0 then r.nextRecord else .ok r

theorem nextRecord_ok {r next : RecordReader} (h : r.nextRecord = .ok next) :
    r.pos + 5 ≤ r.buf.length ∧ r.buf.getD r.pos 0 = tlsHandshakeContentType ∧
      next = { r with
        pos := r.pos + 5
        recordRemaining := ofBe [r.buf.getD (r.pos + 3) 0, r.buf.getD (r.pos + 4) 0] } := by
  unfold nextRecord at h
  split at h
  · cases h
  rename_i hlength
  split at h
  · cases h
  rename_i htype
  cases h
  exact ⟨Nat.not_lt.mp hlength, not_not.mp htype, rfl⟩

/-- How much one round of the loop takes from the current record. -/
def chunkLen (r : RecordReader) (wanted : Nat) : Nat :=
  min (min r.recordRemaining wanted) (r.buf.length - r.pos)

def advance (r : RecordReader) (taken : Nat) : RecordReader :=
  { r with pos := r.pos + taken, recordRemaining := r.recordRemaining - taken }

theorem currentRecord_advance_lt {r current : RecordReader} {wanted : Nat}
    (h : r.currentRecord = .ok current) (havailable : current.buf.length - current.pos ≠ 0)
    (hwanted : 0 < wanted) :
    (current.advance (current.chunkLen wanted)).buf.length -
      (current.advance (current.chunkLen wanted)).pos < r.buf.length - r.pos := by
  unfold currentRecord at h
  split at h
  · obtain ⟨hlength, -, rfl⟩ := nextRecord_ok h
    simp only [advance] at *
    omega
  · rename_i hremaining
    cases h
    have htaken : 0 < r.chunkLen wanted := by
      unfold chunkLen
      omega
    simp only [advance]
    omega

/-- The loop of `read_exact`; `out` is what has been filled so far. -/
def fill (r : RecordReader) (len : Nat) (out : Bytes) : Except Verdict (Bytes × RecordReader) :=
  if hwanted : out.length < len then
    match hcurrent : r.currentRecord with
    | .error v => .error v
    | .ok current =>
      if havailable : current.buf.length - current.pos = 0 then .error .incomplete
      else
        let taken := current.chunkLen (len - out.length)
        fill (current.advance taken) len (out ++ (current.buf.drop current.pos).take taken)
  else .ok (out, r)
termination_by r.buf.length - r.pos
decreasing_by exact currentRecord_advance_lt hcurrent havailable (Nat.sub_pos_of_lt hwanted)

def readExact (r : RecordReader) (len : Nat) : Except Verdict (Bytes × RecordReader) :=
  r.fill len []

end RecordReader

/-! ## The handshake message -/

structure HandshakeReader where
  record : RecordReader
  remaining : Nat

namespace HandshakeReader

def readExact (hs : HandshakeReader) (len : Nat) : Except Verdict (Bytes × HandshakeReader) :=
  if len > hs.remaining then .error .pass
  else do
    let (out, record) ← hs.record.readExact len
    return (out, ⟨record, hs.remaining - len⟩)

theorem readExact_remaining {hs next : HandshakeReader} {len : Nat} {out : Bytes}
    (h : hs.readExact len = .ok (out, next)) :
    len ≤ hs.remaining ∧ next.remaining = hs.remaining - len := by
  unfold readExact at h
  split at h
  · cases h
  · rename_i hle
    cases hread : hs.record.readExact len with
    | error v => simp [hread, bind, Except.bind] at h
    | ok read =>
      simp only [hread, bind, Except.bind, pure, Except.pure] at h
      cases h
      exact ⟨Nat.not_lt.mp hle, rfl⟩

/-- The rest of the message, in chunks of 256 bytes. -/
def readRemainingInto (hs : HandshakeReader) (output : Bytes) :
    Except Verdict (Bytes × HandshakeReader) :=
  if hremaining : hs.remaining > 0 then
    match hread : hs.readExact (min hs.remaining 256) with
    | .error v => .error v
    | .ok (chunk, next) => next.readRemainingInto (output ++ chunk)
  else .ok (output, hs)
termination_by hs.remaining
decreasing_by
  have := readExact_remaining hread
  omega

def wireBytesRead (hs : HandshakeReader) : Nat := hs.record.pos

end HandshakeReader

/-! ## Classification -/

variable {ε : Type}

/-- `classify_tcp_client_hello_within_limit`: an error is a verdict reached by
one of the readers. -/
def classifyMessage (hmac : Hmac ε) (input : Bytes) (sharedSecret : SharedSecret) :
    Except Verdict Verdict := do
  let (handshakeHeader, record) ← (RecordReader.new input).readExact 4
  if handshakeHeader.getD 0 0 ≠ handshakeTypeClientHello then return .pass
  let hsLen := bodyLen handshakeHeader
  let minimumWireLen := tlsRecordHeaderLen + 4 + hsLen
  if minimumWireLen > maxTcpClientHelloWireLen then return .pass
  let hs : HandshakeReader := ⟨record, hsLen⟩
  let (legacyVersion, hs) ← hs.readExact 2
  let (random, hs) ← hs.readExact 32
  let (sessionIdLen, hs) ← hs.readExact 1
  if (sessionIdLen.getD 0 0).toNat ≠ legacySessionIdLen then return .pass
  let (sessionId, hs) ← hs.readExact legacySessionIdLen
  match candidateSessionIdTag hmac random sharedSecret with
  | .error _ => return .pass
  | .ok candidate =>
    if sessionId.take tokenPartLen ≠ candidate then return .pass
    let (clientHello, hs) ← hs.readRemainingInto
      (handshakeHeader ++ legacyVersion ++ random ++ sessionIdLen ++ sessionId)
    if hs.wireBytesRead > maxTcpClientHelloWireLen then return .pass
    match verifyLegacySessionId hmac clientHello sharedSecret with
    | .ok true => return .claim
    | _ => return .pass

def classifyTcpClientHelloWithinLimit (hmac : Hmac ε) (input : Bytes)
    (sharedSecret : SharedSecret) : Verdict :=
  match classifyMessage hmac input sharedSecret with
  | .ok verdict => verdict
  | .error verdict => verdict

def classifyTcpClientHello (hmac : Hmac ε) (input : Bytes) (sharedSecret : SharedSecret) :
    Verdict :=
  let verdict := classifyTcpClientHelloWithinLimit hmac input sharedSecret
  if verdict = .incomplete ∧ input.length ≥ maxTcpClientHelloWireLen then .pass else verdict

end Slt.Tls
