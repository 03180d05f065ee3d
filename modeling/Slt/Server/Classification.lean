import Slt.Tls.Framing

/-!
# Classification of an accepted connection

The server peeks at a new connection until it has a verdict.
`classifyStreamInner` is its retrying loop, where an `Attempt` is what one
round finds: the state of the admission permit, the deadline and the bytes
the peek returns. `classifyStreamFast` is the single look that a connection
beyond the admission capacity gets. Whatever the timing, a final verdict is
that of the stream.
-/

namespace Slt.Server

open Lib Tls

variable {ε η : Type}

inductive ClassificationOutcome where
  | verdict (v : Verdict)
  | evicted
  deriving DecidableEq, Repr

def peekLen : Nat := maxTcpClientHelloWireLen

/-! ## The retrying loop -/

/-- How `peek_with_deadline` ends. -/
inductive Peek (η : Type) where
  | ready (buf : Bytes)
  | cancelled
  | timedOut
  | failed (e : η)

/-- One round of the loop. What concerns the permit counts only for a
connection that has one. -/
structure Attempt (η : Type) where
  /-- The permit was released when the round began. -/
  released : Bool
  expired : Bool
  /-- `mark_no_data_if_empty` found the permit in force. -/
  markNoDataIfEmpty : Bool
  peek : Peek η
  /-- The permit was released while the peek waited. -/
  releasedMeanwhile : Bool
  /-- `mark_data_seen` found the permit in force. -/
  markDataSeen : Bool
  /-- The permit was cancelled during the delay before the next round. -/
  cancelled : Bool

/-- The loop over the rounds so far; without a result it is still waiting. -/
def classifyStreamInner (hmac : Hmac ε) (serverSecret : SharedSecret) (permit : Bool) :
    (dataSeen : Bool) → List (Attempt η) → Option (Except η ClassificationOutcome)
  | _, [] => none
  | dataSeen, attempt :: attempts =>
    if permit && attempt.released then some (.ok .evicted)
    else if attempt.expired then some (.ok (.verdict .incomplete))
    else if !dataSeen && permit && !attempt.markNoDataIfEmpty then some (.ok .evicted)
    else
      match attempt.peek with
      | .cancelled => if permit then some (.ok .evicted) else none
      | .timedOut => some (.ok (.verdict .incomplete))
      | .failed e => some (.error e)
      | .ready buf =>
        if permit && attempt.releasedMeanwhile then some (.ok .evicted)
        else if buf.length = 0 then some (.ok (.verdict .drop))
        else if !dataSeen && permit && !attempt.markDataSeen then some (.ok .evicted)
        else
          let verdict := classifyTcpClientHello hmac buf serverSecret
          if verdict ≠ .incomplete then some (.ok (.verdict verdict))
          else if permit && attempt.cancelled then some (.ok .evicted)
          else classifyStreamInner hmac serverSecret permit true attempts

inductive PeekNow (η : Type) where
  | ready (buf : Bytes)
  | wouldBlock
  | failed (e : η)

def classifyStreamFast (hmac : Hmac ε) (serverSecret : SharedSecret) :
    PeekNow η → Except η Verdict
  | .ready buf =>
    if buf.length = 0 then .ok .drop else .ok (classifyTcpClientHello hmac buf serverSecret)
  | .wouldBlock => .ok .incomplete
  | .failed e => .error e

/-! ## Peeks at one stream -/

/-- What a peek may return of a stream: some of its start that fits in the
buffer, and nothing only at the end of an empty stream. -/
structure Peeked (stream buf : Bytes) : Prop where
  isPrefix : buf <+: stream
  fits : buf.length ≤ peekLen
  nonempty : buf = [] → stream = []

def Watches (stream : Bytes) (attempts : List (Attempt η)) : Prop :=
  ∀ attempt ∈ attempts, ∀ buf, attempt.peek = .ready buf → Peeked stream buf

def streamVerdict (hmac : Hmac ε) (serverSecret : SharedSecret) (stream : Bytes) : Verdict :=
  if stream.length = 0 then .drop else classifyTcpClientHello hmac stream serverSecret

section

variable {hmac : Hmac ε} {secret : SharedSecret}

theorem Peeked.verdict {stream buf : Bytes} (h : Peeked stream buf)
    (hfinal : classifyTcpClientHello hmac buf secret ≠ .incomplete)
    (hbuf : buf.length ≠ 0) :
    streamVerdict hmac secret stream = classifyTcpClientHello hmac buf secret := by
  have hstream : stream.length ≠ 0 := fun hzero => hbuf (by have := h.isPrefix.length_le; omega)
  rw [streamVerdict, if_neg hstream, classify_prefix h.isPrefix hfinal]

theorem Peeked.drop {stream buf : Bytes} (h : Peeked stream buf) (hbuf : buf.length = 0) :
    streamVerdict hmac secret stream = .drop := by
  rw [h.nonempty (List.length_eq_zero_iff.mp hbuf)]
  rfl

/-- A final verdict of the retrying loop is the verdict on the stream. -/
theorem classifyStreamInner_verdict {permit : Bool} {stream : Bytes} {attempts : List (Attempt η)}
    {dataSeen : Bool} {v : Verdict}
    (hwatches : Watches stream attempts)
    (h : classifyStreamInner hmac secret permit dataSeen attempts = some (.ok (.verdict v)))
    (hfinal : v ≠ .incomplete) : v = streamVerdict hmac secret stream := by
  induction attempts generalizing dataSeen with
  | nil => cases h
  | cons attempt attempts ih =>
    have hhere := hwatches attempt List.mem_cons_self
    have hlater : Watches stream attempts := fun a ha => hwatches a (List.mem_cons_of_mem _ ha)
    rw [classifyStreamInner] at h
    split at h
    · cases h
    split at h
    · cases h
      exact absurd rfl hfinal
    split at h
    · cases h
    split at h
    · split at h <;> cases h
    · cases h
      exact absurd rfl hfinal
    · cases h
    · rename_i buf hpeek
      have hpeeked := hhere buf hpeek
      split at h
      · cases h
      split at h
      · rename_i hempty
        cases h
        exact (hpeeked.drop hempty).symm
      rename_i hbuf
      split at h
      · cases h
      dsimp only at h
      split at h
      · rename_i hverdict
        cases h
        exact (hpeeked.verdict hverdict hbuf).symm
      split at h
      · cases h
      exact ih hlater h

theorem classifyStreamFast_verdict {stream : Bytes} {peek : PeekNow η} {v : Verdict}
    (hpeek : ∀ buf, peek = .ready buf → Peeked stream buf)
    (h : classifyStreamFast hmac secret peek = .ok v) (hfinal : v ≠ .incomplete) :
    v = streamVerdict hmac secret stream := by
  cases peek with
  | ready buf =>
    rw [classifyStreamFast] at h
    split at h
    · rename_i hempty
      cases h
      exact ((hpeek buf rfl).drop hempty).symm
    · rename_i hbuf
      cases h
      exact ((hpeek buf rfl).verdict hfinal hbuf).symm
  | wouldBlock =>
    cases h
    exact absurd rfl hfinal
  | failed e => cases h

end

/-- A verdict on a prefix is final, there is always one at the limit, and so
the verdict on a connection depends neither on how its stream arrived nor on
whether the server retried. -/
theorem classification_stable (hmac : Hmac ε) (secret : SharedSecret) :
    (∀ p q, p <+: q → classifyTcpClientHello hmac p secret ≠ .incomplete →
      classifyTcpClientHello hmac q secret = classifyTcpClientHello hmac p secret) ∧
    (∀ p, 8192 ≤ p.length → classifyTcpClientHello hmac p secret ≠ .incomplete) ∧
    (∀ (stream : Bytes) (permit permit' : Bool) (attempts attempts' : List (Attempt η))
      (v v' : Verdict), Watches stream attempts → Watches stream attempts' →
      classifyStreamInner hmac secret permit false attempts = some (.ok (.verdict v)) →
      classifyStreamInner hmac secret permit' false attempts' = some (.ok (.verdict v')) →
      v ≠ .incomplete → v' ≠ .incomplete → v = v') ∧
    (∀ (stream : Bytes) (permit : Bool) (attempts : List (Attempt η)) (peek : PeekNow η)
      (v v' : Verdict), Watches stream attempts →
      (∀ buf, peek = .ready buf → Peeked stream buf) →
      classifyStreamInner hmac secret permit false attempts = some (.ok (.verdict v)) →
      classifyStreamFast hmac secret peek = .ok v' →
      v ≠ .incomplete → v' ≠ .incomplete → v = v') := by
  refine ⟨fun p q hpq h => classify_prefix hpq h, fun p h => classify_at_limit hmac secret h,
    ?_, ?_⟩
  · intro stream permit permit' attempts attempts' v v' hwatches hwatches' h h' hv hv'
    rw [classifyStreamInner_verdict hwatches h hv, classifyStreamInner_verdict hwatches' h' hv']
  · intro stream permit attempts peek v v' hwatches hpeek h h' hv hv'
    rw [classifyStreamInner_verdict hwatches h hv, classifyStreamFast_verdict hpeek h' hv']

end Slt.Server
