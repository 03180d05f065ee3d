import Slt.Lib.Drain
import Slt.Proto.Message

/-!
# Frames

A message on the wire is a type byte, the length of its payload in four bytes,
most significant first, and the payload. A frame stands for a message whose
payload is not decoded yet: the variants of the source differ in nothing else.

The stream decoder takes frames from the front of its buffer and keeps the
bytes of each; the borrowing one only looks. Both give the same on every
buffer, and the stream decoder gives back what was encoded however the bytes
arrive.
-/

namespace Slt.Proto

open Lib

def MessageType.toByte : MessageType → UInt8
  | .auth => 0x01
  | .authOk => 0x02
  | .authFail => 0x03
  | .registerCid => 0x04
  | .registerOk => 0x05
  | .registerFail => 0x06
  | .ping => 0x07
  | .pong => 0x08
  | .close => 0x09
  | .data => 0x0a
  | .upgradeProbe => 0x0b
  | .upgradeProbeAck => 0x0c
  | .udpReady => 0x0d
  | .switchToUdp => 0x0e
  | .switchAck => 0x0f
  | .fallbackToTcp => 0x10
  | .fallbackOk => 0x11
  | .switchOk => 0x12

def MessageType.all : List MessageType :=
  [.auth, .authOk, .authFail, .registerCid, .registerOk, .registerFail, .ping, .pong, .close,
    .data, .upgradeProbe, .upgradeProbeAck, .udpReady, .switchToUdp, .switchAck, .fallbackToTcp,
    .fallbackOk, .switchOk]

def MessageType.tryFrom (b : UInt8) : Option MessageType := all.find? (·.toByte = b)

@[simp] theorem MessageType.tryFrom_toByte (ty : MessageType) : tryFrom ty.toByte = some ty := by
  cases ty <;> rfl

structure Frame where
  ty : MessageType
  payload : Bytes
  deriving DecidableEq

structure MessageLimits where
  maxFrameLen : Nat
  maxDataLen : Nat

def headerLen : Nat := 5

/-! ## Encoding -/

def encodeFrame (ty : MessageType) (payload out : Bytes) : Except FrameError Bytes :=
  if payload.length < 2 ^ 32 then
    .ok (out ++ (ty.toByte :: beBytes 4 payload.length ++ payload))
  else .error (.lengthOverflow payload.length)

def encodeMessage (message : Frame) (out : Bytes) : Except FrameError Bytes :=
  encodeFrame message.ty message.payload out

def encodeMessages (messages : List Frame) : Except FrameError Bytes :=
  messages.foldlM (fun out message => encodeMessage message out) []

def Frame.bytes (frame : Frame) : Bytes :=
  frame.ty.toByte :: beBytes 4 frame.payload.length ++ frame.payload

@[simp] theorem Frame.length_bytes (frame : Frame) :
    frame.bytes.length = headerLen + frame.payload.length := by
  simp [Frame.bytes, headerLen]
  omega

theorem encodeMessage_ok {message : Frame} {out bytes : Bytes}
    (h : encodeMessage message out = .ok bytes) :
    message.payload.length < 2 ^ 32 ∧ bytes = out ++ message.bytes := by
  unfold encodeMessage encodeFrame at h
  split at h
  · rename_i hlen
    cases h
    exact ⟨hlen, rfl⟩
  · cases h

theorem foldlM_encodeMessage {messages : List Frame} {out bytes : Bytes}
    (h : messages.foldlM (fun out message => encodeMessage message out) out = .ok bytes) :
    (∀ message ∈ messages, message.payload.length < 2 ^ 32) ∧
      bytes = out ++ messages.flatMap Frame.bytes := by
  induction messages generalizing out with
  | nil =>
    cases h
    exact ⟨nofun, (List.append_nil _).symm⟩
  | cons message messages ih =>
    rw [List.foldlM_cons] at h
    cases hm : encodeMessage message out with
    | error e =>
      rw [hm] at h
      cases h
    | ok next =>
      rw [hm] at h
      obtain ⟨hlen, rfl⟩ := encodeMessage_ok hm
      obtain ⟨hrest, rfl⟩ := ih h
      refine ⟨List.forall_mem_cons.mpr ⟨hlen, hrest⟩, ?_⟩
      rw [List.flatMap_cons, List.append_assoc]

theorem encodeMessages_ok {messages : List Frame} {bytes : Bytes}
    (h : encodeMessages messages = .ok bytes) :
    (∀ message ∈ messages, message.payload.length < 2 ^ 32) ∧
      bytes = messages.flatMap Frame.bytes :=
  foldlM_encodeMessage h

/-! ## Decoding -/

/-- A frame and the bytes it takes, if the buffer has a whole one. -/
def decodeFrame (buf : Bytes) (maxLen : Nat) : Except FrameError (Option (Frame × Nat)) :=
  if buf.length < headerLen then .ok none
  else
    match MessageType.tryFrom (buf.getD 0 0) with
    | none => .error (.unknownType (buf.getD 0 0))
    | some ty =>
      let len := ofBe ((buf.drop 1).take 4)
      if maxLen < len then .error (.lengthTooLarge len maxLen)
      else
        let totalLen := headerLen + len
        if buf.length < totalLen then .ok none
        else .ok (some (⟨ty, (buf.take totalLen).drop headerLen⟩, totalLen))

/-- The length check that both decoders make of a whole frame. -/
def dataTooLarge (frame : Frame) (limits : MessageLimits) : Bool :=
  frame.ty = .data && limits.maxDataLen < frame.payload.length

def decodeMessage (buf : Bytes) (limits : MessageLimits) :
    Except MessageError (Option (Frame × Nat)) :=
  match decodeFrame buf limits.maxFrameLen with
  | .error e => .error (.frame e)
  | .ok none => .ok none
  | .ok (some (frame, consumed)) =>
    if dataTooLarge frame limits then
      .error (.dataTooLarge frame.payload.length limits.maxDataLen)
    else .ok (some (frame, consumed))

/-- The message and exactly the bytes of its frame. What follows is padding. -/
def decodePaddedMessage (buf : Bytes) (limits : MessageLimits) :
    Except MessageError (Option (Frame × Bytes)) :=
  match decodeMessage buf limits with
  | .error e => .error e
  | .ok none => .ok none
  | .ok (some (message, consumed)) => .ok (some (message, buf.take consumed))

structure OwnedMessageBuf where
  ty : MessageType
  buf : Bytes
  deriving DecidableEq

def OwnedMessageBuf.message (owned : OwnedMessageBuf) : Frame :=
  ⟨owned.ty, owned.buf.drop headerLen⟩

def popMessageBuf (limits : MessageLimits) (readBuf : Bytes) :
    Except MessageError (Option OwnedMessageBuf) × Bytes :=
  match decodeFrame readBuf limits.maxFrameLen with
  | .error e => (.error (.frame e), readBuf)
  | .ok none => (.ok none, readBuf)
  | .ok (some (frame, consumed)) =>
    if dataTooLarge frame limits then
      (.error (.dataTooLarge frame.payload.length limits.maxDataLen), readBuf)
    else (.ok (some ⟨frame.ty, readBuf.take consumed⟩), readBuf.drop consumed)

section Decoding

variable {buf : Bytes} {maxLen : Nat}

theorem decodeFrame_some {frame : Frame} {consumed : Nat}
    (h : decodeFrame buf maxLen = .ok (some (frame, consumed))) :
    headerLen ≤ consumed ∧ consumed ≤ buf.length ∧
      frame.payload = (buf.take consumed).drop headerLen := by
  unfold decodeFrame at h
  split at h
  · cases h
  split at h
  · cases h
  dsimp only at h
  split at h
  · cases h
  split at h
  · cases h
  · rename_i hwhole
    cases h
    exact ⟨Nat.le_add_right _ _, Nat.le_of_not_lt hwhole, rfl⟩

/-- A buffer without a whole frame, and with nothing wrong, is short. -/
theorem decodeFrame_none (h : decodeFrame buf maxLen = .ok none) :
    buf.length < headerLen + maxLen := by
  unfold decodeFrame at h
  split at h
  · rename_i hshort
    omega
  split at h
  · cases h
  dsimp only at h
  split at h
  · cases h
  · rename_i hlen
    split at h
    · rename_i hpart
      omega
    · cases h

theorem decodeFrame_header {ty : MessageType} {len : Nat} (hlen : len < 2 ^ 32) (rest : Bytes) :
    decodeFrame (ty.toByte :: beBytes 4 len ++ rest) maxLen =
      if maxLen < len then .error (.lengthTooLarge len maxLen)
      else if rest.length < len then .ok none
      else .ok (some (⟨ty, rest.take len⟩, headerLen + len)) := by
  have hcode : ofBe (((ty.toByte :: beBytes 4 len ++ rest).drop 1).take 4) = len := by
    rw [List.cons_append, List.drop_succ_cons, List.drop_zero,
      List.take_append_of_le_length (by simp), List.take_of_length_le (by simp), ofBe_beBytes,
      Nat.mod_eq_of_lt (by omega)]
  have htotal : (ty.toByte :: beBytes 4 len ++ rest).length = headerLen + rest.length := by
    simp [headerLen]
    omega
  have hpayload : ((ty.toByte :: beBytes 4 len ++ rest).take (headerLen + len)).drop headerLen =
      rest.take len := by
    have hhead : (ty.toByte :: beBytes 4 len).length = headerLen := by simp [headerLen]
    rw [← hhead, List.take_length_add_append, List.drop_left]
  unfold decodeFrame
  rw [if_neg (by omega)]
  simp only [List.cons_append, List.getD_cons_zero, MessageType.tryFrom_toByte]
  simp only [← List.cons_append, hcode, htotal, hpayload, Nat.add_lt_add_iff_left]

theorem decodeFrame_bytes {frame : Frame} (hlen : frame.payload.length < 2 ^ 32)
    (hmax : frame.payload.length ≤ maxLen) (more : Bytes) :
    decodeFrame (frame.bytes ++ more) maxLen = .ok (some (frame, frame.bytes.length)) := by
  rw [Frame.bytes, List.append_assoc, decodeFrame_header hlen,
    if_neg (Nat.not_lt.mpr hmax), if_neg (by simp), ← Frame.bytes, Frame.length_bytes,
    List.take_left]

theorem decodeFrame_part {frame : Frame} (hlen : frame.payload.length < 2 ^ 32)
    (hmax : frame.payload.length ≤ maxLen) (hpart : buf <+: frame.bytes)
    (hshort : buf.length < frame.bytes.length) : decodeFrame buf maxLen = .ok none := by
  by_cases hheader : buf.length < headerLen
  · unfold decodeFrame
    rw [if_pos hheader]
  · obtain ⟨rest, hrest⟩ : ∃ rest, buf = frame.ty.toByte :: beBytes 4 frame.payload.length ++ rest := by
      obtain ⟨rest, hrest⟩ := List.prefix_of_prefix_length_le (List.prefix_append _ frame.payload)
        hpart (by simp only [List.length_cons, length_beBytes]; unfold headerLen at hheader; omega)
      exact ⟨rest, hrest.symm⟩
    subst hrest
    rw [decodeFrame_header hlen, if_neg (Nat.not_lt.mpr hmax), if_pos]
    simp only [Frame.bytes, List.length_append] at hshort
    omega

end Decoding

/-! ## The stream decoder -/

def popper (limits : MessageLimits) : Popper OwnedMessageBuf MessageError where
  pop := popMessageBuf limits
  shrinks buf owned h := by
    unfold popMessageBuf at h ⊢
    split at h
    · cases h
    · cases h
    · rename_i frame consumed hframe
      obtain ⟨hpos, hle, -⟩ := decodeFrame_some hframe
      split at h
      · cases h
      · rename_i hdata
        rw [if_neg hdata, List.length_drop]
        unfold headerLen at hpos
        omega

/-- Read more, then pop messages until there are none. -/
def readMessages (limits : MessageLimits) (chunks : List Bytes) :
    List OwnedMessageBuf × Except MessageError Unit × Bytes :=
  (popper limits).receive [] chunks

def Frame.Fits (frame : Frame) (limits : MessageLimits) : Prop :=
  frame.payload.length ≤ limits.maxFrameLen ∧
    (frame.ty = .data → frame.payload.length ≤ limits.maxDataLen)

instance (frame : Frame) (limits : MessageLimits) : Decidable (frame.Fits limits) :=
  inferInstanceAs (Decidable (_ ∧ _))

theorem Frame.Fits.not_dataTooLarge {frame : Frame} {limits : MessageLimits}
    (h : frame.Fits limits) : dataTooLarge frame limits = false := by
  cases hty : decide (frame.ty = .data) with
  | false => simp [dataTooLarge, hty]
  | true =>
    have hle := h.2 (of_decide_eq_true hty)
    simp [dataTooLarge, hle]

def Frame.owned (frame : Frame) : OwnedMessageBuf := ⟨frame.ty, frame.bytes⟩

theorem Frame.message_owned (frame : Frame) : frame.owned.message = frame := by
  have hhead : (frame.ty.toByte :: beBytes 4 frame.payload.length).length = headerLen := by
    simp [headerLen]
  rw [Frame.owned, OwnedMessageBuf.message, Frame.bytes, ← hhead, List.drop_left]

theorem frames_popper (limits : MessageLimits) :
    (popper limits).Frames
      (fun owned => ∃ frame : Frame, owned = frame.owned ∧ frame.payload.length < 2 ^ 32 ∧
        frame.Fits limits) OwnedMessageBuf.buf where
  whole := by
    rintro _ ⟨frame, rfl, hlen, hfits⟩ more
    show popMessageBuf limits (frame.bytes ++ more) = _
    rw [popMessageBuf, decodeFrame_bytes hlen hfits.1]
    simp only [hfits.not_dataTooLarge, Bool.false_eq_true, if_false, List.take_left,
      List.drop_left]
    rfl
  part := by
    rintro _ ⟨frame, rfl, hlen, hfits⟩ buf hpart hshort
    show popMessageBuf limits buf = _
    rw [popMessageBuf, decodeFrame_part hlen hfits.1 hpart hshort]
  empty := rfl

section Laws

variable {limits : MessageLimits}

/-- The messages of a stream come back, with the bytes that stand for them. -/
theorem readMessages_encodeMessages {messages : List Frame} {bytes : Bytes}
    (hfits : ∀ message ∈ messages, message.Fits limits)
    (hencode : encodeMessages messages = .ok bytes) {chunks : List Bytes}
    (hchunks : chunks.flatten = bytes) :
    readMessages limits chunks = (messages.map Frame.owned, .ok (), []) := by
  obtain ⟨hlen, rfl⟩ := encodeMessages_ok hencode
  refine (frames_popper limits).receive ?_ ?_ ?_
  · intro owned howned
    obtain ⟨message, hmem, rfl⟩ := List.mem_map.mp howned
    exact ⟨message, rfl, hlen message hmem, hfits message hmem⟩
  · rw [List.nil_append, hchunks, List.flatMap_map]
    rfl
  · intro owned more howned
    obtain ⟨message, messages', rfl, rfl, -⟩ := List.map_eq_cons_iff.mp howned
    show 0 < message.bytes.length
    rw [Frame.length_bytes]
    unfold headerLen
    omega

/-- Both decoders agree on every buffer, and the stream decoder takes the bytes
of the message out. -/
theorem popMessageBuf_eq_decodeMessage (buf : Bytes) :
    match decodeMessage buf limits with
    | .error e => popMessageBuf limits buf = (.error e, buf)
    | .ok none => popMessageBuf limits buf = (.ok none, buf)
    | .ok (some (message, consumed)) =>
      consumed ≤ buf.length ∧ ∃ owned, owned.message = message ∧ owned.buf = buf.take consumed ∧
        popMessageBuf limits buf = (.ok (some owned), buf.drop consumed) := by
  unfold decodeMessage popMessageBuf
  cases hframe : decodeFrame buf limits.maxFrameLen with
  | error e => rfl
  | ok found =>
    cases found with
    | none => rfl
    | some whole =>
      obtain ⟨frame, consumed⟩ := whole
      obtain ⟨-, hle, hpayload⟩ := decodeFrame_some hframe
      cases hdata : dataTooLarge frame limits with
      | true => simp only [hdata, if_true]
      | false =>
        simp only [hdata, Bool.false_eq_true, if_false]
        refine ⟨hle, ⟨frame.ty, buf.take consumed⟩, ?_, rfl, rfl⟩
        rw [OwnedMessageBuf.message, ← hpayload]

/-- A popped frame is the front of the buffer, and within the limits. -/
theorem popMessageBuf_some {buf rest : Bytes} {owned : OwnedMessageBuf}
    (h : popMessageBuf limits buf = (.ok (some owned), rest)) :
    buf = owned.buf ++ rest ∧ dataTooLarge owned.message limits = false := by
  unfold popMessageBuf at h
  split at h
  · cases h
  · cases h
  · rename_i frame consumed hframe
    split at h
    · cases h
    · rename_i hdata
      cases h
      refine ⟨(List.take_append_drop _ _).symm, ?_⟩
      rw [OwnedMessageBuf.message, ← (decodeFrame_some hframe).2.2]
      exact Bool.eq_false_iff.mpr hdata

theorem popMessageBuf_other {buf rest : Bytes} {r : Except MessageError (Option OwnedMessageBuf)}
    (h : popMessageBuf limits buf = (r, rest)) (hr : ∀ owned, r ≠ .ok (some owned)) :
    rest = buf := by
  unfold popMessageBuf at h
  split at h
  · cases h
    rfl
  · cases h
    rfl
  · split at h
    · cases h
      rfl
    · cases h
      exact absurd rfl (hr _)

theorem popMessageBuf_none {buf rest : Bytes} (h : popMessageBuf limits buf = (.ok none, rest)) :
    rest.length < headerLen + limits.maxFrameLen := by
  unfold popMessageBuf at h
  split at h
  · cases h
  · rename_i hframe
    cases h
    exact decodeFrame_none hframe
  · split at h <;> cases h

end Laws

/-- The stream decoder is exact. Messages within the limits come back in order
with their payloads, whatever the chunks their bytes arrive in, and nothing is
left. On any bytes at all it agrees with the borrowing decoder and removes what
that consumes, an error leaves the buffer as it was, and a drain without an
error leaves less than a header and the largest frame. -/
theorem stream_framing_exact (limits : MessageLimits) :
    (∀ messages bytes, (∀ message ∈ messages, message.Fits limits) →
      encodeMessages messages = .ok bytes → ∀ chunks : List Bytes, chunks.flatten = bytes →
        ∃ popped, readMessages limits chunks = (popped, .ok (), []) ∧
          popped.map OwnedMessageBuf.message = messages) ∧
    (∀ buf, match decodeMessage buf limits with
      | .error e => popMessageBuf limits buf = (.error e, buf)
      | .ok none => popMessageBuf limits buf = (.ok none, buf)
      | .ok (some (message, consumed)) =>
        consumed ≤ buf.length ∧ ∃ owned, owned.message = message ∧ owned.buf = buf.take consumed ∧
          popMessageBuf limits buf = (.ok (some owned), buf.drop consumed)) ∧
    ∀ buf popped rest, (popper limits).drain buf = (popped, .ok (), rest) →
      rest.length < headerLen + limits.maxFrameLen := by
  refine ⟨fun messages bytes hfits hencode chunks hchunks => ?_, popMessageBuf_eq_decodeMessage,
    fun buf popped rest hdrain => ?_⟩
  · refine ⟨_, readMessages_encodeMessages hfits hencode hchunks, ?_⟩
    rw [List.map_map, Function.comp_def]
    simp only [Frame.message_owned, List.map_id']
  · obtain ⟨last, hlast⟩ := Popper.drain_ok hdrain
    exact popMessageBuf_none hlast

/-- Two messages that arrive byte by byte. -/
theorem stream_framing_exact_bytewise :
    ∃ popped, readMessages ⟨16, 16⟩ ([7, 0, 0, 0, 1, 9, 8, 0, 0, 0, 0].map ([·])) =
        (popped, .ok (), []) ∧
      popped.map OwnedMessageBuf.message = [⟨.ping, [9]⟩, ⟨.pong, []⟩] :=
  (stream_framing_exact ⟨16, 16⟩).1 [⟨.ping, [9]⟩, ⟨.pong, []⟩] _ (by decide) rfl _ rfl

end Slt.Proto
