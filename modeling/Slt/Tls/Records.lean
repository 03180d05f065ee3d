import Slt.Tls.Classifier

/-!
# What a sequence of records carries

`FramedAs hello wire` says that `wire` is a sequence of TLS records that ends
with the last byte of `hello`, the concatenation of the payloads. `deframe`
computes, for the start of a stream, the payload bytes with the place on the
wire where each of them ends, and what a reader says when it runs out of
them; the reader of the source reads exactly these bytes.
-/

namespace Slt.Tls

open Lib

/-! ## Records on the wire -/

def recordHeader (version : FixedBytes 2) (len : Nat) : Bytes :=
  tlsHandshakeContentType :: version.val ++ beBytes 2 len

structure TlsRecord where
  version : FixedBytes 2
  payload : Bytes
  bounded : payload.length < 2 ^ 16

def TlsRecord.encode (record : TlsRecord) : Bytes :=
  recordHeader record.version record.payload.length ++ record.payload

/-- Complete records, of any lengths, and the start of one more, up to the
end of the message. -/
def FramedAs (hello wire : Bytes) : Prop :=
  ∃ (records : List TlsRecord) (version : FixedBytes 2) (len : Nat) (part : Bytes),
    len < 2 ^ 16 ∧ part ≠ [] ∧ part.length ≤ len ∧
    wire = records.flatMap TlsRecord.encode ++ (recordHeader version len ++ part) ∧
    hello = records.flatMap TlsRecord.payload ++ part

/-- The same from the middle of a record that has `remaining` bytes left. -/
inductive Carries : Nat → Bytes → Bytes → Prop where
  | header {len : Nat} {wire hello : Bytes} (version : FixedBytes 2) (hlen : len < 2 ^ 16) :
      Carries len wire hello → Carries 0 (recordHeader version len ++ wire) hello
  | last {remaining : Nat} (b : UInt8) : Carries (remaining + 1) [b] [b]
  | byte {remaining : Nat} {wire hello : Bytes} (b : UInt8) :
      Carries remaining wire hello → Carries (remaining + 1) (b :: wire) (b :: hello)

theorem Carries.of_part {len : Nat} {part : Bytes} (hpart : part ≠ []) (hlen : part.length ≤ len) :
    Carries len part part := by
  induction part generalizing len with
  | nil => exact absurd rfl hpart
  | cons b part ih =>
    cases len with
    | zero => simp at hlen
    | succ len =>
      by_cases hrest : part = []
      · rw [hrest]
        exact .last b
      · exact .byte b (ih hrest (Nat.le_of_succ_le_succ hlen))

theorem Carries.append {payload wire hello : Bytes} (h : Carries 0 wire hello) :
    Carries payload.length (payload ++ wire) (payload ++ hello) := by
  induction payload with
  | nil => exact h
  | cons b payload ih => exact .byte b ih

/-- What is left of the current record, then records from a boundary on. -/
def CarriesFrom (remaining : Nat) (wire hello : Bytes) : Prop :=
  (hello ≠ [] ∧ hello.length ≤ remaining ∧ wire = hello) ∨
    ∃ chunk wire' hello', chunk.length = remaining ∧ wire = chunk ++ wire' ∧
      hello = chunk ++ hello' ∧ FramedAs hello' wire'

theorem Carries.from {remaining : Nat} {wire hello : Bytes} (h : Carries remaining wire hello) :
    CarriesFrom remaining wire hello := by
  induction h with
  | @header len wire hello version hlen _ ih =>
    refine .inr ⟨[], _, _, rfl, rfl, rfl, ?_⟩
    rcases ih with ⟨hne, hle, rfl⟩ | ⟨chunk, wire', hello', hlength, rfl, rfl, hframed⟩
    · exact ⟨[], version, len, wire, hlen, hne, hle, rfl, rfl⟩
    · obtain ⟨records, version', len', part, hlen', hne, hle, rfl, rfl⟩ := hframed
      refine ⟨⟨version, chunk, hlength ▸ hlen⟩ :: records, version', len', part, hlen', hne, hle,
        ?_, ?_⟩
      · simp [TlsRecord.encode, recordHeader, hlength]
      · simp
  | last b => exact .inl ⟨by simp, by simp, rfl⟩
  | byte b _ ih =>
    rcases ih with ⟨hne, hle, rfl⟩ | ⟨chunk, wire', hello', hlength, rfl, rfl, hframed⟩
    · exact .inl ⟨by simp, Nat.succ_le_succ hle, rfl⟩
    · exact .inr ⟨b :: chunk, wire', hello', congrArg (· + 1) hlength, rfl, rfl, hframed⟩

theorem framedAs_iff_carries {hello wire : Bytes} : FramedAs hello wire ↔ Carries 0 wire hello := by
  constructor
  · rintro ⟨records, version, len, part, hlen, hne, hle, rfl, rfl⟩
    induction records with
    | nil => exact .header version hlen (.of_part hne hle)
    | cons record records ih =>
      simp only [List.flatMap_cons, TlsRecord.encode, List.append_assoc] at ih ⊢
      exact .header record.version record.bounded ih.append
  · intro h
    rcases h.from with ⟨hne, hle, -⟩ | ⟨chunk, wire', hello', hlength, rfl, rfl, hframed⟩
    · exact absurd (List.length_eq_zero_iff.mp (Nat.le_zero.mp hle)) hne
    · rw [List.length_eq_zero_iff.mp hlength]
      exact hframed

/-! ## The payload of a stream -/

/-- The payload bytes ahead, each with its end on the wire, and the verdict of
a reader that wants more of them. -/
def deframe : (pos remaining : Nat) → Bytes → List (UInt8 × Nat) × Verdict
  | pos, 0, contentType :: _ :: _ :: hi :: lo :: rest =>
    if contentType = tlsHandshakeContentType then deframe (pos + 5) (ofBe [hi, lo]) rest
    else ([], .pass)
  | _, 0, _ => ([], .incomplete)
  | _, _ + 1, [] => ([], .incomplete)
  | pos, remaining + 1, b :: rest =>
    ((b, pos + 1) :: (deframe (pos + 1) remaining rest).1, (deframe (pos + 1) remaining rest).2)

/-- The place on the wire after so many payload bytes. -/
def wireEnd (pos : Nat) (ahead : List (UInt8 × Nat)) (n : Nat) : Nat :=
  ((ahead.take n).getLast?.map Prod.snd).getD pos

theorem wireEnd_zero (pos : Nat) (ahead : List (UInt8 × Nat)) : wireEnd pos ahead 0 = pos := rfl

theorem wireEnd_cons (pos : Nat) (entry : UInt8 × Nat) (ahead : List (UInt8 × Nat)) (n : Nat) :
    wireEnd pos (entry :: ahead) (n + 1) = wireEnd entry.2 ahead n := by
  unfold wireEnd
  rw [List.take_succ_cons, List.getLast?_cons]
  cases (ahead.take n).getLast? <;> rfl

theorem wireEnd_add (pos : Nat) (ahead : List (UInt8 × Nat)) (m n : Nat) (h : m ≤ ahead.length) :
    wireEnd pos ahead (m + n) = wireEnd (wireEnd pos ahead m) (ahead.drop m) n := by
  induction m generalizing pos ahead with
  | zero => simp [wireEnd_zero]
  | succ m ih =>
    cases ahead with
    | nil => simp at h
    | cons entry ahead =>
      rw [Nat.succ_add, wireEnd_cons, wireEnd_cons, List.drop_succ_cons]
      exact ih _ _ (Nat.le_of_succ_le_succ h)

theorem deframe_nil (pos remaining : Nat) : deframe pos remaining [] = ([], .incomplete) := by
  cases remaining <;> rfl

theorem deframe_short {pos : Nat} {input : Bytes} (h : input.length < 5) :
    deframe pos 0 input = ([], .incomplete) := by
  match input with
  | [] | [_] | [_, _] | [_, _, _] | [_, _, _, _] => rfl
  | _ :: _ :: _ :: _ :: _ :: rest =>
    simp only [List.length_cons] at h
    omega

/-- A reader only ever stops for want of bytes or at another content type. -/
theorem deframe_stop (pos remaining : Nat) (input : Bytes) :
    (deframe pos remaining input).2 = .incomplete ∨ (deframe pos remaining input).2 = .pass := by
  fun_induction deframe pos remaining input with
  | case1 => assumption
  | case2 => exact .inr rfl
  | case3 => exact .inl rfl
  | case4 => exact .inl rfl
  | case5 => assumption

theorem deframe_header {pos len : Nat} (version : FixedBytes 2) (hlen : len < 2 ^ 16)
    (rest : Bytes) :
    deframe pos 0 (recordHeader version len ++ rest) = deframe (pos + 5) len rest := by
  obtain ⟨bytes, hbytes⟩ := version
  obtain ⟨v₁, v₂, rfl⟩ := List.length_eq_two.mp hbytes
  have hof : ofBe (beBytes 2 len) = len := by
    rw [ofBe_beBytes]
    exact Nat.mod_eq_of_lt hlen
  obtain ⟨hi, lo, hbe⟩ := List.length_eq_two.mp (length_beBytes 2 len)
  rw [hbe] at hof
  simp [recordHeader, hbe, deframe, hof]

theorem wireEnd_start {ahead : List (UInt8 × Nat)} {n : Nat} (hahead : ahead ≠ []) (hn : 0 < n)
    (pos pos' : Nat) : wireEnd pos ahead n = wireEnd pos' ahead n := by
  cases ahead with
  | nil => exact absurd rfl hahead
  | cons entry ahead =>
    obtain ⟨n, rfl⟩ := Nat.exists_eq_succ_of_ne_zero (Nat.ne_of_gt hn)
    rw [wireEnd_cons, wireEnd_cons]

theorem length_recordHeader (version : FixedBytes 2) (len : Nat) :
    (recordHeader version len).length = 5 := by
  simp [recordHeader, version.property]

theorem Carries.ne_nil {remaining : Nat} {wire hello : Bytes} (h : Carries remaining wire hello) :
    hello ≠ [] := by
  induction h with
  | header _ _ _ ih => exact ih
  | last b => exact List.cons_ne_nil _ _
  | byte b _ _ => exact List.cons_ne_nil _ _

theorem Carries.deframe {remaining : Nat} {wire hello : Bytes} (h : Carries remaining wire hello)
    (pos : Nat) (rest : Bytes) :
    hello <+: (deframe pos remaining (wire ++ rest)).1.map Prod.fst ∧
      wireEnd pos (Tls.deframe pos remaining (wire ++ rest)).1 hello.length = pos + wire.length := by
  induction h generalizing pos with
  | @header len wire hello version hlen hcarries ih =>
    rw [List.append_assoc, deframe_header version hlen]
    obtain ⟨hinitial, hend⟩ := ih (pos + 5)
    refine ⟨hinitial, ?_⟩
    have hhello := hcarries.ne_nil
    have hahead : (Tls.deframe (pos + 5) len (wire ++ rest)).1 ≠ [] := by
      intro hnil
      rw [hnil] at hinitial
      exact hhello (List.prefix_nil.mp hinitial)
    rw [wireEnd_start hahead (List.length_pos_of_ne_nil hhello) pos (pos + 5), hend,
      List.length_append, length_recordHeader]
    omega
  | last b => exact ⟨⟨_, rfl⟩, rfl⟩
  | byte b _ ih =>
    obtain ⟨hinitial, hend⟩ := ih (pos + 1)
    refine ⟨List.cons_prefix_cons.mpr ⟨rfl, hinitial⟩, ?_⟩
    rw [List.length_cons, List.cons_append, Tls.deframe, wireEnd_cons, hend, List.length_cons]
    omega

/-- What is read is carried by the part of the stream that was needed for it. -/
theorem deframe_carries {pos remaining n : Nat} {input : Bytes} (hn : 0 < n)
    (hle : n ≤ (deframe pos remaining input).1.length) :
    ∃ wire rest, input = wire ++ rest ∧
      Carries remaining wire (((deframe pos remaining input).1.take n).map Prod.fst) := by
  fun_induction deframe pos remaining input generalizing n with
  | case1 pos v₁ v₂ hi lo rest ih =>
    obtain ⟨wire, tail, rfl, hcarries⟩ := ih hn hle
    have hbe : beBytes 2 (ofBe [hi, lo]) = [hi, lo] := beBytes_ofBe [hi, lo]
    refine ⟨recordHeader ⟨[v₁, v₂], rfl⟩ (ofBe [hi, lo]) ++ wire, tail, ?_, ?_⟩
    · simp [recordHeader, hbe]
    · exact .header _ (by simpa using ofBe_lt [hi, lo]) hcarries
  | case2 => exact absurd hle (Nat.not_le.mpr hn)
  | case3 => exact absurd hle (Nat.not_le.mpr hn)
  | case4 => exact absurd hle (Nat.not_le.mpr hn)
  | case5 pos remaining b rest ih =>
    obtain ⟨n, rfl⟩ := Nat.exists_eq_succ_of_ne_zero (Nat.ne_of_gt hn)
    cases n with
    | zero => exact ⟨[b], rest, rfl, .last b⟩
    | succ n =>
      obtain ⟨wire, tail, rfl, hcarries⟩ := ih (Nat.succ_pos n) (Nat.le_of_succ_le_succ hle)
      exact ⟨b :: wire, tail, rfl, .byte b hcarries⟩

/-- More of the stream gives more of the payload, unless the reader had stopped for good. -/
theorem deframe_append (pos remaining : Nat) (input more : Bytes) :
    (deframe pos remaining input).2 = .pass ∧
        deframe pos remaining (input ++ more) = deframe pos remaining input ∨
      (deframe pos remaining input).2 = .incomplete ∧
        (deframe pos remaining input).1 <+: (deframe pos remaining (input ++ more)).1 := by
  fun_induction deframe pos remaining input with
  | case1 pos v₁ v₂ hi lo rest ih => simpa [deframe] using ih
  | case2 pos contentType v₁ v₂ hi lo rest htype => exact .inl ⟨rfl, by simp [deframe, htype]⟩
  | case3 => exact .inr ⟨rfl, List.nil_prefix⟩
  | case4 => exact .inr ⟨rfl, List.nil_prefix⟩
  | case5 pos remaining b rest ih =>
    rcases ih with ⟨hstop, hsame⟩ | ⟨hstop, hinitial⟩
    · exact .inl ⟨hstop, by rw [List.cons_append, deframe, hsame]⟩
    · refine .inr ⟨hstop, ?_⟩
      rw [List.cons_append, deframe]
      exact List.cons_prefix_cons.mpr ⟨rfl, hinitial⟩

/-! ## The reader reads the payload -/

namespace RecordReader

def view (r : RecordReader) : List (UInt8 × Nat) × Verdict :=
  deframe r.pos r.recordRemaining (r.buf.drop r.pos)

theorem drop_header {buf : Bytes} {pos : Nat} (h : pos + 5 ≤ buf.length) :
    buf.drop pos = buf.getD pos 0 :: buf.getD (pos + 1) 0 :: buf.getD (pos + 2) 0 ::
      buf.getD (pos + 3) 0 :: buf.getD (pos + 4) 0 :: buf.drop (pos + 5) := by
  have hstep : ∀ i, i < buf.length → buf.drop i = buf.getD i 0 :: buf.drop (i + 1) := by
    intro i hi
    rw [List.drop_eq_getElem_cons hi, List.getD_eq_getElem?_getD, List.getElem?_eq_getElem hi]
    rfl
  rw [hstep pos (by omega), hstep (pos + 1) (by omega), hstep (pos + 2) (by omega),
    hstep (pos + 3) (by omega), hstep (pos + 4) (by omega)]

theorem view_currentRecord {r current : RecordReader} (h : r.currentRecord = .ok current) :
    r.view = current.view ∧ current.buf = r.buf ∧
      (r.pos ≤ r.buf.length → current.pos ≤ current.buf.length) := by
  unfold currentRecord at h
  split at h
  · rename_i hremaining
    obtain ⟨hlength, htype, rfl⟩ := nextRecord_ok h
    refine ⟨?_, rfl, fun _ => hlength⟩
    rw [view, hremaining, drop_header hlength, deframe, if_pos htype]
    rfl
  · cases h
    exact ⟨rfl, rfl, id⟩

theorem view_currentRecord_error {r : RecordReader} {v : Verdict}
    (h : r.currentRecord = .error v) : r.view = ([], v) := by
  unfold currentRecord at h
  split at h
  · rename_i hremaining
    unfold nextRecord at h
    split at h
    · rename_i hshort
      cases h
      rw [view, hremaining]
      exact deframe_short (by rw [List.length_drop]; omega)
    · rename_i hlength
      split at h
      · rename_i htype
        cases h
        rw [view, hremaining, drop_header (Nat.not_lt.mp hlength), deframe, if_neg htype]
      · cases h
  · cases h

theorem deframe_chunk (pos : Nat) {remaining n : Nat} {input : Bytes} (hremaining : n ≤ remaining)
    (hinput : n ≤ input.length) :
    ((deframe pos remaining input).1.take n).map Prod.fst = input.take n ∧
      n ≤ (deframe pos remaining input).1.length ∧
      wireEnd pos (deframe pos remaining input).1 n = pos + n ∧
      deframe (pos + n) (remaining - n) (input.drop n) =
        ((deframe pos remaining input).1.drop n, (deframe pos remaining input).2) := by
  induction n generalizing pos remaining input with
  | zero => exact ⟨by simp, Nat.zero_le _, rfl, by simp⟩
  | succ n ih =>
    obtain ⟨remaining, rfl⟩ := Nat.exists_eq_succ_of_ne_zero (Nat.ne_of_gt (Nat.lt_of_lt_of_le
      (Nat.succ_pos n) hremaining))
    cases input with
    | nil => simp at hinput
    | cons b input =>
      obtain ⟨htake, hle, hend, hdrop⟩ := ih (pos + 1) (Nat.le_of_succ_le_succ hremaining)
        (Nat.le_of_succ_le_succ hinput)
      refine ⟨?_, Nat.succ_le_succ hle, ?_, ?_⟩
      · rw [deframe, List.take_succ_cons, List.map_cons, htake, List.take_succ_cons]
      · rw [deframe, wireEnd_cons, hend]
        omega
      · rw [deframe, List.drop_succ_cons, List.drop_succ_cons, Nat.succ_sub_succ, ← hdrop]
        congr 1
        omega

theorem chunkLen_le (r : RecordReader) (wanted : Nat) :
    r.chunkLen wanted ≤ r.recordRemaining ∧ r.chunkLen wanted ≤ (r.buf.drop r.pos).length ∧
      r.chunkLen wanted ≤ wanted := by
  rw [List.length_drop, chunkLen]
  omega

theorem view_advance (r : RecordReader) (wanted : Nat) :
    (r.view.1.take (r.chunkLen wanted)).map Prod.fst =
        (r.buf.drop r.pos).take (r.chunkLen wanted) ∧
      r.chunkLen wanted ≤ r.view.1.length ∧
      wireEnd r.pos r.view.1 (r.chunkLen wanted) = r.pos + r.chunkLen wanted ∧
      (r.advance (r.chunkLen wanted)).view =
        (r.view.1.drop (r.chunkLen wanted), r.view.2) := by
  obtain ⟨hremaining, hbuf, -⟩ := chunkLen_le r wanted
  obtain ⟨htake, hle, hend, hdrop⟩ := deframe_chunk r.pos hremaining hbuf
  refine ⟨htake, hle, hend, ?_⟩
  rw [view, view, ← hdrop, List.drop_drop]
  rfl

/-- The loop delivers the next bytes of the payload, or the verdict at its end. -/
theorem fill_spec {r : RecordReader} (len : Nat) (out : Bytes) (hpos : r.pos ≤ r.buf.length) :
    (len - out.length ≤ r.view.1.length → ∃ r', r.fill len out =
        .ok (out ++ (r.view.1.take (len - out.length)).map Prod.fst, r') ∧
      r'.view = (r.view.1.drop (len - out.length), r.view.2) ∧
      r'.pos = wireEnd r.pos r.view.1 (len - out.length) ∧ r'.pos ≤ r'.buf.length) ∧
    (r.view.1.length < len - out.length → r.fill len out = .error r.view.2) := by
  -- No record left, an empty one, a chunk of one, and nothing more wanted.
  fun_induction fill r len out with
  | case1 r out hwanted v hcurrent =>
    rw [view_currentRecord_error hcurrent]
    have hpositive : 0 < len - out.length := Nat.sub_pos_of_lt hwanted
    exact ⟨fun h => absurd h (Nat.not_le.mpr hpositive), fun _ => rfl⟩
  | case2 r out hwanted current hcurrent havailable =>
    obtain ⟨hview, -, -⟩ := view_currentRecord hcurrent
    have hend : current.buf.drop current.pos = [] := List.drop_eq_nil_of_le (by omega)
    rw [hview, view, hend, deframe_nil]
    have hpositive : 0 < len - out.length := Nat.sub_pos_of_lt hwanted
    exact ⟨fun h => absurd h (Nat.not_le.mpr hpositive), fun _ => rfl⟩
  | case3 r out hwanted current hcurrent havailable taken ih =>
    obtain ⟨hview, -, hbound⟩ := view_currentRecord hcurrent
    obtain ⟨-, hbuf, hle⟩ := chunkLen_le current (len - out.length)
    obtain ⟨htake, hlength, hend, hadvance⟩ :=
      view_advance current (len - out.length)
    have htaken : current.chunkLen (len - out.length) = taken := rfl
    rw [htaken] at hbuf hle htake hlength hend hadvance
    clear_value taken
    have hout : (out ++ (current.buf.drop current.pos).take taken).length = out.length + taken := by
      rw [List.length_append, List.length_take, Nat.min_eq_left hbuf]
    have hpos' : (current.advance taken).pos ≤ (current.advance taken).buf.length := by
      have hcurrent := hbound hpos
      rw [List.length_drop] at hbuf
      simp only [advance]
      omega
    have ih := ih hpos'
    -- What is still wanted after the chunk is what the induction hypothesis delivers.
    obtain ⟨left, hleft⟩ := Nat.exists_eq_add_of_le hle
    have hwant : 0 < taken + left := hleft ▸ Nat.sub_pos_of_lt hwanted
    rw [hadvance, hout, Nat.sub_add_eq, hleft, Nat.add_sub_cancel_left, List.length_drop] at ih
    rw [hview, hleft]
    refine ⟨fun h => ?_, fun h => ih.2 (by omega)⟩
    obtain ⟨r', hfill, hrest, hwire, hend'⟩ := ih.1 (by omega)
    refine ⟨r', ?_, ?_, ?_, hend'⟩
    · rw [hfill, ← htake, List.append_assoc, ← List.map_append, ← List.take_add]
    · rw [hrest, List.drop_drop]
    · have hahead : current.view.1 ≠ [] := List.ne_nil_of_length_pos (Nat.lt_of_lt_of_le hwant h)
      rw [wireEnd_start hahead hwant r.pos current.pos, hwire, wireEnd_add _ _ _ _ hlength, hend]
      rfl
  | case4 r out hwanted =>
    have hzero : len - out.length = 0 := by omega
    rw [hzero]
    refine ⟨fun _ => ⟨r, by simp, by simp, rfl, hpos⟩, fun h => absurd h (Nat.not_lt_zero _)⟩

end RecordReader

end Slt.Tls
