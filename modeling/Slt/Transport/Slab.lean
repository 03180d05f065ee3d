import Slt.Transport.UdpQspIo

/-!
# The send slab keeps the datagrams

Seen from outside, the slab is a list of datagrams: a send appends one, a
transmit takes all of them away, a discard drops all of them. `Holds` relates
the socket backend to that list, `Accounts` says how the events of a call
change it, and along every run nothing is lost, duplicated or reordered.
-/

namespace Slt.Transport

open Lib

/-! ## Cutting joined datagrams -/

theorem groDatagramRanges_zero (stride : Nat) : groDatagramRanges 0 stride = [] := by
  have hnone : (0 + max stride 1 - 1) / max stride 1 = 0 := Nat.div_eq_of_lt (by omega)
  simp only [groDatagramRanges, hnone, List.range'_zero, List.map_nil]

/-- The first range is a whole stride, the others are those of the rest. -/
theorem groDatagramRanges_add {len stride : Nat} (h : 0 < stride) :
    groDatagramRanges (stride + len) stride =
      (0, stride) :: (groDatagramRanges len stride).map fun (off, fin) =>
        (stride + off, stride + fin) := by
  have hmax : max stride 1 = stride := by omega
  have hcount : (stride + len + stride - 1) / stride = (len + stride - 1) / stride + 1 := by
    rw [show stride + len + stride - 1 = len + stride - 1 + stride by omega,
      Nat.add_div_right _ h]
  simp only [groDatagramRanges, hmax, hcount, List.range'_succ, List.map_cons, Nat.zero_add]
  congr 1
  · simp
  · rw [← Nat.add_zero stride, ← List.map_add_range', Nat.add_zero]
    simp [Function.comp_def, Nat.add_assoc, Nat.add_min_add_left]

theorem splitDatagrams_append {d : Bytes} (hd : 0 < d.length) (rest : Bytes) :
    splitDatagrams (d ++ rest) d.length = d :: splitDatagrams rest d.length := by
  simp only [splitDatagrams, List.length_append, groDatagramRanges_add hd, List.map_cons,
    List.map_map, List.drop_zero, List.take_left]
  congr 1
  refine List.map_congr_left ?_
  rintro ⟨off, fin⟩ -
  simp only [Function.comp_apply]
  rw [List.take_length_add_append, List.drop_length_add_append]

theorem splitDatagrams_flatten {size : Nat} (hsize : 0 < size) {ds : List Bytes}
    (hds : ∀ d ∈ ds, d.length = size) : splitDatagrams ds.flatten size = ds := by
  induction ds with
  | nil => simp [splitDatagrams, groDatagramRanges_zero]
  | cons d ds ih =>
    obtain ⟨rfl, hrest⟩ := List.forall_mem_cons.mp hds
    rw [List.flatten_cons, splitDatagrams_append hsize, ih hrest]

theorem length_flatten {size : Nat} {ds : List Bytes} (hds : ∀ d ∈ ds, d.length = size) :
    ds.flatten.length = ds.length * size := by
  rw [List.length_flatten, List.map_congr_left hds, List.map_const', List.sum_replicate_nat]

theorem maxGsoSegmentsForSize_bounds (socketMaxSegments : Nat) {size : Nat} (hpos : size ≠ 0)
    (hle : size ≤ maxUdpGsoPayload) :
    1 ≤ maxGsoSegmentsForSize socketMaxSegments size ∧
      maxGsoSegmentsForSize socketMaxSegments size * size ≤ maxUdpGsoPayload := by
  have hone : 1 ≤ maxUdpGsoPayload / size := (Nat.one_le_div_iff (by omega)).mpr hle
  have hpayload : maxUdpGsoPayload / size * size ≤ maxUdpGsoPayload := Nat.div_mul_le_self _ _
  have hsmaller : maxGsoSegmentsForSize socketMaxSegments size ≤ maxUdpGsoPayload / size := by
    simp only [maxGsoSegmentsForSize]
    split_ifs <;> omega
  constructor
  · simp only [maxGsoSegmentsForSize]
    split_ifs <;> omega
  · exact (Nat.mul_le_mul_right size hsmaller).trans hpayload

namespace UdpQspIo

/-! ## What the calls do -/

section
variable (io : UdpQspIo) {segmentSize maxSegments : Nat} {bytes : Bytes}

/-- An empty slab is not transmitted; a transmit that fails or is abandoned
leaves everything as it was. -/
inductive FlushOutcome {α : Type} : Except (Stop IoError) α → UdpQspIo → List SlabEvent → Prop where
  | nothing (a : α) (h : io.sendSegments = 0) : FlushOutcome (.ok a) io []
  | stopped (e : Stop IoError) (h : io.sendSegments ≠ 0) : FlushOutcome (.error e) io []
  | transmitted (a : α) (h : io.sendSegments ≠ 0) :
    FlushOutcome (.ok a) io.clearSendSlab [.transmitted io.transmit]

theorem transmitLoop_outcome (h : io.sendSegments ≠ 0) (attempts : List (Attempt Unit)) :
    (transmitLoop attempts).Triple io (FlushOutcome io) := by
  induction attempts with
  | nil => exact .stopped _ h
  | cons attempt rest ih =>
    cases attempt with
    | notReady e => exact .stopped _ h
    | wouldBlock => exact ih
    | refused e => exact .stopped _ h
    | done u => exact .transmitted rest h

theorem flushPending_outcome (attempts : List (Attempt Unit)) :
    (flushPending attempts).Triple io (FlushOutcome io) := by
  rw [flushPending, Handler.triple_get_bind]
  split
  next hzero => exact .nothing attempts hzero
  next hsome => exact transmitLoop_outcome io hsome attempts

/-- Where a send stands when its datagram goes into the slab: the slab is as it
was, or it has been transmitted. -/
inductive ReadyToAppend (segmentSize maxSegments : Nat) : UdpQspIo → List SlabEvent → Prop where
  | kept (h : io.mustFlushBeforeAppend segmentSize maxSegments = false) :
    ReadyToAppend segmentSize maxSegments io []
  | flushed (h : io.sendSegments ≠ 0) :
    ReadyToAppend segmentSize maxSegments io.clearSendSlab [.transmitted io.transmit]

/-- What follows the append: no transmit is due or it fails, or it succeeds. -/
inductive AfterAppend : Except (Stop IoError) Unit → UdpQspIo → List SlabEvent → Prop where
  | kept (r : Except (Stop IoError) Unit) : AfterAppend r io []
  | transmitted (h : io.sendSegments ≠ 0) :
    AfterAppend (.ok ()) io.clearSendSlab [.transmitted io.transmit]

/-- Everything a send can come to: it stops with its datagram outside the slab
and the slab as it was, or the datagram goes into the slab. -/
inductive SendOutcome (maxSegments : Nat) (bytes : Bytes) :
    Except (Stop IoError) Unit → UdpQspIo → List SlabEvent → Prop where
  | stopped (e : Stop IoError) : SendOutcome maxSegments bytes (.error e) io []
  | appended {ready out r io' out'} (hempty : bytes.length ≠ 0)
      (hlarge : bytes.length ≤ maxUdpGsoPayload)
      (hready : ReadyToAppend io bytes.length maxSegments ready out)
      (hafter : AfterAppend (ready.append bytes) r io' out') :
    SendOutcome maxSegments bytes r io' (out ++ .appended bytes :: out')

theorem sendSegments_of_mustFlush (h : io.mustFlushBeforeAppend segmentSize maxSegments = true) :
    io.sendSegments ≠ 0 := by
  intro hzero
  simp [mustFlushBeforeAppend, hzero] at h

@[simp] theorem sendSegments_append : (io.append bytes).sendSegments = io.sendSegments + 1 := by
  simp only [append]
  split <;> rfl

theorem flushBeforeAppend_outcome (attempts : List (Attempt Unit)) :
    (flushBeforeAppend segmentSize maxSegments attempts).Triple io fun r ready out =>
      (∀ a, r = .ok a → ReadyToAppend io segmentSize maxSegments ready out) ∧
        ∀ e, r = .error e → ready = io ∧ out = [] := by
  rw [flushBeforeAppend, Handler.triple_get_bind]
  split
  next hmust =>
    refine Handler.Triple.weaken (flushPending_outcome io attempts) ?_
    have hsome := sendSegments_of_mustFlush io hmust
    rintro _ _ _ (⟨a, hzero⟩ | ⟨e, -⟩ | ⟨a, -⟩)
    · exact absurd hzero hsome
    · exact ⟨nofun, fun _ _ => ⟨rfl, rfl⟩⟩
    · exact ⟨fun _ _ => .flushed hsome, nofun⟩
  next hmay => exact ⟨fun _ _ => .kept (Bool.not_eq_true _ ▸ hmay), nofun⟩

theorem sendPacket_outcome (maxGsoSegments : Nat) (bytes : Bytes)
    (attempts : List (Attempt Unit)) :
    (sendPacket maxGsoSegments bytes attempts).Triple io
      (SendOutcome io (maxGsoSegmentsForSize maxGsoSegments bytes.length) bytes) := by
  rw [sendPacket]
  split_ifs with hempty hlarge
  · exact .stopped _
  · exact .stopped _
  · refine Handler.Triple.bind (flushBeforeAppend_outcome io attempts) ?_ ?_
    · intro attempts ready out h
      have hready := h.1 attempts rfl
      rw [Handler.triple_modify_bind, Handler.triple_emit_bind, Handler.triple_get_bind]
      refine Handler.Triple.weaken (Q := fun r io' out' => SendOutcome io _ bytes r io'
        (out ++ .appended bytes :: out')) (P := AfterAppend (ready.append bytes)) ?_
        fun _ _ _ hafter => .appended hempty (Nat.le_of_not_lt hlarge) hready hafter
      split
      -- A full slab is flushed at once; a flush that stops leaves it for the next call.
      next hdue =>
        refine Handler.Triple.bind (flushPending_outcome _ attempts) ?_ ?_
        · rintro _ _ _ (⟨_, hzero⟩ | _ | ⟨_, hsome⟩)
          · exact absurd hzero (by simp)
          · exact .transmitted hsome
        · rintro e _ _ (_ | ⟨_, -⟩ | _)
          exact .kept (.error e)
      next hroom => exact .kept (.ok ())
    · rintro e ready out ⟨-, hstop⟩
      obtain ⟨rfl, rfl⟩ := hstop e rfl
      exact .stopped e

end

/-! ## The slab as a list of datagrams -/

/-- The slab is the concatenation of these datagrams, all of one size. -/
structure Holds (io : UdpQspIo) (ds : List Bytes) : Prop where
  buf : io.sendBuf = ds.flatten
  segments : io.sendSegments = ds.length
  empty : ds = [] → io.sendSegmentSize = none
  size : ∀ d ∈ ds, io.sendSegmentSize = some d.length
  nonempty : ∀ d ∈ ds, 0 < d.length
  bounded : io.sendBuf.length ≤ maxUdpGsoPayload

def queued (self : UdpQspIo) : List Bytes :=
  match self.sendSegmentSize with
  | none => []
  | some size => splitDatagrams self.sendBuf size

section
variable {io : UdpQspIo} {ds : List Bytes}

theorem holds_clearSendSlab (io : UdpQspIo) : io.clearSendSlab.Holds [] where
  buf := rfl
  segments := rfl
  empty _ := rfl
  size := nofun
  nonempty := nofun
  bounded := Nat.zero_le _

theorem Holds.split (h : io.Holds ds) {size : Nat} (hsize : io.sendSegmentSize = some size) :
    splitDatagrams io.sendBuf size = ds := by
  have huniform : ∀ d ∈ ds, d.length = size := fun d hd =>
    (Option.some.inj (hsize ▸ h.size d hd)).symm
  rcases hds : ds with _ | ⟨d, rest⟩
  · exact nomatch (h.empty hds).symm.trans hsize
  · have hd : d ∈ ds := hds ▸ List.mem_cons_self
    have hpos : 0 < size := huniform d hd ▸ h.nonempty d hd
    rw [h.buf, splitDatagrams_flatten hpos huniform, hds]

theorem Holds.queued_eq (h : io.Holds ds) : io.queued = ds := by
  rcases hds : ds with _ | ⟨d, rest⟩
  · rw [queued, h.empty hds]
  · have hsize := h.size d (hds ▸ List.mem_cons_self)
    rw [queued, hsize]
    exact (h.split hsize).trans hds

theorem Holds.segments_eq_zero (h : io.Holds ds) : io.sendSegments = 0 ↔ ds = [] := by
  rw [h.segments, List.length_eq_zero_iff]

theorem Holds.datagrams_transmit (h : io.Holds ds) (hsome : io.sendSegments ≠ 0) :
    io.transmit.datagrams = ds := by
  rcases hds : ds with _ | ⟨d, rest⟩
  · exact absurd (h.segments_eq_zero.mpr hds) hsome
  · have hsize := h.size d (hds ▸ List.mem_cons_self)
    cases rest with
    | nil =>
      have hone : ¬io.sendSegments > 1 := by simp [h.segments, hds]
      simp [transmit, Transmit.datagrams, hsize, Option.filter, hone, h.buf, hds]
    | cons d' rest =>
      have hmany : io.sendSegments > 1 := by simp [h.segments, hds]
      simp only [transmit, Transmit.datagrams, hsize, Option.filter, hmany, decide_true,
        ↓reduceIte]
      exact (h.split hsize).trans hds

theorem mustFlushBeforeAppend_eq_false {segmentSize maxSegments : Nat}
    (h : io.mustFlushBeforeAppend segmentSize maxSegments = false) (hsome : io.sendSegments ≠ 0) :
    io.sendSegmentSize = some segmentSize ∧ io.sendSegments < maxSegments := by
  simp only [mustFlushBeforeAppend, hsome, ↓reduceIte, decide_eq_false_iff_not, not_or, not_not,
    Nat.not_le] at h
  exact h

/-- What the slab holds after an append that needs no flush, and that it stays
below the limit of the call. -/
theorem Holds.append (h : io.Holds ds) {bytes : Bytes} {maxGsoSegments : Nat}
    (hempty : bytes.length ≠ 0) (hlarge : bytes.length ≤ maxUdpGsoPayload)
    (hmay : io.mustFlushBeforeAppend bytes.length
      (maxGsoSegmentsForSize maxGsoSegments bytes.length) = false) :
    (io.append bytes).Holds (ds ++ [bytes]) ∧
      (io.append bytes).sendBuf.length ≤
        maxGsoSegmentsForSize maxGsoSegments bytes.length * bytes.length := by
  obtain ⟨hone, hmax⟩ := maxGsoSegmentsForSize_bounds maxGsoSegments hempty hlarge
  generalize maxGsoSegmentsForSize maxGsoSegments bytes.length = maxSegments at *
  -- An append to an empty slab sets the size; another one finds its own size there.
  have hcases : (io.append bytes).sendBuf = io.sendBuf ++ bytes ∧
      (io.append bytes).sendSegmentSize = some bytes.length ∧
      (∀ d ∈ ds, d.length = bytes.length) ∧ ds.length + 1 ≤ maxSegments := by
    by_cases hzero : io.sendSegments = 0
    · have hds := h.segments_eq_zero.mp hzero
      simp [UdpQspIo.append, hzero, hds, hone]
    · obtain ⟨hsize, hroom⟩ := mustFlushBeforeAppend_eq_false hmay hzero
      refine ⟨by simp [UdpQspIo.append, hzero], by simp [UdpQspIo.append, hzero, hsize], ?_, ?_⟩
      · intro d hd
        exact (Option.some.inj (hsize.symm.trans (h.size d hd))).symm
      · exact h.segments ▸ hroom
  obtain ⟨hbuf, hsize, huniform, hroom⟩ := hcases
  have hall : ∀ d ∈ ds ++ [bytes], d.length = bytes.length := by
    rintro d hd
    rcases List.mem_append.mp hd with hd | hd
    · exact huniform d hd
    · rw [List.mem_singleton.mp hd]
  have hflat : (io.append bytes).sendBuf = (ds ++ [bytes]).flatten := by
    rw [hbuf, h.buf, List.flatten_append, List.flatten_singleton]
  have hlen : (io.append bytes).sendBuf.length ≤ maxSegments * bytes.length := by
    rw [hflat, length_flatten hall, List.length_append]
    exact Nat.mul_le_mul_right _ hroom
  refine ⟨⟨hflat, ?_, ?_, ?_, ?_, hlen.trans hmax⟩, hlen⟩
  · rw [sendSegments_append, h.segments, List.length_append, List.length_singleton]
  · intro hnil
    simp at hnil
  · intro d hd
    rw [hsize, hall d hd]
  · intro d hd
    rw [hall d hd]
    exact Nat.pos_of_ne_zero hempty

end

/-! ## Accounts -/

/-- How events change the list of datagrams in the slab. -/
inductive Accounts : List Bytes → List SlabEvent → List Bytes → Prop where
  | done {ds} : Accounts ds [] ds
  | appended {ds events ds'} (bytes : Bytes) (h : Accounts (ds ++ [bytes]) events ds') :
    Accounts ds (.appended bytes :: events) ds'
  | transmitted {ds events ds'} (transmit : Transmit) (hds : transmit.datagrams = ds)
      (h : Accounts [] events ds') :
    Accounts ds (.transmitted transmit :: events) ds'
  | discarded {ds events ds'} (count : Nat) (hcount : count = ds.length)
      (h : Accounts [] events ds') :
    Accounts ds (.discarded count :: events) ds'

theorem Accounts.append {ds ds' ds'' : List Bytes} {events events' : List SlabEvent}
    (h : Accounts ds events ds') (h' : Accounts ds' events' ds'') :
    Accounts ds (events ++ events') ds'' := by
  induction h with
  | done => exact h'
  | appended bytes _ ih => exact .appended bytes (ih h')
  | transmitted transmit hds _ ih => exact .transmitted transmit hds (ih h')
  | discarded count hcount _ ih => exact .discarded count hcount (ih h')

/-- The datagrams that the socket has taken, in order. -/
def sent (events : List SlabEvent) : List Bytes :=
  events.flatMap fun
    | .transmitted transmit => transmit.datagrams
    | _ => []

/-- The appended datagrams in order, without those that each discard has
reported: the newest ones at its time. -/
def keptFrom : List Bytes → List SlabEvent → List Bytes
  | ds, [] => ds
  | ds, .appended bytes :: events => keptFrom (ds ++ [bytes]) events
  | ds, .transmitted _ :: events => keptFrom ds events
  | ds, .discarded count :: events => keptFrom (ds.take (ds.length - count)) events

def kept (events : List SlabEvent) : List Bytes := keptFrom [] events

/-- Behind what was sent before, the slab is what is left of the appended
datagrams. -/
theorem Accounts.keptFrom_eq {ds ds' : List Bytes} {events : List SlabEvent}
    (h : Accounts ds events ds') (before : List Bytes) :
    before ++ (sent events ++ ds') = keptFrom (before ++ ds) events := by
  induction h generalizing before with
  | done => rfl
  | appended bytes _ ih =>
    rw [keptFrom, List.append_assoc]
    exact ih before
  | @transmitted ds events ds' transmit hds _ ih =>
    rw [keptFrom]
    have := ih (before ++ ds)
    rw [List.append_nil] at this
    rw [← this]
    simp [sent, hds]
  | @discarded ds events ds' count hcount _ ih =>
    have := ih before
    rw [List.append_nil] at this
    rw [keptFrom, hcount, List.length_append, Nat.add_sub_cancel, List.take_left, ← this]
    rfl

/-! ## Whole runs -/

inductive Call where
  | send (maxGsoSegments : Nat) (bytes : Bytes) (attempts : List (Attempt Unit))
  | flush (attempts : List (Attempt Unit))
  | discardPendingSend
  | setPeer (peer : SocketAddr)

def Call.run (io : UdpQspIo) : Call → UdpQspIo × List SlabEvent
  | .send maxGsoSegments bytes attempts => ((sendPacket maxGsoSegments bytes attempts).run io).2
  | .flush attempts => ((flushPending attempts).run io).2
  | .discardPendingSend =>
    let (count, io) := io.discardPendingSend
    (io, [.discarded count])
  | .setPeer peer => (io.setPeer peer, [])

def runCalls (io : UdpQspIo) : List Call → UdpQspIo × List SlabEvent
  | [] => (io, [])
  | call :: calls =>
    let (io, events) := call.run io
    let (io, events') := runCalls io calls
    (io, events ++ events')

section
variable {io : UdpQspIo} {ds : List Bytes}

variable (h : io.Holds ds)
include h

theorem Holds.flushPending (attempts : List (Attempt Unit)) :
    (UdpQspIo.flushPending attempts).Triple io fun _ io' events =>
      ∃ ds', io'.Holds ds' ∧ Accounts ds events ds' := by
  refine Handler.Triple.weaken (flushPending_outcome io attempts) ?_
  rintro _ _ _ (⟨_, -⟩ | ⟨_, -⟩ | ⟨_, hsome⟩)
  · exact ⟨ds, h, .done⟩
  · exact ⟨ds, h, .done⟩
  · exact ⟨[], holds_clearSendSlab io, .transmitted _ (h.datagrams_transmit hsome) .done⟩

theorem Holds.readyToAppend {segmentSize maxSegments : Nat} {ready : UdpQspIo}
    {out : List SlabEvent} (hready : ReadyToAppend io segmentSize maxSegments ready out) :
    ∃ ds', ready.Holds ds' ∧ Accounts ds out ds' ∧
      ready.mustFlushBeforeAppend segmentSize maxSegments = false := by
  cases hready with
  | kept hmay => exact ⟨ds, h, .done, hmay⟩
  | flushed hsome =>
    exact ⟨[], holds_clearSendSlab io, .transmitted _ (h.datagrams_transmit hsome) .done, rfl⟩

theorem Holds.afterAppend {r : Except (Stop IoError) Unit} {io' : UdpQspIo} {out : List SlabEvent}
    (hafter : AfterAppend io r io' out) :
    ∃ ds', io'.Holds ds' ∧ Accounts ds out ds' := by
  cases hafter with
  | kept r => exact ⟨ds, h, .done⟩
  | transmitted hsome =>
    exact ⟨[], holds_clearSendSlab io, .transmitted _ (h.datagrams_transmit hsome) .done⟩

theorem Holds.sendPacket (maxGsoSegments : Nat) (bytes : Bytes) (attempts : List (Attempt Unit)) :
    (UdpQspIo.sendPacket maxGsoSegments bytes attempts).Triple io fun _ io' events =>
      ∃ ds', io'.Holds ds' ∧ Accounts ds events ds' := by
  refine Handler.Triple.weaken (sendPacket_outcome io maxGsoSegments bytes attempts) ?_
  rintro r io' events (⟨e⟩ | ⟨hempty, hlarge, hready, hafter⟩)
  · exact ⟨ds, h, .done⟩
  · obtain ⟨ds₁, hready, hbefore, hmay⟩ := h.readyToAppend hready
    obtain ⟨ds₂, hlast, hend⟩ := (hready.append hempty hlarge hmay).1.afterAppend hafter
    exact ⟨ds₂, hlast, hbefore.append (.appended bytes hend)⟩

theorem Holds.setPeer (peer : SocketAddr) : (io.setPeer peer).Holds ds :=
  ⟨h.buf, h.segments, h.empty, h.size, h.nonempty, h.bounded⟩

theorem Holds.call (call : Call) :
    ∃ ds', (call.run io).1.Holds ds' ∧ Accounts ds (call.run io).2 ds' := by
  cases call with
  | send maxGsoSegments bytes attempts => exact h.sendPacket maxGsoSegments bytes attempts
  | flush attempts => exact h.flushPending attempts
  | discardPendingSend =>
    exact ⟨[], holds_clearSendSlab io, .discarded _ h.segments .done⟩
  | setPeer peer =>
    exact ⟨ds, h.setPeer peer, .done⟩

theorem Holds.calls (calls : List Call) :
    ∃ ds', (runCalls io calls).1.Holds ds' ∧ Accounts ds (runCalls io calls).2 ds' := by
  induction calls generalizing io ds with
  | nil => exact ⟨ds, h, .done⟩
  | cons call calls ih =>
    obtain ⟨ds₁, hnext, hfirst⟩ := h.call call
    obtain ⟨ds₂, hlast, hrest⟩ := ih hnext
    exact ⟨ds₂, hlast, hfirst.append hrest⟩

end

/-! ## Where transmits go -/

/-- The peer is `peer`, and so is the destination of every transmit on the way. -/
structure SentTo (peer : SocketAddr) (io : UdpQspIo) (events : List SlabEvent) : Prop where
  current : io.peer = peer
  destination : ∀ transmit, .transmitted transmit ∈ events → transmit.destination = peer

theorem SentTo.nothing (io : UdpQspIo) : SentTo io.peer io [] := ⟨rfl, nofun⟩

theorem SentTo.transmitted (io : UdpQspIo) :
    SentTo io.peer io.clearSendSlab [.transmitted io.transmit] := by
  refine ⟨rfl, fun transmit hmem => ?_⟩
  cases List.mem_singleton.mp hmem
  rfl

theorem SentTo.append {peer : SocketAddr} {io io' : UdpQspIo} {events events' : List SlabEvent}
    (h : SentTo peer io events) (h' : SentTo peer io' events') :
    SentTo peer io' (events ++ events') := by
  refine ⟨h'.current, fun transmit hmem => ?_⟩
  rcases List.mem_append.mp hmem with hmem | hmem
  · exact h.destination transmit hmem
  · exact h'.destination transmit hmem

theorem sentTo_flushPending (io : UdpQspIo) (attempts : List (Attempt Unit)) :
    (flushPending attempts).Triple io fun _ => SentTo io.peer := by
  refine Handler.Triple.weaken (flushPending_outcome io attempts) ?_
  rintro _ _ _ (⟨_, -⟩ | ⟨_, -⟩ | ⟨_, -⟩)
  · exact .nothing io
  · exact .nothing io
  · exact .transmitted io

theorem sentTo_sendPacket (io : UdpQspIo) (maxGsoSegments : Nat) (bytes : Bytes)
    (attempts : List (Attempt Unit)) :
    (sendPacket maxGsoSegments bytes attempts).Triple io fun _ => SentTo io.peer := by
  refine Handler.Triple.weaken (sendPacket_outcome io maxGsoSegments bytes attempts) ?_
  rintro r io' events (⟨e⟩ | ⟨hempty, hlarge, hready, hafter⟩)
  · exact .nothing io
  rename_i ready out out'
  have hready : SentTo io.peer ready out := by
    cases hready with
    | kept _ => exact .nothing io
    | flushed _ => exact .transmitted io
  have happend : (ready.append bytes).peer = io.peer := by
    rw [← hready.current, append]
    split <;> rfl
  have hafter : SentTo io.peer io' out' := by
    cases hafter with
    | kept _ => exact ⟨happend, nofun⟩
    | transmitted _ => exact happend ▸ .transmitted _
  refine hready.append ⟨hafter.current, fun transmit hmem => ?_⟩
  cases hmem with
  | tail _ hmem => exact hafter.destination transmit hmem

theorem sentTo_calls {io : UdpQspIo} {calls : List Call} (h : ∀ peer, .setPeer peer ∉ calls) :
    SentTo io.peer (runCalls io calls).1 (runCalls io calls).2 := by
  induction calls generalizing io with
  | nil => exact .nothing io
  | cons call calls ih =>
    have hcall : SentTo io.peer (call.run io).1 (call.run io).2 := by
      cases call with
      | send maxGsoSegments bytes attempts => exact sentTo_sendPacket io maxGsoSegments bytes attempts
      | flush attempts => exact sentTo_flushPending io attempts
      | discardPendingSend => exact ⟨rfl, fun _ hmem => nomatch List.mem_singleton.mp hmem⟩
      | setPeer peer => exact (h peer List.mem_cons_self).elim
    have hrest : SentTo (call.run io).1.peer _ _ :=
      ih fun peer hmem => h peer (List.mem_cons_of_mem _ hmem)
    rw [hcall.current] at hrest
    exact hcall.append hrest

def appended (events : List SlabEvent) : List Bytes :=
  events.filterMap fun
    | .appended bytes => some bytes
    | _ => none

/-- A send that completes has put its datagram into the slab, once; one that
stops has done so or has left everything as it was. -/
theorem sendPacket_appends (io : UdpQspIo) (maxGsoSegments : Nat) (bytes : Bytes)
    (attempts : List (Attempt Unit)) :
    (UdpQspIo.sendPacket maxGsoSegments bytes attempts).Triple io fun r io' events =>
      appended events = [bytes] ∨ (∃ e, r = .error e) ∧ io' = io ∧ events = [] := by
  refine Handler.Triple.weaken (sendPacket_outcome io maxGsoSegments bytes attempts) ?_
  rintro r io' events (⟨e⟩ | ⟨-, -, hready, hafter⟩)
  · exact .inr ⟨⟨e, rfl⟩, rfl, rfl⟩
  · left
    cases hready <;> cases hafter <;> simp [appended]

theorem flushPending_stopped (io : UdpQspIo) (attempts : List (Attempt Unit)) :
    (UdpQspIo.flushPending attempts).Triple io fun r io' events =>
      ∀ e, r = .error e → io' = io ∧ events = [] := by
  refine Handler.Triple.weaken (flushPending_outcome io attempts) ?_
  rintro _ _ _ (_ | _ | _) e he
  · cases he
  · exact ⟨rfl, rfl⟩
  · cases he

theorem holds_new (peer : SocketAddr) : (new peer).Holds [] := holds_clearSendSlab (new peer)

/-- A send that stops leaves the slab as it was, or with the datagram behind
what was there, or with the datagram alone once the rest has been transmitted. -/
theorem Holds.sendPacket_stopped {io : UdpQspIo} {ds : List Bytes} (h : io.Holds ds)
    (maxGsoSegments : Nat) (bytes : Bytes) (attempts : List (Attempt Unit)) :
    (UdpQspIo.sendPacket maxGsoSegments bytes attempts).Triple io fun r io' events =>
      ∀ e, r = .error e →
        io' = io ∧ events = [] ∨
        io'.queued = io.queued ++ [bytes] ∧ events = [.appended bytes] ∨
        io'.queued = [bytes] ∧ events = [.transmitted io.transmit, .appended bytes] := by
  refine Handler.Triple.weaken (sendPacket_outcome io maxGsoSegments bytes attempts) ?_
  rintro r io' events (⟨e⟩ | ⟨hempty, hlarge, hready, hafter⟩) e' he
  · exact .inl ⟨rfl, rfl⟩
  · right
    subst he
    cases hafter
    obtain ⟨ds', hheld, -, hmay⟩ := h.readyToAppend hready
    have happended := (hheld.append hempty hlarge hmay).1.queued_eq
    cases hready with
    | kept => exact .inl ⟨by rw [happended, hheld.queued_eq], rfl⟩
    | flushed => exact .inr ⟨by rw [happended, ← hheld.queued_eq]; rfl, rfl⟩

/-- Along every sequence of calls, whatever becomes of the transmits: the slab
is a number of datagrams of one size that fit into one transmit; what the
socket has taken and then the slab are the appended datagrams in order without
the discarded ones; and a call that stops loses nothing. -/
theorem udp_batching_preserves_datagrams (peer : SocketAddr) (calls : List Call) :
    let (io, events) := runCalls (new peer) calls
    (io.queued.flatten = io.sendBuf ∧ io.queued.length = io.sendSegments ∧
      (∀ d ∈ io.queued, io.sendSegmentSize = some d.length) ∧ io.sendBuf.length ≤ 65535) ∧
    sent events ++ io.queued = kept events ∧
    (∀ attempts, (UdpQspIo.flushPending attempts).Triple io fun r io' events' =>
      ∀ e, r = .error e → io' = io ∧ events' = []) ∧
    ∀ maxGsoSegments bytes attempts,
      (UdpQspIo.sendPacket maxGsoSegments bytes attempts).Triple io fun r io' events' =>
        (r = .ok () → appended events' = [bytes]) ∧
        ∀ e, r = .error e →
          io' = io ∧ events' = [] ∨
          io'.queued = io.queued ++ [bytes] ∧ events' = [.appended bytes] ∨
          io'.queued = [bytes] ∧ events' = [.transmitted io.transmit, .appended bytes] := by
  obtain ⟨ds, hholds, haccounts⟩ := (holds_new peer).calls calls
  generalize hio : (runCalls (new peer) calls).1 = io at hholds
  have hqueued := hholds.queued_eq
  refine ⟨⟨?_, ?_, ?_, ?_⟩, ?_, ?_, ?_⟩
  · rw [hio, hqueued, hholds.buf]
  · rw [hio, hqueued, hholds.segments]
  · rw [hio, hqueued]
    exact hholds.size
  · rw [hio]
    exact hholds.bounded
  · rw [hio, hqueued]
    exact haccounts.keptFrom_eq []
  · exact fun attempts => flushPending_stopped _ attempts
  · intro maxGsoSegments bytes attempts
    rw [hio]
    refine ⟨fun hok => ?_, hholds.sendPacket_stopped maxGsoSegments bytes attempts⟩
    rcases sendPacket_appends io maxGsoSegments bytes attempts with happended | ⟨⟨e, he⟩, -⟩
    · exact happended
    · exact nomatch hok.symm.trans he

/-! ## The size of a transmit -/

def maxIpv4UdpPayload : Nat := 65535 - 20 - 8

/-- The slab, and every transmit so far, is within a limit. -/
def Within (limit : Nat) (io : UdpQspIo) (events : List SlabEvent) : Prop :=
  io.sendBuf.length ≤ limit ∧ ∀ t, .transmitted t ∈ events → t.contents.length ≤ limit

section
variable {limit : Nat} {io io' : UdpQspIo} {events events' : List SlabEvent} {ds : List Bytes}

theorem within_nil (h : io.sendBuf.length ≤ limit) : Within limit io [] := ⟨h, nofun⟩

theorem within_transmitted (h : io.sendBuf.length ≤ limit) :
    Within limit io.clearSendSlab [.transmitted io.transmit] := by
  refine ⟨Nat.zero_le _, fun t ht => ?_⟩
  obtain rfl : t = io.transmit := by simpa using ht
  exact h

theorem Within.append (h : ∀ t, .transmitted t ∈ events → t.contents.length ≤ limit)
    (h' : Within limit io' events') : Within limit io' (events ++ events') := by
  refine ⟨h'.1, fun t ht => ?_⟩
  rcases List.mem_append.mp ht with ht | ht
  · exact h t ht
  · exact h'.2 t ht

theorem Within.appended (bytes : Bytes) (h : Within limit io events) :
    Within limit io (.appended bytes :: events) := by
  rw [← List.singleton_append]
  exact Within.append (by simp) h

theorem Holds.within_call (h : io.Holds ds) (hio : io.sendBuf.length ≤ limit) (call : Call)
    (hcall : ∀ maxGsoSegments bytes attempts, call = .send maxGsoSegments bytes attempts →
      maxGsoSegmentsForSize maxGsoSegments bytes.length * bytes.length ≤ limit) :
    Within limit (call.run io).1 (call.run io).2 := by
  cases call with
  | send maxGsoSegments bytes attempts =>
    have hfull := hcall maxGsoSegments bytes attempts rfl
    refine Handler.Triple.weaken (Q := fun _ => Within limit)
      (sendPacket_outcome io maxGsoSegments bytes attempts) ?_
    rintro r io' events (⟨e⟩ | ⟨hempty, hlarge, hready, hafter⟩)
    · exact within_nil hio
    -- The slab before the append is the old one or empty, and either way within the limit.
    · obtain ⟨ds', hheld, -, hmay⟩ := h.readyToAppend hready
      have hlen := (hheld.append hempty hlarge hmay).2.trans hfull
      refine Within.append ?_ (Within.appended bytes ?_)
      · cases hready with
        | kept => nofun
        | flushed => exact (within_transmitted hio).2
      · cases hafter with
        | kept => exact within_nil hlen
        | transmitted => exact within_transmitted hlen
  | flush attempts =>
    refine Handler.Triple.weaken (Q := fun _ => Within limit) (flushPending_outcome io attempts) ?_
    rintro _ _ _ (_ | _ | _)
    · exact within_nil hio
    · exact within_nil hio
    · exact within_transmitted hio
  | discardPendingSend => exact ⟨Nat.zero_le _, by simp [Call.run]⟩
  | setPeer peer => exact within_nil hio

theorem Holds.within_calls (h : io.Holds ds) (hio : io.sendBuf.length ≤ limit) {calls : List Call}
    (hcalls : ∀ maxGsoSegments bytes attempts, .send maxGsoSegments bytes attempts ∈ calls →
      maxGsoSegmentsForSize maxGsoSegments bytes.length * bytes.length ≤ limit) :
    Within limit (runCalls io calls).1 (runCalls io calls).2 := by
  induction calls generalizing io ds with
  | nil => exact within_nil hio
  | cons call calls ih =>
    obtain ⟨ds', hnext, -⟩ := h.call call
    have hfirst := h.within_call hio call fun maxGsoSegments bytes attempts heq =>
      hcalls maxGsoSegments bytes attempts (heq ▸ List.mem_cons_self)
    have hrest := ih hnext hfirst.1 fun maxGsoSegments bytes attempts hmem =>
      hcalls maxGsoSegments bytes attempts (List.mem_cons_of_mem _ hmem)
    exact hrest.append hfirst.2

end

-- A batch of `n` datagrams that has not been transmitted yet.
def filled (peer : SocketAddr) (bytes : Bytes) (n : Nat) : UdpQspIo where
  peer := peer
  sendBuf := (List.replicate n bytes).flatten
  sendSegmentSize := if n = 0 then none else some bytes.length
  sendSegments := n
  recv := none

theorem append_filled (peer : SocketAddr) (bytes : Bytes) (n : Nat) :
    (filled peer bytes n).append bytes = filled peer bytes (n + 1) := by
  have hbuf : (List.replicate n bytes).flatten ++ bytes = (List.replicate (n + 1) bytes).flatten := by
    rw [List.replicate_succ', List.flatten_append, List.flatten_singleton]
  by_cases hn : n = 0
  · simp [append, filled, hn]
  · simp [append, filled, hn, hbuf]

theorem mustFlush_filled (peer : SocketAddr) (bytes : Bytes) {n maxSegments : Nat}
    (hn : n < maxSegments) :
    (filled peer bytes n).mustFlushBeforeAppend bytes.length maxSegments = false := by
  simp only [mustFlushBeforeAppend, filled]
  split
  · rfl
  next hzero => simp [hn]

section
variable {peer : SocketAddr} {bytes : Bytes} {limit n : Nat} (hempty : bytes.length ≠ 0)
  (hlarge : bytes.length ≤ maxUdpGsoPayload)
include hempty hlarge

theorem sendPacket_filled (hn : n < maxGsoSegmentsForSize limit bytes.length)
    (attempts : List (Attempt Unit)) {Q : Except (Stop IoError) Unit → UdpQspIo → List SlabEvent → Prop}
    (hroom : n + 1 < maxGsoSegmentsForSize limit bytes.length →
      Q (.ok ()) (filled peer bytes (n + 1)) [.appended bytes])
    (hfull : n + 1 = maxGsoSegmentsForSize limit bytes.length →
      (UdpQspIo.flushPending attempts >>= fun _ => pure ()).Triple (filled peer bytes (n + 1))
        fun r io out => Q r io (.appended bytes :: out)) :
    (UdpQspIo.sendPacket limit bytes attempts).Triple (filled peer bytes n) Q := by
  rw [UdpQspIo.sendPacket, if_neg hempty, if_neg (Nat.not_lt.mpr hlarge)]
  refine Handler.Triple.bind (P := fun r io out => r = .ok attempts ∧ io = filled peer bytes n ∧
    out = []) ?_ ?_ (by rintro e io out ⟨⟨⟩, -⟩)
  · rw [flushBeforeAppend, Handler.triple_get_bind, mustFlush_filled peer bytes hn]
    exact ⟨rfl, rfl, rfl⟩
  · rintro _ _ _ ⟨⟨⟩, rfl, rfl⟩
    rw [Handler.triple_modify_bind, Handler.triple_emit_bind, Handler.triple_get_bind,
      append_filled]
    split
    next hdue =>
      have hdue : maxGsoSegmentsForSize limit bytes.length ≤ n + 1 := hdue
      exact hfull (by omega)
    next hmore =>
      have hmore : ¬maxGsoSegmentsForSize limit bytes.length ≤ n + 1 := hmore
      exact hroom (by omega)

/-- Sends of one size fill the slab up to the limit; the last one transmits it. -/
theorem transmitted_filled {k : Nat} (hmax : k + n + 1 = maxGsoSegmentsForSize limit bytes.length) :
    .transmitted (filled peer bytes (k + n + 1)).transmit ∈ (runCalls (filled peer bytes k)
      (List.replicate n (.send limit bytes []) ++ [.send limit bytes [.done ()]])).2 := by
  induction n generalizing k with
  | zero =>
    have hlast : (UdpQspIo.sendPacket limit bytes [.done ()]).Triple (filled peer bytes k)
        fun _ _ out => out = [.appended bytes, .transmitted (filled peer bytes (k + 1)).transmit] :=
      sendPacket_filled hempty hlarge (by omega) _ (fun hroom => by omega) fun _ => rfl
    have hlast : ((UdpQspIo.sendPacket limit bytes [.done ()]).run (filled peer bytes k)).2.2 = _ :=
      hlast
    simp [runCalls, Call.run, hlast]
  | succ n ih =>
    have hfirst : (UdpQspIo.sendPacket limit bytes []).Triple (filled peer bytes k)
        fun _ io _ => io = filled peer bytes (k + 1) :=
      sendPacket_filled hempty hlarge (by omega) _ (fun _ => rfl) fun hfull => by omega
    have hfirst : ((UdpQspIo.sendPacket limit bytes []).run (filled peer bytes k)).2.1 = _ := hfirst
    have hrest := ih (show k + 1 + n + 1 = _ by omega)
    rw [List.replicate_succ, List.cons_append, runCalls]
    refine List.mem_append_right _ ?_
    simp only [Call.run, hfirst]
    rw [show k + (n + 1) + 1 = k + 1 + n + 1 by omega]
    exact hrest

end

theorem maxGsoSegmentsForSize_ipv4 {limit size : Nat}
    (h : max limit 1 * size ≤ maxIpv4UdpPayload ∨ 28 ≤ maxUdpGsoPayload % size) :
    maxGsoSegmentsForSize limit size * size ≤ maxIpv4UdpPayload := by
  have hlimit : maxGsoSegmentsForSize limit size * size ≤ max limit 1 * size := by
    refine Nat.mul_le_mul_right _ ?_
    simp only [maxGsoSegmentsForSize]
    split_ifs <;> omega
  have hquotient : maxGsoSegmentsForSize limit size * size ≤ maxUdpGsoPayload / size * size := by
    refine Nat.mul_le_mul_right _ ?_
    simp only [maxGsoSegmentsForSize]
    split_ifs <;> omega
  have hrest := Nat.div_add_mod' maxUdpGsoPayload size
  simp only [maxIpv4UdpPayload, maxUdpGsoPayload] at h hlimit hquotient hrest ⊢
  omega

/-- The slab and every transmit of a run fit an IPv4 packet if for every
datagram as many of its size as the socket takes segments do, or if the payload
limit leaves the 28 bytes of the headers when it is filled up with them. -/
theorem full_batch_fits_ipv4 (peer : SocketAddr) {calls : List Call}
    (hcalls : ∀ maxGsoSegments bytes attempts, .send maxGsoSegments bytes attempts ∈ calls →
      max maxGsoSegments 1 * bytes.length ≤ maxIpv4UdpPayload ∨
        28 ≤ maxUdpGsoPayload % bytes.length) :
    (runCalls (new peer) calls).1.sendBuf.length ≤ maxIpv4UdpPayload ∧
      ∀ t, .transmitted t ∈ (runCalls (new peer) calls).2 →
        t.contents.length ≤ maxIpv4UdpPayload :=
  (holds_new peer).within_calls (Nat.zero_le _) fun maxGsoSegments bytes attempts hmem =>
    maxGsoSegmentsForSize_ipv4 (hcalls maxGsoSegments bytes attempts hmem)

/-- Datagrams of 1023 bytes, 64 at once, and of 1500 bytes. -/
theorem full_batch_fits_ipv4_kilobyte :
    let calls := List.replicate 64 (Call.send 64 (List.replicate 1023 0) [.done ()]) ++
      List.replicate 64 (Call.send 64 (List.replicate 1500 0) [.done ()])
    ∀ t, .transmitted t ∈ (runCalls (new ⟨[127, 0, 0, 1], 443⟩) calls).2 →
      t.contents.length ≤ maxIpv4UdpPayload := by
  refine (full_batch_fits_ipv4 ⟨[127, 0, 0, 1], 443⟩ ?_).2
  intro maxGsoSegments bytes attempts hmem
  rcases List.mem_append.mp hmem with hmem | hmem
  · cases List.eq_of_mem_replicate hmem
    rw [List.length_replicate]
    decide
  · cases List.eq_of_mem_replicate hmem
    rw [List.length_replicate]
    decide

/-- With a limit of 64 segments, 48 datagrams of 1365 bytes are transmitted at
once: 65520 bytes, more than an IPv4 packet holds. -/
theorem full_batch_exceeds_ipv4 :
    ∃ calls : List Call,
      (∀ maxGsoSegments bytes attempts, .send maxGsoSegments bytes attempts ∈ calls →
        maxGsoSegments = 64 ∧ bytes.length = 1365) ∧
      ∃ t, .transmitted t ∈ (runCalls (new ⟨[127, 0, 0, 1], 443⟩) calls).2 ∧
        t.contents.length = 65520 ∧ ¬65520 ≤ maxIpv4UdpPayload := by
  obtain ⟨bytes, hlen⟩ : ∃ bytes : Bytes, bytes.length = 1365 :=
    ⟨List.replicate 1365 0, List.length_replicate⟩
  have hfull := @transmitted_filled ⟨[127, 0, 0, 1], 443⟩ bytes 64 47
    (by rw [hlen]; decide) (by rw [hlen]; decide) 0 (by rw [hlen]; decide)
  refine ⟨_, ?_, _, hfull, ?_, by decide⟩
  · intro maxGsoSegments bytes attempts hmem
    rcases List.mem_append.mp hmem with hmem | hmem
    · cases List.eq_of_mem_replicate hmem
      exact ⟨rfl, hlen⟩
    · cases List.mem_singleton.mp hmem
      exact ⟨rfl, hlen⟩
  · rw [transmit, filled, length_flatten fun d hd => (List.eq_of_mem_replicate hd ▸ hlen),
      List.length_replicate]

end UdpQspIo

end Slt.Transport
