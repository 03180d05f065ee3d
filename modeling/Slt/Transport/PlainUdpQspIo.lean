import Mathlib.Data.List.Induction
import Slt.Transport.Slab

/-!
# The plain socket backend

The backend that Android uses takes one datagram from the socket at a time. The
batching one hands out the same datagrams, however the kernel has joined and
batched them.
-/

namespace Slt.Transport

open Lib

structure PlainUdpQspIo where
  peer : SocketAddr

/-- The socket cuts a datagram that is longer than the buffer of the backend. -/
def PlainUdpQspIo.recvPacket (self : PlainUdpQspIo) (bufLen : Nat) :
    List (Attempt (SocketAddr × Bytes)) → Except (Stop IoError) Bytes
  | [] => .error .dropped
  | .notReady e :: _ => .error (.error e)
  | .wouldBlock :: rest => self.recvPacket bufLen rest
  | .refused e :: _ => .error (.error e)
  | .done (addr, datagram) :: rest =>
    let bytes := datagram.take maxDatagram
    if addr ≠ self.peer then self.recvPacket bufLen rest
    else if bytes.length > bufLen then
      .error (.error ⟨invalidData, "UDP-QSP datagram exceeds caller buffer"⟩)
    else .ok bytes

/-! ## Joined datagrams -/

/-- Datagrams that the kernel may join: only the last may be shorter. -/
inductive Joins (stride : Nat) : List Bytes → Prop where
  | last {d : Bytes} (hpos : 0 < d.length) (hle : d.length ≤ stride) : Joins stride [d]
  | cons {d : Bytes} {ds : List Bytes} (hlen : d.length = stride) (h : Joins stride ds) :
    Joins stride (d :: ds)

structure Joined where
  addr : SocketAddr
  stride : Nat
  datagrams : List Bytes
  unused : Bytes
  joins : Joins stride datagrams

def Joined.received (joined : Joined) : Received where
  info := ⟨joined.addr, joined.datagrams.flatten.length, joined.stride⟩
  buf := joined.datagrams.flatten ++ joined.unused

theorem Joins.stride_pos {stride : Nat} {ds : List Bytes} (h : Joins stride ds) : 0 < stride := by
  induction h with
  | last hpos hle => exact Nat.lt_of_lt_of_le hpos hle
  | cons _ _ ih => exact ih

theorem Joins.cut {stride : Nat} {ds : List Bytes} (h : Joins stride ds) (unused : Bytes) :
    (groDatagramRanges ds.flatten.length stride).map
      (fun (off, fin) => ((ds.flatten ++ unused).take fin).drop off) = ds := by
  induction h with
  | @last d hpos hle =>
    have hone : (d.length + stride - 1) / stride = 1 := Nat.div_eq_of_lt_le (by omega) (by omega)
    have hmax : max stride 1 = stride := by omega
    simp [groDatagramRanges, hmax, hone, hle]
  | @cons d ds hlen h ih =>
    subst hlen
    simp only [List.flatten_cons, List.length_append, groDatagramRanges_add h.stride_pos,
      List.map_cons, List.map_map, List.append_assoc, List.drop_zero, List.take_left]
    congr 1
    refine .trans (List.map_congr_left ?_) ih
    rintro ⟨off, fin⟩ -
    simp only [Function.comp_apply]
    rw [List.take_length_add_append, List.drop_length_add_append]

/-! ## What a receive takes -/

def Attempt.map {α β : Type} (f : α → β) : Attempt α → Attempt β
  | .notReady e => .notReady e
  | .wouldBlock => .wouldBlock
  | .refused e => .refused e
  | .done a => .done (f a)

/-- A receive waits until an attempt has datagrams of the peer. -/
def taken {α : Type} (ofPeer : α → List Bytes) : List (Attempt α) → List Bytes
  | .wouldBlock :: rest => taken ofPeer rest
  | .done a :: rest => if ofPeer a = [] then taken ofPeer rest else ofPeer a
  | _ => []

def singleFrom (peer : SocketAddr) (arrival : SocketAddr × Bytes) : List Bytes :=
  if arrival.1 = peer then [arrival.2] else []

theorem PlainUdpQspIo.recvPacket_taken {peer : SocketAddr} {bufLen : Nat}
    (hbuf : maxDatagram ≤ bufLen) {attempts : List (Attempt (SocketAddr × Bytes))}
    (hfits : ∀ d ∈ taken (singleFrom peer) attempts, d.length ≤ maxDatagram) :
    ((PlainUdpQspIo.mk peer).recvPacket bufLen attempts).toOption.toList =
      taken (singleFrom peer) attempts := by
  induction attempts with
  | nil => rfl
  | cons attempt rest ih =>
    cases attempt with
    | notReady e => rfl
    | refused e => rfl
    | wouldBlock => exact ih hfits
    | done arrival =>
      obtain ⟨addr, datagram⟩ := arrival
      by_cases haddr : addr = peer
      · have hlen : datagram.length ≤ maxDatagram := by simpa [taken, singleFrom, haddr] using hfits
        simp [recvPacket, taken, singleFrom, haddr, List.take_of_length_le hlen,
          Nat.not_lt.mpr (hlen.trans hbuf), Except.toOption]
      · simpa [recvPacket, taken, singleFrom, haddr] using
          ih (by simpa [taken, singleFrom, haddr] using hfits)

def fromPeer (peer : SocketAddr) (batch : List Joined) : List Bytes :=
  (batch.filter fun joined => joined.addr = peer).flatMap Joined.datagrams

namespace UdpQspIo

variable {io : UdpQspIo} {bufLen : Nat} {peer : SocketAddr}
  {attempts : List (Attempt (List Joined))}

theorem queuePeerDatagrams_joined (recv : RecvState) (batch : List Joined) :
    queuePeerDatagrams peer recv (batch.map Joined.received) =
      ⟨recv.queue ++ fromPeer peer batch⟩ := by
  induction batch generalizing recv with
  | nil => simp [queuePeerDatagrams, fromPeer]
  | cons joined batch ih =>
    rw [List.map_cons, queuePeerDatagrams, List.foldl_cons]
    refine (ih _).trans ?_
    have hinfo : joined.received.info.addr = joined.addr := rfl
    have hcut : joined.received.datagrams = joined.datagrams := joined.joins.cut joined.unused
    by_cases haddr : joined.addr = peer
    · simp [hinfo, hcut, haddr, fromPeer]
    · simp [hinfo, haddr, fromPeer]

def waiting (self : UdpQspIo) : List Bytes := (self.recv.getD ⟨[]⟩).queue

theorem recvPacket_of_waiting {d : Bytes} {queue : List Bytes} (h : io.waiting = d :: queue)
    (hlen : d.length ≤ bufLen)
    (attempts : List (Attempt (List Received))) :
    recvPacket bufLen attempts io = (.ok d, { io with recv := some ⟨queue⟩ }) := by
  rcases hrecv : io.recv with _ | ⟨⟨queue'⟩⟩
  · simp [waiting, hrecv] at h
  · obtain rfl : queue' = d :: queue := by simpa [waiting, hrecv] using h
    rw [recvPacket.eq_def]
    simp [hrecv, Nat.not_lt.mpr hlen]

theorem recvPacket_of_empty (h : io.waiting = []) (attempts : List (Attempt (List Received))) :
    recvPacket bufLen attempts io =
      match attempts with
      | [] => (.error .dropped, io)
      | .notReady e :: _ => (.error (.error e), io)
      | .wouldBlock :: rest => recvPacket bufLen rest { io with recv := some ⟨[]⟩ }
      | .refused e :: _ => (.error (.error e), { io with recv := some ⟨[]⟩ })
      | .done batch :: rest =>
        recvPacket bufLen rest { io with recv := queuePeerDatagrams io.peer ⟨[]⟩ batch } := by
  have hrecv : io.recv = none ∨ io.recv = some ⟨[]⟩ := by
    rcases hrecv : io.recv with _ | ⟨⟨queue⟩⟩
    · exact .inl rfl
    · obtain rfl : queue = [] := by simpa [waiting, hrecv] using h
      exact .inr rfl
  rw [recvPacket.eq_def]
  rcases attempts with _ | ⟨attempt, rest⟩
  · rcases hrecv with hrecv | hrecv <;> simp [hrecv]
  · rcases hrecv with hrecv | hrecv <;> cases attempt <;> simp [hrecv]

def recvJoined (self : UdpQspIo) (bufLen : Nat) (attempts : List (Attempt (List Joined))) :
    Except (Stop IoError) Bytes × UdpQspIo :=
  recvPacket bufLen (attempts.map (.map (·.map Joined.received))) self

/-- What a receive takes of the peer, it hands out or keeps waiting. -/
theorem recvJoined_taken (h : io.waiting = [])
    (hfits : ∀ d ∈ taken (fromPeer io.peer) attempts, d.length ≤ bufLen) :
    taken (fromPeer io.peer) attempts =
      (io.recvJoined bufLen attempts).1.toOption.toList ++
        (io.recvJoined bufLen attempts).2.waiting := by
  induction attempts generalizing io with
  | nil => simp [recvJoined, recvPacket_of_empty h, taken, Except.toOption, h]
  | cons attempt rest ih =>
    rw [recvJoined, List.map_cons, recvPacket_of_empty h]
    cases attempt with
    | notReady e => simp [Attempt.map, taken, Except.toOption, h]
    | refused e => simp [Attempt.map, taken, Except.toOption, waiting]
    -- The receive goes on; the queue has been set up meanwhile.
    | wouldBlock => exact @ih { io with recv := some ⟨[]⟩ } rfl hfits
    | done batch =>
      simp only [Attempt.map, queuePeerDatagrams_joined, List.nil_append, taken] at hfits ⊢
      split at hfits
      -- A batch without datagrams of the peer is skipped, as a single one is.
      next hnone =>
        rw [if_pos hnone, hnone]
        exact @ih { io with recv := some ⟨[]⟩ } rfl hfits
      next hsome =>
        obtain ⟨d, queue, hqueue⟩ := List.exists_cons_of_ne_nil hsome
        have hlen : d.length ≤ bufLen := hfits d (hqueue ▸ List.mem_cons_self)
        rw [if_neg hsome, hqueue,
          @recvPacket_of_waiting { io with recv := some ⟨d :: queue⟩ } _ d queue rfl hlen]
        rfl

/-! ## Runs of receives -/

/-- The backend, the datagrams of the peer that it has taken from the socket, and
those that it has handed out. -/
structure Receives where
  io : UdpQspIo
  arrived : List Bytes
  handed : List Bytes

/-- While a datagram waits, nothing is taken from the socket. -/
def Receives.receive (bufLen : Nat) (w : Receives) (attempts : List (Attempt (List Joined))) :
    Receives where
  io := (w.io.recvJoined bufLen attempts).2
  arrived := w.arrived ++ if w.io.waiting = [] then taken (fromPeer w.io.peer) attempts else []
  handed := w.handed ++ (w.io.recvJoined bufLen attempts).1.toOption.toList

def receives (bufLen : Nat) (peer : SocketAddr) (calls : List (List (Attempt (List Joined)))) :
    Receives :=
  calls.foldl (Receives.receive bufLen) ⟨new peer, [], []⟩

theorem Receives.arrived_receive {w : Receives} (haccount : w.arrived = w.handed ++ w.io.waiting)
    (hfits : ∀ d ∈ (w.receive bufLen attempts).arrived, d.length ≤ bufLen) :
    (w.receive bufLen attempts).arrived =
      (w.receive bufLen attempts).handed ++ (w.receive bufLen attempts).io.waiting := by
  rcases hqueue : w.io.waiting with _ | ⟨d, queue⟩
  · simp only [receive, hqueue, if_true, List.forall_mem_append] at hfits ⊢
    rw [recvJoined_taken hqueue hfits.2, haccount, hqueue, List.append_nil, List.append_assoc]
  -- A waiting datagram is handed out and the socket is not asked.
  · have hlen : d.length ≤ bufLen := hfits d (by simp [receive, haccount, hqueue])
    have hrecv : w.io.recvJoined bufLen attempts = (.ok d, { w.io with recv := some ⟨queue⟩ }) :=
      recvPacket_of_waiting hqueue hlen _
    simp only [receive, hrecv, hqueue, haccount]
    simp [Except.toOption, waiting]

/-- Everything that has arrived was handed out or waits, in order. -/
theorem arrived_receives (calls : List (List (Attempt (List Joined))))
    (hfits : ∀ d ∈ (receives bufLen peer calls).arrived, d.length ≤ bufLen) :
    (receives bufLen peer calls).arrived =
      (receives bufLen peer calls).handed ++ (receives bufLen peer calls).io.waiting := by
  -- by the last call, so that what came before it is known to fit
  induction calls using List.reverseRecOn with
  | nil => rfl
  | append_singleton calls attempts ih =>
    have hlast : receives bufLen peer (calls ++ [attempts]) =
        (receives bufLen peer calls).receive bufLen attempts := by simp [receives]
    rw [hlast] at hfits ⊢
    exact Receives.arrived_receive (ih fun d hd => hfits d (List.mem_append_left _ hd)) hfits

/-- If the same datagrams of the peer arrive, joined and batched for one backend and
one by one for the other, whatever else arrives and whatever fails in between: the
two hand out the same datagrams in the same order, up to those that wait. -/
theorem batched_receives_as_plain (hbuf : maxDatagram ≤ bufLen) (peer : SocketAddr)
    (batched : List (List (Attempt (List Joined))))
    (plain : List (List (Attempt (SocketAddr × Bytes))))
    (hsame : (receives bufLen peer batched).arrived = plain.flatMap (taken (singleFrom peer)))
    (hfits : ∀ d ∈ (receives bufLen peer batched).arrived, d.length ≤ maxDatagram) :
    (receives bufLen peer batched).handed ++ (receives bufLen peer batched).io.waiting =
      plain.flatMap fun attempts =>
        ((PlainUdpQspIo.mk peer).recvPacket bufLen attempts).toOption.toList := by
  rw [← arrived_receives batched fun d hd => (hfits d hd).trans hbuf, hsame]
  refine List.flatMap_congr fun attempts hmem => (PlainUdpQspIo.recvPacket_taken hbuf ?_).symm
  exact fun d hd => hfits d (hsame ▸ List.mem_flatMap.mpr ⟨attempts, hmem, hd⟩)

/-- A buffer of another sender is skipped, and the second datagram of the peer waits. -/
def joinedPair (addr : SocketAddr) : Joined :=
  ⟨addr, 2, [[1, 2], [3]], [0], .cons rfl (.last (by decide) (by decide))⟩

theorem batched_receives_as_plain_pair :
    let peer : SocketAddr := ⟨[10, 0, 0, 1], 443⟩
    let other : SocketAddr := ⟨[10, 0, 0, 2], 443⟩
    let w := receives 1500 peer [[.done [joinedPair other, joinedPair peer]], []]
    w.handed ++ w.io.waiting =
      [[.done (other, [9]), .done (peer, [1, 2])], [.wouldBlock, .done (peer, [3])]].flatMap
        fun attempts => ((PlainUdpQspIo.mk peer).recvPacket 1500 attempts).toOption.toList := by
  intro peer other w
  exact batched_receives_as_plain (by decide) peer _ _ (by decide) (by decide)

end UdpQspIo

end Slt.Transport
