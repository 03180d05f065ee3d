import Slt.Types
import Slt.Lib.Handler

/-!
# The UDP socket backend

Outbound datagrams of one size are collected in a slab and handed to the
socket in one transmit, which the kernel cuts at the common size; inbound
buffers that the kernel has joined are cut again before they are queued. The
boundaries of the datagrams in the slab are kept by their common size alone.

The environment gives each call the attempts it makes on the socket, in order;
a call that runs out of them is dropped while it waits.
-/

namespace Slt.Transport

open Lib

def maxDatagram : Nat := 1500

def maxUdpGsoPayload : Nat := 65535

def groDatagramRanges (len stride : Nat) : List (Nat × Nat) :=
  let stride := max stride 1
  (List.range' 0 ((len + stride - 1) / stride) stride).map fun off => (off, min (off + stride) len)

def splitDatagrams (contents : Bytes) (stride : Nat) : List Bytes :=
  (groDatagramRanges contents.length stride).map fun (off, fin) => (contents.take fin).drop off

def maxGsoSegmentsForSize (socketMaxSegments segmentSize : Nat) : Nat :=
  let socketMaxSegments := if socketMaxSegments = 0 then 1 else socketMaxSegments
  let payloadMaxSegments := maxUdpGsoPayload / segmentSize
  if payloadMaxSegments < socketMaxSegments then payloadMaxSegments else socketMaxSegments

structure Transmit where
  destination : SocketAddr
  contents : Bytes
  segmentSize : Option Nat
  deriving DecidableEq

def Transmit.datagrams (transmit : Transmit) : List Bytes :=
  match transmit.segmentSize with
  | none => [transmit.contents]
  | some size => splitDatagrams transmit.contents size

structure RecvMeta where
  addr : SocketAddr
  len : Nat
  stride : Nat

structure Received where
  info : RecvMeta
  buf : Bytes

def Received.datagrams (received : Received) : List Bytes :=
  (groDatagramRanges received.info.len received.info.stride).map fun (off, fin) =>
    (received.buf.take fin).drop off

structure RecvState where
  queue : List Bytes
  deriving DecidableEq

structure UdpQspIo where
  peer : SocketAddr
  sendBuf : Bytes
  sendSegmentSize : Option Nat
  sendSegments : Nat
  recv : Option RecvState
  deriving DecidableEq

inductive Attempt (α : Type) where
  | notReady (e : IoError)
  | wouldBlock
  | refused (e : IoError)
  | done (a : α)

inductive SlabEvent where
  | appended (bytes : Bytes)
  | transmitted (transmit : Transmit)
  | discarded (count : Nat)
  deriving DecidableEq

-- Two kinds that no caller tells apart from others.
def invalidInput : IoErrorKind := .other 22
def invalidData : IoErrorKind := .other 74

namespace UdpQspIo

abbrev Io := Handler UdpQspIo SlabEvent IoError

def new (peer : SocketAddr) : UdpQspIo := ⟨peer, [], none, 0, none⟩

def setPeer (self : UdpQspIo) (peer : SocketAddr) : UdpQspIo := { self with peer }

def clearSendSlab (self : UdpQspIo) : UdpQspIo :=
  { self with sendBuf := [], sendSegmentSize := none, sendSegments := 0 }

def mustFlushBeforeAppend (self : UdpQspIo) (segmentSize maxSegments : Nat) : Bool :=
  if self.sendSegments = 0 then false
  else self.sendSegmentSize ≠ some segmentSize ∨ self.sendSegments ≥ maxSegments

def transmit (self : UdpQspIo) : Transmit where
  destination := self.peer
  contents := self.sendBuf
  segmentSize := self.sendSegmentSize.filter fun _ => self.sendSegments > 1

/-- The loop of `flushPending`; it returns the attempts that are left. -/
def transmitLoop : List (Attempt Unit) → Io (List (Attempt Unit))
  | [] => Handler.drop
  | .notReady e :: _ => Handler.throw e
  | .wouldBlock :: rest => transmitLoop rest
  | .refused e :: _ => Handler.throw e
  | .done () :: rest => do
    let self ← Handler.get
    Handler.emit (.transmitted self.transmit)
    Handler.modify clearSendSlab
    return rest

def flushPending (attempts : List (Attempt Unit)) : Io (List (Attempt Unit)) := do
  let self ← Handler.get
  if self.sendSegments = 0 then return attempts
  transmitLoop attempts

def flushBeforeAppend (segmentSize maxSegments : Nat) (attempts : List (Attempt Unit)) :
    Io (List (Attempt Unit)) := do
  let self ← Handler.get
  if self.mustFlushBeforeAppend segmentSize maxSegments then flushPending attempts
  else return attempts

def append (self : UdpQspIo) (bytes : Bytes) : UdpQspIo :=
  let self :=
    if self.sendSegments = 0 then { self with sendSegmentSize := some bytes.length } else self
  { self with sendBuf := self.sendBuf ++ bytes, sendSegments := self.sendSegments + 1 }

/-- `maxGsoSegments` is what the socket allows at the time of the call. -/
def sendPacket (maxGsoSegments : Nat) (bytes : Bytes) (attempts : List (Attempt Unit)) :
    Io Unit := do
  let segmentSize := bytes.length
  if segmentSize = 0 then
    Handler.throw ⟨invalidInput, "UDP-QSP packet must not be empty"⟩
  else if segmentSize > maxUdpGsoPayload then
    Handler.throw ⟨invalidInput, "UDP-QSP packet exceeds UDP payload limit"⟩
  else
    let maxSegments := maxGsoSegmentsForSize maxGsoSegments segmentSize
    let attempts ← flushBeforeAppend segmentSize maxSegments attempts
    Handler.modify fun self => self.append bytes
    Handler.emit (.appended bytes)
    let self ← Handler.get
    if self.sendSegments ≥ maxSegments then
      let _ ← flushPending attempts
      return
    else return

def hasPendingFlush (self : UdpQspIo) : Bool := self.sendSegments ≠ 0

def discardPendingSend (self : UdpQspIo) : Nat × UdpQspIo :=
  (self.sendSegments, self.clearSendSlab)

/-! ## Receiving -/

def queuePeerDatagrams (peer : SocketAddr) (recv : RecvState) (batch : List Received) : RecvState :=
  batch.foldl (fun recv received =>
    if received.info.addr ≠ peer then recv else ⟨recv.queue ++ received.datagrams⟩) recv

/-- `recvPacket` with the loop of `recvOneBatch` inside it. -/
def recvPacket (bufLen : Nat) : List (Attempt (List Received)) → UdpQspIo →
    Except (Stop IoError) Bytes × UdpQspIo
  | attempts, self =>
    match self.recv with
    | some ⟨datagram :: queue⟩ =>
      let self := { self with recv := some ⟨queue⟩ }
      if datagram.length > bufLen then
        (.error (.error ⟨invalidData, "UDP-QSP datagram exceeds caller buffer"⟩), self)
      else (.ok datagram, self)
    | recv =>
      match attempts with
      | [] => (.error .dropped, self)
      | .notReady e :: _ => (.error (.error e), self)
      | .wouldBlock :: rest => recvPacket bufLen rest { self with recv := recv.getD ⟨[]⟩ }
      | .refused e :: _ => (.error (.error e), { self with recv := recv.getD ⟨[]⟩ })
      | .done batch :: rest =>
        recvPacket bufLen rest
          { self with recv := queuePeerDatagrams self.peer (recv.getD ⟨[]⟩) batch }

end UdpQspIo

end Slt.Transport
