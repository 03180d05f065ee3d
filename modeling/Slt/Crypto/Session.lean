import Slt.Crypto.Keys
import Slt.Crypto.ReplayWindow

/-!
# The UDP-QSP session

A session numbers the packets it sends, rotates its sending keys each time the
packet number passes a multiple of the rekey interval, and follows the peer's
rotations on receipt: it keeps the previous receive keys for one replay window
and tries the next ones while the expected packet number is near the next
multiple. Functions return the session along with their result, since an error
does not undo what was done before it.
-/

namespace Slt.Crypto

open Lib Lib.U64

def keyUpdateInterval : Nat := 1 <<< 21

/-- How far from the next rekey threshold the next keys are tried. -/
def keyUpdateLateMargin : Nat := pnReplayWindow * 8

inductive QspSessionError where
  | io (e : IoError)
  | crypto (e : QspCryptoError)
  | replay
  | tooOld
  | packetNumberOverflow
  deriving DecidableEq, Repr

/-- An I/O backend of a session. -/
class SessionIo (ι : Type) where
  send : ι → Bytes → Except IoError Unit × ι
  recv : ι → Except IoError Bytes × ι
  flush : ι → Except IoError Unit × ι
  hasPendingFlush : ι → Bool
  discardPendingSend : ι → Nat × ι

class PeerUpdate (ι : Type) where
  setPeer : ι → SocketAddr → ι

structure RekeyPolicy where
  interval : Nat
  lateMargin : Nat

def RekeyPolicy.defaults : RekeyPolicy := ⟨keyUpdateInterval, keyUpdateLateMargin⟩

structure PreviousRxKeys where
  keys : UdpQspKeys
  validUntilPn : Nat

structure Session (ι : Type) where
  io : ι
  scid : Cid
  dcid : Cid
  keys : UdpQspKeys
  txKeyPhase : Bool
  rxKeyPhase : Bool
  nextPn : Nat
  txNextRekeyPn : Option Nat
  rxNextRekeyPn : Option Nat
  previousRx : Option PreviousRxKeys
  rekeyPolicy : RekeyPolicy
  replayWindow : ReplayWindow

def nextRekeyAfter (pn interval : Nat) : Option Nat :=
  if interval = 0 then none
  else
    let rem := pn % interval
    let step := if rem = 0 then interval else interval - rem
    checkedAdd pn step

def pnDistance (a b : Nat) : Nat := absDiff a b

theorem lt_of_nextRekeyAfter {pn interval next : Nat} (h : nextRekeyAfter pn interval = some next) :
    pn < next := by
  unfold nextRekeyAfter at h
  split_ifs at h with hzero
  obtain ⟨rfl, -⟩ := checkedAdd_eq_some.mp h
  have := Nat.mod_lt pn (Nat.pos_of_ne_zero hzero)
  split_ifs <;> omega

namespace Session

variable {ι : Type}

abbrev Outcome (ι α : Type) := Except QspSessionError α × Session ι × QspTape

def new (io : ι) (scid dcid : Cid) (keys : UdpQspKeys) (sendPn recvExpectedPn : UInt64)
    (keyPhase : Bool) : Session ι where
  io := io
  scid := scid
  dcid := dcid
  keys := keys
  txKeyPhase := keyPhase
  rxKeyPhase := keyPhase
  nextPn := sendPn.toNat
  txNextRekeyPn := nextRekeyAfter sendPn.toNat RekeyPolicy.defaults.interval
  rxNextRekeyPn := nextRekeyAfter recvExpectedPn.toNat RekeyPolicy.defaults.interval
  previousRx := none
  rekeyPolicy := RekeyPolicy.defaults
  replayWindow := .new recvExpectedPn.toNat

/-! ## Receiving -/

def maybeConfirmPreviousRxKeys (self : Session ι) (expectedPn : Nat) : Session ι :=
  match self.previousRx with
  | some prev => if expectedPn > prev.validUntilPn then { self with previousRx := none } else self
  | none => self

def canTryPrevious (self : Session ι) (expectedPn : Nat) : Bool :=
  match self.previousRx with
  | some prev => expectedPn ≤ prev.validUntilPn
  | none => false

def shouldTryCandidate (self : Session ι) (expectedPn : Nat) : Bool :=
  if self.previousRx.isSome then false
  else
    match self.rxNextRekeyPn with
    | none => false
    | some threshold => pnDistance expectedPn threshold ≤ self.rekeyPolicy.lateMargin

def deriveCandidateRxKeys (boring : Boring) (self : Session ι) (t : QspTape) :
    Except QspSessionError (Option UdpQspKeys) × QspTape :=
  if self.rxNextRekeyPn.isNone then (.ok none, t)
  else
    match (self.keys.withNextRxKeys boring).run t with
    | (.error e, t) => (.error (.crypto e), t)
    | (.ok keys, t) => (.ok (some keys), t)

def promoteCandidateRxKeys (self : Session ι) (candidate : UdpQspKeys) (t : QspTape) :
    Outcome ι Unit :=
  let threshold := self.rxNextRekeyPn.getD self.replayWindow.expectedPn
  let validUntilPn := saturatingAdd threshold pnReplayWindow
  match self.keys.tryClone.run t with
  | (.error e, t) => (.error (.crypto e), self, t)
  | (.ok keys, t) =>
    (.ok (),
      { self with
        previousRx := some { keys, validUntilPn }
        keys := candidate
        rxKeyPhase := !self.rxKeyPhase
        rxNextRekeyPn := nextRekeyAfter threshold self.rekeyPolicy.interval }, t)

def acceptOpened (self : Session ι) (opened : OpenedPacket) (t : QspTape) :
    Outcome ι OpenedPacket :=
  match self.replayWindow.checkAndUpdate opened.pn with
  | (.ok (), replayWindow) => (.ok opened, { self with replayWindow }, t)
  | (.error .replay, replayWindow) => (.error .replay, { self with replayWindow }, t)
  | (.error .tooOld, replayWindow) => (.error .tooOld, { self with replayWindow }, t)

/-- A try with one set of keys; why it failed is not reported. -/
def openWith (boring : Boring) (self : Session ι) (keys : UdpQspKeys) (packet : Bytes)
    (expectedPn : Nat) (t : QspTape) : Option OpenedPacket × QspTape :=
  match (keys.openInto boring self.scid.len packet expectedPn).run t with
  | (.ok opened, t) => (some opened, t)
  | (.error _, t) => (none, t)

/-- The last resort of `openPacket`: the keys of the next generation. -/
def openCandidate (boring : Boring) (self : Session ι) (packet : Bytes) (expectedPn : Nat)
    (t : QspTape) : Outcome ι OpenedPacket :=
  if self.shouldTryCandidate expectedPn then
    match self.deriveCandidateRxKeys boring t with
    | (.error e, t) => (.error e, self, t)
    | (.ok none, t) => (.error (.crypto .cryptoFail), self, t)
    | (.ok (some candidate), t) =>
      let (opened, t) := self.openWith boring candidate packet expectedPn t
      match opened.filter (·.keyPhase != self.rxKeyPhase) with
      | none => (.error (.crypto .cryptoFail), self, t)
      | some opened =>
        match self.promoteCandidateRxKeys candidate t with
        | (.error e, self, t) => (.error e, self, t)
        | (.ok (), self, t) => self.acceptOpened opened t
  else (.error (.crypto .cryptoFail), self, t)

def openPacket (boring : Boring) (self : Session ι) (packet : Bytes) (t : QspTape) :
    Outcome ι OpenedPacket :=
  let expectedPn := self.replayWindow.expectedPn
  let self := self.maybeConfirmPreviousRxKeys expectedPn
  let (opened, t) := self.openWith boring self.keys packet expectedPn t
  match opened.filter (·.keyPhase == self.rxKeyPhase) with
  | some opened => self.acceptOpened opened t
  | none =>
    let (opened, t) :=
      match self.previousRx with
      | some previous =>
        if self.canTryPrevious expectedPn then
          self.openWith boring previous.keys packet expectedPn t
        else (none, t)
      | none => (none, t)
    match opened.filter (·.keyPhase != self.rxKeyPhase) with
    | some opened => self.acceptOpened opened t
    | none => self.openCandidate boring packet expectedPn t

/-! ## Sending -/

/-- The bound on the rotations still to come in one call. -/
def rotationsLeft (self : Session ι) (pn : Nat) : Nat :=
  match self.txNextRekeyPn with
  | none => 0
  | some threshold => pn + 1 - threshold

def maybeRotateTxKeys (boring : Boring) (self : Session ι) (pn : Nat) (t : QspTape) :
    Outcome ι Unit :=
  match _h : self.txNextRekeyPn with
  | none => (.ok (), self, t)
  | some threshold =>
    if pn < threshold then (.ok (), self, t)
    else
      match (self.keys.withNextTxKeys boring).run t with
      | (.error e, t) => (.error (.crypto e), self, t)
      | (.ok keys, t) =>
        maybeRotateTxKeys boring
          { self with
            keys
            txKeyPhase := !self.txKeyPhase
            txNextRekeyPn := nextRekeyAfter threshold self.rekeyPolicy.interval } pn t
termination_by self.rotationsLeft pn
decreasing_by
  simp only [rotationsLeft, _h]
  cases hnext : nextRekeyAfter threshold self.rekeyPolicy.interval with
  | none => simp only; omega
  | some next =>
    have := lt_of_nextRekeyAfter hnext
    simp only
    omega

variable [SessionIo ι]

def send (boring : Boring) (self : Session ι) (payload : Bytes) (t : QspTape) : Outcome ι Unit :=
  let pn := self.nextPn
  match self.maybeRotateTxKeys boring pn t with
  | (.error e, self, t) => (.error e, self, t)
  | (.ok (), self, t) =>
    match checkedAdd pn 1 with
    | none => (.error .packetNumberOverflow, self, t)
    | some nextPn =>
      let self := { self with nextPn }
      match (self.keys.protectInto boring self.dcid.bytes pn self.txKeyPhase payload).run t with
      | (.error e, t) => (.error (.crypto e), self, t)
      | (.ok packet, t) =>
        let t := { t with log := t.log ++ [.transmit packet] }
        match SessionIo.send self.io packet with
        | (.error e, io) => (.error (.io e), { self with io }, t)
        | (.ok (), io) => (.ok (), { self with io }, t)

def recv (boring : Boring) (self : Session ι) (t : QspTape) : Outcome ι OpenedPacket :=
  match SessionIo.recv self.io with
  | (.error e, io) => (.error (.io e), { self with io }, t)
  | (.ok packet, io) => ({ self with io } : Session ι).openPacket boring packet t

def flush (self : Session ι) : Except IoError Unit × Session ι :=
  let (result, io) := SessionIo.flush self.io
  (result, { self with io })

def hasPendingFlush (self : Session ι) : Bool := SessionIo.hasPendingFlush self.io

def discardPendingSend (self : Session ι) : Nat × Session ι :=
  let (count, io) := SessionIo.discardPendingSend self.io
  (count, { self with io })

def replaceIo (self : Session ι) (newIo : ι) : ι × Session ι := (self.io, { self with io := newIo })

def setPeer [PeerUpdate ι] (self : Session ι) (peer : SocketAddr) : Session ι :=
  { self with io := PeerUpdate.setPeer self.io peer }

end Session

end Slt.Crypto
