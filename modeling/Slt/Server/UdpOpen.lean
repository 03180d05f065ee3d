import Slt.Crypto.Rejection
import Slt.Server.Session

/-!
# Opening a UDP claim

The session's handling of a datagram from its bytes on: it is opened with the
packet keys, and only if that succeeds does the session look at it.
-/

namespace Slt.Server

open Lib Lib.Handler Proto
open Crypto (Boring QspTape)

variable {ι : Type}

/-- A datagram as it was routed to the session. `sender` is the session that
protected it, if one did. -/
structure RawClaim where
  peer : SocketAddr
  sender : QspSessionParams
  payload : Bytes

inductive UdpOpenOutcome where
  | opened (packetNumber : Nat) (payload : Bytes)
  | dropped
  deriving DecidableEq

structure UdpIngress (ι : Type) where
  session : ServerSession
  lastActivity : Nat
  udpSession : Option (Crypto.Session ι)

def openUdpPacket (boring : Boring) (udpSession : Option (Crypto.Session ι)) (payload : Bytes)
    (t : QspTape) : UdpOpenOutcome × Option (Crypto.Session ι) :=
  match udpSession with
  | none => (.dropped, none)
  | some session =>
    match session.openPacket boring payload t with
    | (.ok opened, session, _) => (.opened opened.pn opened.payload, some session)
    | (.error _, session, _) => (.dropped, some session)

/-- What is opened is opened with the keys, and these come out as opening leaves
them. -/
theorem openUdpPacket_keys {boring : Boring} {keys udpSession : Option (Crypto.Session ι)}
    {bytes : Bytes} {t : QspTape} {outcome : UdpOpenOutcome}
    (h : openUdpPacket boring keys bytes t = (outcome, udpSession)) :
    (∀ session, udpSession = some session →
      ∃ before, keys = some before ∧ (before.openPacket boring bytes t).2.1 = session) ∧
      ∀ packetNumber payload, outcome = .opened packetNumber payload →
        ∃ session opened, keys = some session ∧
          (session.openPacket boring bytes t).1 = .ok opened ∧ opened.payload = payload := by
  cases keys with
  | none =>
    cases h
    exact ⟨fun _ hsession => (nomatch hsession), fun _ _ hopened => (nomatch hopened)⟩
  | some before =>
    rcases hout : before.openPacket boring bytes t with ⟨err | opened, next, t'⟩
    all_goals
      simp only [openUdpPacket, hout] at h
      cases h
      refine ⟨fun _ hnext => ⟨before, rfl, by rw [hout, Option.some.inj hnext]⟩, fun _ _ heq => ?_⟩
      cases heq
    exact ⟨before, opened, rfl, by rw [hout], rfl⟩

/-- `decode` stands for the decoder of messages. A handler that retires the UDP
transport drops its keys. -/
def UdpIngress.handleUdpClaim (st : UdpIngress ι) (env : Env) (boring : Boring)
    (decode : Bytes → UdpPayload) (claim : RawClaim) (t : QspTape) :
    Except (Stop SessionError) SessionControl × UdpIngress ι × List ServerEffect :=
  match openUdpPacket boring st.udpSession claim.payload t with
  | (.dropped, udpSession) => (.ok .continue, { st with udpSession }, [])
  | (.opened packetNumber payload, udpSession) =>
    match (Server.handleUdpClaim env ⟨claim.peer, packetNumber, claim.sender, decode payload⟩).run
      st.session with
    | (result, session, out) =>
      (result,
        { session
          lastActivity := match result with
            | .ok _ => env.now
            | .error _ => st.lastActivity
          udpSession := if session.udpSession.isSome then udpSession else none },
        out)

variable {ρ : Type} [Crypto.SessionIo ι] [Crypto.PeerUpdate ι] [Crypto.SessionIo ρ]
  [Crypto.PeerUpdate ρ]

/-- A packet that does not open has no effect. Whatever calls come later, their
results are those without the packet; no keys were promoted for it; and a server
session that was given it keeps its state and puts nothing out. -/
theorem rejected_packet_no_effect {boring : Boring} {link : Crypto.Link ι ρ}
    {w : Crypto.World ι ρ} {aeadOpen : Crypto.AeadOpen} {packet : Bytes} {faults : List Bool}
    {e : Crypto.QspSessionError} (hw : Crypto.Reachable boring link w)
    (hideal : Crypto.Unforgeable boring link w.sent aeadOpen)
    (h : (w.receiver.openPacket { boring with aeadOpen } packet ⟨faults, []⟩).1 = .error e) :
    let after := (w.receiver.openPacket { boring with aeadOpen } packet ⟨faults, []⟩).2.1
    (∀ calls, after.laterResults calls = w.receiver.laterResults calls) ∧
      (after.keys = w.receiver.keys ∧ after.rxKeyPhase = w.receiver.rxKeyPhase ∧
        after.rxNextRekeyPn = w.receiver.rxNextRekeyPn) ∧
      ∀ (env : Env) (decode : Bytes → UdpPayload) (st : UdpIngress ρ) (claim : RawClaim),
        st.udpSession = some w.receiver → claim.payload = packet →
          st.handleUdpClaim env { boring with aeadOpen } decode claim ⟨faults, []⟩ =
            (.ok .continue, { st with udpSession := some after }, []) := by
  intro after
  have hinv := Crypto.reachable_inv hw
  have hafter : after = w.receiver.confirmed :=
    Crypto.openPacket_rejected hinv.sender hinv.receiver hideal h
  refine ⟨fun calls => ?_, ?_, fun env decode st claim hsession hpayload => ?_⟩
  · rw [hafter]
    exact (Crypto.Session.agree_confirmed w.receiver).laterResults
  · rw [hafter, Crypto.Session.confirmed_eq]
    exact ⟨rfl, rfl, rfl⟩
  · have hopen : openUdpPacket { boring with aeadOpen } st.udpSession claim.payload ⟨faults, []⟩ =
        (.dropped, some after) := by
      rw [hsession, hpayload, openUdpPacket]
      rcases hout : w.receiver.openPacket { boring with aeadOpen } packet ⟨faults, []⟩ with
        ⟨r, session, t⟩
      have hsame : after = session := by simp only [after, hout]
      rw [hout] at h
      obtain rfl : r = .error e := h
      rw [hsame]
    simp only [UdpIngress.handleUdpClaim, hopen]

/-- The packet that the receiver accepted, delivered once more. -/
theorem rejected_packet_no_effect_replayed :
    let boring := { Crypto.counterBoring with
      aeadOpen := Crypto.tableOpen Crypto.counterBoring Crypto.counterWorld.sent }
    let packet := Crypto.packetOf Crypto.counterBoring (Crypto.counterLink 5).cid.bytes
      Crypto.counterPacket.call
    let out := Crypto.counterWorld.receiver.openPacket boring packet ⟨[], []⟩
    Crypto.counterWorld.accepted ≠ [] ∧ out.1 = .error .replay ∧
      out.2.1.laterResults = Crypto.counterWorld.receiver.laterResults := by
  intro boring packet out
  have hideal := Crypto.ideal_counterLink (Crypto.reachable_inv Crypto.reachable_counterWorld).sender
  have hreplay : out.1 = .error .replay := by decide +kernel
  exact ⟨Crypto.accepted_counterWorld, hreplay, funext
    (rejected_packet_no_effect Crypto.reachable_counterWorld hideal.unforgeable hreplay).1⟩

end Slt.Server
