import Mathlib.Data.List.MinMax
import Mathlib.Data.List.Nodup
import Slt.Server.Emissions
import Slt.Server.UdpRegistration
import Slt.Transport.Slab

/-!
# The peer of a UDP session

The address that a session sends to follows the packets it accepts: a packet
with a higher number than all before it moves the peer to its source. What
counts is the set of accepted packets, not their order, since the replay window
takes no number twice. Packets that do not open, and whatever else the session
does in between, leave the peer alone; the send slab has no address of its own
and goes to the peer at the time of the flush.
-/

namespace Slt.Server

open Lib Lib.Handler Proto Transport Transport.UdpQspIo
open Crypto (Boring QspTape)

/-! ## The latest packet -/

abbrev Arrival := SocketAddr × Nat

def latest (accepted : List Arrival) : Option Arrival := accepted.argmax Prod.snd

def replyPeer (accepted : List Arrival) : SocketAddr :=
  (latest accepted).elim placeholderPeer Prod.fst

def watermark (accepted : List Arrival) : Option Nat := (latest accepted).map Prod.snd

theorem latest_concat (accepted : List Arrival) (arrival : Arrival) :
    latest (accepted ++ [arrival]) =
      if (watermark accepted).any (arrival.2 ≤ ·) then latest accepted else some arrival := by
  unfold latest watermark latest
  rw [List.argmax_concat]
  cases hmax : accepted.argmax Prod.snd with
  | none => rfl
  | some best =>
    by_cases hle : arrival.2 ≤ best.2
    · simp [hle, Nat.not_lt.mpr hle]
    · simp [hle, Nat.lt_of_not_le hle]

theorem latest_of_older {accepted : List Arrival} {arrival older : Arrival}
    (hmem : older ∈ accepted) (hle : arrival.2 ≤ older.2) :
    latest (accepted ++ [arrival]) = latest accepted := by
  rw [latest_concat, if_pos]
  cases hmax : latest accepted with
  | none =>
    rw [List.argmax_eq_none.mp hmax] at hmem
    cases hmem
  | some best =>
    have hbest := List.le_of_mem_argmax hmem hmax
    simpa [watermark, hmax] using hle.trans hbest

theorem latest_eq_of_perm {accepted accepted' : List Arrival}
    (hdistinct : (accepted.map Prod.snd).Nodup) (hperm : accepted'.Perm accepted) :
    latest accepted' = latest accepted := by
  cases hmax : latest accepted with
  | none =>
    rw [List.argmax_eq_none.mp hmax] at hperm
    rw [hperm.eq_nil]
    rfl
  | some best =>
    cases hmax' : latest accepted' with
    | none =>
      rw [List.argmax_eq_none.mp hmax'] at hperm
      rw [hperm.symm.eq_nil] at hmax
      cases hmax
    | some best' =>
      have hmem := hperm.mem_iff.mp (List.argmax_mem hmax')
      have hle := List.le_of_mem_argmax hmem hmax
      have hge := List.le_of_mem_argmax (hperm.mem_iff.mpr (List.argmax_mem hmax)) hmax'
      rw [List.inj_on_of_nodup_map hdistinct hmem (List.argmax_mem hmax) (hle.antisymm hge)]

/-! ## What the handlers keep -/

/-- If there is a UDP session, then it was there, and its peer and the number
that has set it are those of the latest packet. -/
abbrev Replies (live : Prop) (accepted : List Arrival) : ServerSession → Prop :=
  ServerSession.OnUdp fun _ peer packetNumber =>
    live ∧ peer = replyPeer accepted ∧ packetNumber = watermark accepted

section Handlers

variable {live : Prop} {accepted : List Arrival} {s : ServerSession} (env : Env)

variable (h : Replies live accepted s)
include h

theorem Replies.adopt (peer : SocketAddr) (packetNumber : Nat) :
    Replies live (accepted ++ [(peer, packetNumber)])
      (adoptUdpPeerIfNewer peer packetNumber s) := by
  intro session hsession
  unfold adoptUdpPeerIfNewer at hsession ⊢
  cases hbefore : s.udpSession with
  | none =>
    simp only [hbefore] at hsession
    cases hsession
  | some before =>
    obtain ⟨hlive, hpeer, hnumber⟩ := h before hbefore
    have hlatest := latest_concat accepted (peer, packetNumber)
    simp only [hbefore, hnumber] at hsession ⊢
    split at hsession
    · rename_i holder
      rw [if_pos holder] at hlatest ⊢
      rw [hbefore] at hsession
      cases hsession
      simp only [replyPeer, watermark, hlatest]
      exact ⟨hlive, hpeer, hnumber⟩
    · rename_i hnewer
      rw [if_neg hnewer] at hlatest ⊢
      cases hsession
      simp only [replyPeer, watermark, hlatest]
      exact ⟨hlive, rfl, rfl⟩

theorem Replies.handleUdpClaim (claim : UdpClaim) :
    Replies live (accepted ++ [(claim.peer, claim.packetNumber)])
      ((handleUdpClaim env claim).run s).2.1 :=
  (keeps_handleUdpPayload (routine_any (P := Replies _ _) stable_onUdp env) sendsUdp_any
    (h.adopt claim.peer claim.packetNumber) fun _ _ _ _ _ => trivial).1

theorem Replies.handleRegisterMessage (payload : RegisterCidPayload) :
    (handleRegisterMessage env (.ok payload)).Triple s fun _ s' out =>
      (∀ register, .registered register ∉ out) → Replies live accepted s' := by
  rw [Server.handleRegisterMessage, triple_get_bind]
  split
  · exact fun _ => h
  refine (handleRegisterCid_outcome env (.ok payload) s).weaken fun _ s' out houtcome hnone => ?_
  cases houtcome with
  | refused code interrupted hout => exact stable_onUdp.mark _ h
  | withoutSocket hdecoded hadmitted => exact stable_onUdp.registry _ h
  | accepted interrupted hdecoded hadmitted hsocket hout =>
    exact (hnone _ List.mem_cons_self).elim

theorem Replies.handleEvent {event : SessionEvent} (hudp : ∀ claim, event ≠ .udp claim)
    (hregistered : ∀ register, .registered register ∉ ((handleEvent env event).run s).2.2) :
    Replies live accepted ((handleEvent env event).run s).2.1 := by
  by_cases hregister : ∃ payload, event = .tcpMessage (.registerCid payload)
  · obtain ⟨payload, rfl⟩ := hregister
    exact h.handleRegisterMessage env payload hregistered
  · have hT := routine_any (P := Replies live accepted) stable_onUdp env
    have hclose := keeps_sendClose hT sendsUdp_any h .idleTimeout
    refine (keeps_handleEvent hT sendsUdp_any h (fun _ => .attempt hclose) id
      (fun _ _ _ _ _ => trivial) (fun payload heq => ?_) fun claim heq => ?_).1
    · exact (hregister ⟨payload, heq⟩).elim
    · exact (hudp claim heq).elim

end Handlers

/-! ## Runs -/

abbrev UdpQspSession := Crypto.Session UdpQspIo

/-- What the session does with its keys and its socket while it handles an event:
it protects packets, queues them, flushes the slab or discards it. -/
inductive Uses : Option UdpQspSession → Option UdpQspSession → List SlabEvent → Prop where
  | none : Uses none none []
  | some {before after : UdpQspSession} {calls : List Call} :
      (∀ peer, .setPeer peer ∉ calls) → after.rxState = before.rxState →
      after.io = (runCalls before.io calls).1 →
      Uses (some before) (some after) (runCalls before.io calls).2

theorem Uses.isSome {before after : Option UdpQspSession} {events : List SlabEvent}
    (h : Uses before after events) : after.isSome = before.isSome := by
  cases h <;> rfl

/-- The part of `adoptUdpPeerIfNewer` that is the socket's. -/
def adoptOnSocket (s : ServerSession) (peer : SocketAddr) (packetNumber : Nat)
    (udpSession : Option UdpQspSession) : Option UdpQspSession :=
  if s.udpPeerPacketNumber.any (packetNumber ≤ ·) then udpSession
  else udpSession.map fun session => { session with io := session.io.setPeer peer }

/-- The session since its registration, with the packets it has accepted. Each event
of the send slab is kept with the packets accepted before it. -/
structure PeerRun where
  ingress : UdpIngress UdpQspIo
  accepted : List Arrival
  log : List (List Arrival × SlabEvent)

namespace PeerRun

/-- After a handler: a UDP session that it has retired is dropped with its keys. -/
def after (r : PeerRun) (session : ServerSession) (lastActivity : Nat) (accepted : List Arrival)
    (used : Option UdpQspSession) (events : List SlabEvent) : PeerRun where
  ingress := ⟨session, lastActivity, if session.udpSession.isSome then used else none⟩
  accepted := accepted
  log := r.log ++ events.map fun event => (accepted, event)

/-- What happens to a session that is registered: it is given datagrams, which open
or not, and other events, it is closed, and others work on the registry. -/
inductive Step (boring : Boring) (r : PeerRun) : PeerRun → Prop where
  | dropped (env : Env) (decode : Bytes → UdpPayload) (claim : RawClaim) (t : QspTape) :
      (openUdpPacket boring r.ingress.udpSession claim.payload t).1 = .dropped →
      Step boring r
        { r with ingress := (r.ingress.handleUdpClaim env boring decode claim t).2.1 }
  | opened (env : Env) (decode : Bytes → UdpPayload) (claim : RawClaim) (t : QspTape)
      {packetNumber : Nat} {payload : Bytes} {udpSession used : Option UdpQspSession}
      {events : List SlabEvent} {handled : UdpIngress UdpQspIo} :
      openUdpPacket boring r.ingress.udpSession claim.payload t =
        (.opened packetNumber payload, udpSession) →
      Uses (adoptOnSocket r.ingress.session claim.peer packetNumber udpSession) used events →
      (r.ingress.handleUdpClaim env boring decode claim t).2.1 = handled →
      Step boring r (r.after handled.session handled.lastActivity
        (r.accepted ++ [(claim.peer, packetNumber)]) used events)
  | event (env : Env) (event : SessionEvent) (lastActivity : Nat) {used : Option UdpQspSession}
      {events : List SlabEvent} :
      (∀ claim, event ≠ .udp claim) →
      (∀ register, .registered register ∉ ((handleEvent env event).run r.ingress.session).2.2) →
      Uses r.ingress.udpSession used events →
      Step boring r (r.after ((handleEvent env event).run r.ingress.session).2.1 lastActivity
        r.accepted used events)
  | close (env : Env) (outcome : RunOutcome) {used : Option UdpQspSession}
      {events : List SlabEvent} :
      Uses r.ingress.udpSession used events →
      Step boring r (r.after ((closeSession env outcome).run r.ingress.session).2.1
        r.ingress.lastActivity r.accepted used events)
  | foreign (call : ForeignCall) :
      Step boring r
        { r with ingress := { r.ingress with session := { r.ingress.session with
          registry := call.apply r.ingress.session.registry } } }

/-- What is reached from some registration. The factory makes a socket for the peer
it is given. -/
inductive Since (boring : Boring) : PeerRun → Prop where
  | registered {st after : UdpIngress UdpQspIo} {env : Env}
      {create : SocketAddr → Except IoError UdpQspIo} {payload : Bytes} {t : QspTape}
      {result : Except (Stop SessionError) SessionControl} {out : List ServerEffect}
      {register : RegisterCidPayload} :
      (∀ peer io, create peer = .ok io → io = .new peer) →
      st.handleRegisterCid env boring create payload t = (result, after, out) →
      .registered register ∈ out → Since boring ⟨after, [], []⟩
  | step {r r' : PeerRun} : Since boring r → Step boring r r' → Since boring r'

/-! ## The path -/

/-- The replay window knows the accepted numbers, the socket has the peer of the
latest packet, and the slab holds what is not sent of what was queued. -/
structure OnPath (accepted : List Arrival) (events : List SlabEvent) (session : UdpQspSession) :
    Prop where
  tracks : session.replayWindow.Tracks {n | n ∈ accepted.map Prod.snd}
  peer : session.io.peer = replyPeer accepted
  slab : ∃ ds, session.io.Holds ds ∧ Accounts [] events ds

def events (r : PeerRun) : List SlabEvent := r.log.map Prod.snd

structure Inv (r : PeerRun) : Prop where
  linked : r.ingress.udpSession.isSome → r.ingress.session.udpSession.isSome
  replies : Replies r.ingress.udpSession.isSome r.accepted r.ingress.session
  path : ∀ session, r.ingress.udpSession = some session → OnPath r.accepted r.events session
  distinct : (r.accepted.map Prod.snd).Nodup
  destination : ∀ accepted transmit, (accepted, .transmitted transmit) ∈ r.log →
    transmit.destination = replyPeer accepted

theorem OnPath.uses {accepted : List Arrival} {events events' : List SlabEvent}
    {before after : Option UdpQspSession} (huses : Uses before after events')
    (h : ∀ session, before = some session → OnPath accepted events session) :
    (∀ session, after = some session → OnPath accepted (events ++ events') session) ∧
      ∀ transmit, .transmitted transmit ∈ events' → transmit.destination = replyPeer accepted := by
  cases huses with
  | none =>
    constructor
    · rintro _ ⟨⟩
    · rintro _ ⟨⟩
  | @some before after calls hcalls hrx hio =>
    obtain ⟨htracks, hpeer, ds, hholds, haccounts⟩ := h before rfl
    have hsent : SentTo before.io.peer _ _ := sentTo_calls hcalls
    rw [hpeer] at hsent
    obtain ⟨ds', hholds', haccounts'⟩ := hholds.calls calls
    refine ⟨?_, hsent.destination⟩
    rintro _ ⟨⟩
    refine ⟨?_, hio ▸ hsent.current, ds', hio ▸ hholds', haccounts.append haccounts'⟩
    have hwindow : after.replayWindow = before.replayWindow :=
      congrArg Crypto.Session.RxState.replayWindow hrx
    rw [hwindow]
    exact htracks

theorem OnPath.takes {accepted : List Arrival} {events : List SlabEvent}
    {session : UdpQspSession} (h : OnPath accepted events session) {packetNumber : Nat}
    {w : Crypto.ReplayWindow}
    (htakes : session.replayWindow.checkAndUpdate packetNumber = (.ok (), w)) (peer : SocketAddr) :
    packetNumber ∉ accepted.map Prod.snd ∧
      w.Tracks {n | n ∈ (accepted ++ [(peer, packetNumber)]).map Prod.snd} := by
  by_cases hfresh : session.replayWindow.Fresh {n | n ∈ accepted.map Prod.snd} packetNumber
  · obtain ⟨w', htakes', htracks, -, -⟩ :=
      Crypto.ReplayWindow.checkAndUpdate_of_fresh h.tracks hfresh
    cases htakes.symm.trans htakes'
    refine ⟨h.tracks.not_mem_of_fresh hfresh, ?_⟩
    convert htracks using 1
    ext n
    simp [or_comm]
  · obtain ⟨e, hrefused⟩ := Crypto.ReplayWindow.checkAndUpdate_of_not_fresh h.tracks hfresh
    cases htakes.symm.trans hrefused

theorem OnPath.adoptOnSocket {accepted : List Arrival} {events : List SlabEvent}
    {before session : UdpQspSession} (h : OnPath accepted events before) (peer : SocketAddr)
    {packetNumber : Nat}
    (htakes : before.replayWindow.checkAndUpdate packetNumber = (.ok (), session.replayWindow))
    (hio : session.io = before.io) {s : ServerSession}
    (hnumber : s.udpPeerPacketNumber = watermark accepted) :
    ∃ adopted, Server.adoptOnSocket s peer packetNumber (some session) = some adopted ∧
      OnPath (accepted ++ [(peer, packetNumber)]) events adopted := by
  obtain ⟨-, htracks⟩ := h.takes htakes peer
  obtain ⟨ds, hholds, haccounts⟩ := h.slab
  have hlatest := latest_concat accepted (peer, packetNumber)
  unfold Server.adoptOnSocket
  rw [hnumber]
  split
  · rename_i holder
    rw [if_pos holder] at hlatest
    refine ⟨session, rfl, htracks, ?_, ds, hio ▸ hholds, haccounts⟩
    rw [hio, h.peer, replyPeer, replyPeer, hlatest]
  · rename_i hnewer
    rw [if_neg hnewer] at hlatest
    refine ⟨_, rfl, htracks, ?_, ds, (hio ▸ hholds).setPeer peer, haccounts⟩
    rw [replyPeer, hlatest]
    rfl

/-! ## Steps -/

theorem openUdpPacket_some (boring : Boring) (session : UdpQspSession) (packet : Bytes)
    (t : QspTape) :
    ∃ session', session'.io = session.io ∧
      ((∃ packetNumber payload,
          openUdpPacket boring (some session) packet t =
            (.opened packetNumber payload, some session') ∧
          session.replayWindow.checkAndUpdate packetNumber = (.ok (), session'.replayWindow)) ∨
        openUdpPacket boring (some session) packet t = (.dropped, some session') ∧
          session'.replayWindow = session.replayWindow) := by
  have hwindowed := session.openPacket_windowed boring packet t
  simp only [openUdpPacket]
  generalize session.openPacket boring packet t = out at hwindowed
  cases hwindowed with
  | accepted opened after t takes backend =>
    exact ⟨after, backend, .inl ⟨_, _, rfl, takes⟩⟩
  | refused e after t same backend => exact ⟨after, backend, .inr ⟨rfl, same⟩⟩

theorem openUdpPacket_opened {boring : Boring} {udpSession after : Option UdpQspSession}
    {packet payload : Bytes} {t : QspTape} {packetNumber : Nat}
    (h : openUdpPacket boring udpSession packet t = (.opened packetNumber payload, after)) :
    ∃ session session', udpSession = some session ∧ after = some session' ∧
      session.replayWindow.checkAndUpdate packetNumber = (.ok (), session'.replayWindow) ∧
      session'.io = session.io := by
  cases udpSession with
  | none => cases h
  | some session =>
    obtain ⟨session', hio, ⟨_, _, heq, htakes⟩ | ⟨heq, -⟩⟩ :=
      openUdpPacket_some boring session packet t
    · cases heq.symm.trans h
      exact ⟨session, session', rfl, rfl, htakes, hio⟩
    · cases heq.symm.trans h

theorem openUdpPacket_dropped {boring : Boring} {udpSession after : Option UdpQspSession}
    {packet : Bytes} {t : QspTape} (h : openUdpPacket boring udpSession packet t = (.dropped, after)) :
    udpSession = none ∧ after = none ∨
      ∃ session session', udpSession = some session ∧ after = some session' ∧
        session'.replayWindow = session.replayWindow ∧ session'.io = session.io := by
  cases udpSession with
  | none =>
    cases h
    exact .inl ⟨rfl, rfl⟩
  | some session =>
    obtain ⟨session', hio, ⟨_, _, heq, -⟩ | ⟨heq, hsame⟩⟩ :=
      openUdpPacket_some boring session packet t
    · cases heq.symm.trans h
    · cases heq.symm.trans h
      exact .inr ⟨session, session', rfl, rfl, hsame, hio⟩

/-- A handler that uses the path, from what is on it to what its packets say. -/
theorem Inv.after {r : PeerRun} (h : r.Inv) {session : ServerSession} {lastActivity : Nat}
    {accepted : List Arrival} {before used : Option UdpQspSession} {events : List SlabEvent}
    (huses : Uses before used events)
    (hpath : ∀ session, before = some session → OnPath accepted r.events session)
    (hreplies : Replies before.isSome accepted session)
    (hdistinct : (accepted.map Prod.snd).Nodup) :
    (r.after session lastActivity accepted used events).Inv := by
  obtain ⟨hused, hdestination⟩ := OnPath.uses huses hpath
  have hevents : (r.after session lastActivity accepted used events).events = r.events ++ events := by
    simp [PeerRun.events, PeerRun.after]
  refine ⟨fun hsome => ?_, fun udp hudp => ?_, fun session' hsession' => ?_, hdistinct, ?_⟩
  · change (if session.udpSession.isSome then used else none).isSome = true at hsome
    split at hsome
    · assumption
    · cases hsome
  · obtain ⟨hlive, hreply⟩ := hreplies udp hudp
    have hsome : session.udpSession.isSome := Option.isSome_iff_exists.mpr ⟨udp, hudp⟩
    refine ⟨?_, hreply⟩
    simp only [PeerRun.after, hsome, if_true]
    rw [huses.isSome]
    exact hlive
  · simp only [PeerRun.after] at hsession'
    split at hsession'
    · rw [hevents]
      exact hused session' hsession'
    · cases hsession'
  -- Earlier sends keep the list they were logged with, the new ones carry this list.
  · intro accepted' transmit hmem
    rcases List.mem_append.mp hmem with hmem | hmem
    · exact h.destination accepted' transmit hmem
    · obtain ⟨event, hevent, heq⟩ := List.mem_map.mp hmem
      cases heq
      exact hdestination transmit hevent

theorem Inv.step {boring : Boring} {r r' : PeerRun} (h : r.Inv) (hstep : Step boring r r') :
    r'.Inv := by
  cases hstep with
  | dropped env decode claim t hdropped =>
    rcases hopen : openUdpPacket boring r.ingress.udpSession claim.payload t with ⟨outcome, after⟩
    rw [hopen] at hdropped
    cases hdropped
    rw [UdpIngress.handleUdpClaim, hopen]
    rcases openUdpPacket_dropped hopen with ⟨hbefore, rfl⟩ | ⟨before, session, hbefore, rfl, hw, hio⟩
    -- The path was given up: there is no session left to speak about.
    · refine ⟨(fun hsome => by cases hsome), fun udp hudp => ?_, (fun _ hsome => by cases hsome),
        h.distinct, h.destination⟩
      have hlive := (h.replies udp hudp).1
      rw [hbefore] at hlive
      cases hlive
    -- The packet was refused: the window and the socket are as before.
    · have hlive : r.ingress.udpSession.isSome := Option.isSome_iff_exists.mpr ⟨before, hbefore⟩
      obtain ⟨htracks, hpeer, hslab⟩ := h.path before hbefore
      refine ⟨fun _ => h.linked hlive, fun udp hudp => ⟨rfl, (h.replies udp hudp).2⟩, ?_,
        h.distinct, h.destination⟩
      rintro _ ⟨⟩
      exact ⟨hw ▸ htracks, hio ▸ hpeer, hio ▸ hslab⟩
  | opened env decode claim t hopen huses hhandled =>
    obtain ⟨before, session, hbefore, rfl, htakes, hio⟩ := openUdpPacket_opened hopen
    have hpath := h.path before hbefore
    have hlive : r.ingress.udpSession.isSome := Option.isSome_iff_exists.mpr ⟨before, hbefore⟩
    obtain ⟨udp, hudp⟩ := Option.isSome_iff_exists.mp (h.linked hlive)
    obtain ⟨adopted, hadopted, hpath'⟩ :=
      hpath.adoptOnSocket claim.peer htakes hio (h.replies udp hudp).2.2
    rw [hadopted] at huses
    rw [UdpIngress.handleUdpClaim, hopen] at hhandled
    subst hhandled
    -- Number and peer enter the list of accepted packets together; the replay window
    -- keeps the numbers distinct.
    refine h.after huses ?_ ?_ ?_
    · rintro _ ⟨⟩
      exact hpath'
    · intro udp' hudp'
      obtain ⟨-, hreply⟩ := h.replies.handleUdpClaim env
        ⟨claim.peer, _, claim.sender, decode _⟩ udp' hudp'
      exact ⟨rfl, hreply⟩
    · rw [List.map_append]
      refine h.distinct.append (List.nodup_singleton _) ?_
      simpa using (hpath.takes htakes claim.peer).1
  | event env event lastActivity hudp hregistered huses =>
    exact h.after huses h.path (h.replies.handleEvent env hudp hregistered) h.distinct
  | close env outcome huses =>
    refine h.after huses h.path ?_ h.distinct
    exact (keeps_closeSession (routine_any (P := Replies _ _) stable_onUdp env) sendsUdp_any
      h.replies outcome).1
  | foreign call => exact ⟨h.linked, h.replies, h.path, h.distinct, h.destination⟩

theorem Since.inv {boring : Boring} {r : PeerRun} (h : Since boring r) : r.Inv := by
  induction h with
  | registered hcreate hrun hmem =>
    obtain ⟨⟨told, -, houtcome⟩, -, -, hinstalled⟩ := UdpIngress.handleRegisterCid_outcome hrun
    obtain ⟨keys, io, hio, hsession⟩ := hinstalled _ hmem
    obtain ⟨-, hudp, hnumber⟩ := houtcome.registered hmem
    refine ⟨fun _ => ?_, fun udp hudp' => ?_, fun session hsession' => ?_, List.nodup_nil, ?_⟩
    · exact Option.isSome_iff_exists.mpr ⟨_, hudp⟩
    · cases hudp.symm.trans hudp'
      exact ⟨Option.isSome_iff_exists.mpr ⟨_, hsession⟩, rfl, hnumber⟩
    · cases hsession.symm.trans hsession'
      obtain rfl := hcreate _ _ hio
      refine ⟨?_, rfl, [], ?_, .done⟩
      · have hempty : {n : Nat | n ∈ ([] : List Arrival).map Prod.snd} = ∅ := by simp
        rw [hempty]
        exact Crypto.ReplayWindow.tracks_new _
      · exact holds_new placeholderPeer
    · intro _ _ hmem
      cases hmem
  | step hr hstep ih => exact ih.step hstep

theorem Step.accepted {boring : Boring} {r r' : PeerRun} (h : Step boring r r') :
    r'.accepted = r.accepted ∨ ∃ arrival, r'.accepted = r.accepted ++ [arrival] := by
  cases h with
  | opened env decode claim t hopen huses hhandled => exact .inr ⟨_, rfl⟩
  | _ => exact .inl rfl

end PeerRun

/-- The peer of a session is the source of the latest packet that it has accepted
since its registration. So it does not depend on the order in which these came,
and no packet that is refused or older than an accepted one moves it. Its socket
sends to the peer, and what is in the slab goes to the peer at the time of the
flush; nothing in it is lost when the peer changes. -/
theorem peer_migration_order_independent {boring : Boring} {r : PeerRun}
    (h : PeerRun.Since boring r) :
    (∀ udp, r.ingress.session.udpSession = some udp →
      udp.peer = replyPeer r.accepted ∧
      (∃ session, r.ingress.udpSession = some session ∧ session.io.peer = udp.peer ∧
        sent r.events ++ session.io.queued = kept r.events) ∧
      (∀ r' udp', PeerRun.Since boring r' → r'.accepted.Perm r.accepted →
        r'.ingress.session.udpSession = some udp' → udp'.peer = udp.peer) ∧
      ∀ r' udp', PeerRun.Step boring r r' → r'.ingress.session.udpSession = some udp' →
        (∀ arrival, r'.accepted = r.accepted ++ [arrival] →
          ∃ older ∈ r.accepted, arrival.2 ≤ older.2) →
        udp'.peer = udp.peer) ∧
      (r.accepted.map Prod.snd).Nodup ∧
      ∀ accepted transmit, (accepted, .transmitted transmit) ∈ r.log →
        transmit.destination = replyPeer accepted := by
  have hinv := h.inv
  refine ⟨fun udp hudp => ?_, hinv.distinct, hinv.destination⟩
  obtain ⟨hlive, hpeer, -⟩ := hinv.replies udp hudp
  obtain ⟨session, hsession⟩ := Option.isSome_iff_exists.mp hlive
  obtain ⟨-, hio, ds, hholds, haccounts⟩ := hinv.path session hsession
  refine ⟨hpeer, ⟨session, hsession, hio.trans hpeer.symm, ?_⟩, ?_, ?_⟩
  · rw [hholds.queued_eq]
    exact haccounts.keptFrom_eq []
  -- The latest packet of a list with distinct numbers does not depend on its order.
  · intro r' udp' hr' hperm hudp'
    rw [(hr'.inv.replies udp' hudp').2.1, hpeer, replyPeer, replyPeer,
      latest_eq_of_perm hinv.distinct hperm]
  · intro r' udp' hstep hudp' holder
    rw [((hinv.step hstep).replies udp' hudp').2.1, hpeer]
    rcases hstep.accepted with hsame | ⟨arrival, harrival⟩
    · rw [hsame]
    · obtain ⟨older, hmem, hle⟩ := holder arrival harrival
      rw [harrival, replyPeer, replyPeer, latest_of_older hmem hle]

def openingBoring : Boring :=
  { Crypto.counterBoring with
    aeadOpen := fun _ _ _ _ sealed => some (sealed.take (sealed.length - 16)) }

def registering :
    Except (Stop SessionError) SessionControl × UdpIngress UdpQspIo × List ServerEffect :=
  UdpIngress.handleRegisterCid
    ⟨.new firstConnection.1 [.chaCha20Poly1305] 1400 firstConnection.2, 0, none⟩ .quiet
    openingBoring (fun peer => .ok (.new peer)) (registrationBytes 7) ⟨[], []⟩

def registeredRun : PeerRun := ⟨registering.2.1, [], []⟩

def numbered (n : UInt8) : Bytes :=
  0x43 :: List.replicate 20 7 ++ [0, 0, 0, n] ++ List.replicate 16 0

def packetSender : QspSessionParams :=
  ⟨⟨[], by decide⟩, ⟨[], by decide⟩, .chaCha20Poly1305, .replicate _ 0, .replicate _ 0, 0, 0, false⟩

/-- A packet arrives, and nothing is sent in return. -/
def PeerRun.arrive (r : PeerRun) (peer : SocketAddr) (n : UInt8) : PeerRun :=
  let claim : RawClaim := ⟨peer, packetSender, numbered n⟩
  let udpSession := (openUdpPacket openingBoring r.ingress.udpSession (numbered n) ⟨[], []⟩).2
  let handled := (r.ingress.handleUdpClaim .quiet openingBoring
    (fun _ => .message (.pong 0)) claim ⟨[], []⟩).2.1
  r.after handled.session handled.lastActivity (r.accepted ++ [(peer, n.toNat)])
    (adoptOnSocket r.ingress.session peer n.toNat udpSession) []

theorem since_registeredRun : PeerRun.Since openingBoring registeredRun := by
  have hregistered : ∃ register, .registered register ∈ registering.2.2 :=
    ⟨⟨⟨List.replicate 20 7, by decide⟩, ⟨[], by decide⟩, .chaCha20Poly1305, .replicate _ 0,
      .replicate _ 0, 0, 0, false⟩, by decide +kernel⟩
  obtain ⟨register, hmem⟩ := hregistered
  have hrun : registering = (registering.1, registering.2.1, registering.2.2) := rfl
  refine .registered ?_ hrun hmem
  rintro _ _ ⟨⟩
  rfl

theorem PeerRun.Since.arrive {r : PeerRun} (h : PeerRun.Since openingBoring r) (peer : SocketAddr)
    {n : UInt8} (hopen : (openUdpPacket openingBoring r.ingress.udpSession (numbered n)
      ⟨[], []⟩).1 = .opened n.toNat []) : PeerRun.Since openingBoring (r.arrive peer n) := by
  have huses (session : Option UdpQspSession) : Uses session session [] := by
    cases session with
    | none => exact .none
    | some session =>
      have hcalls : ∀ peer, Call.setPeer peer ∉ [] := by simp
      exact .some hcalls rfl rfl
  have hopened : openUdpPacket openingBoring r.ingress.udpSession (numbered n) ⟨[], []⟩ =
      (.opened n.toNat [],
        (openUdpPacket openingBoring r.ingress.udpSession (numbered n) ⟨[], []⟩).2) :=
    Prod.ext hopen rfl
  exact h.step (.opened .quiet (fun _ => .message (.pong 0)) ⟨peer, packetSender, numbered n⟩ ⟨[], []⟩
    hopened (huses _) rfl)

/-- Two packets that arrive in the reverse order of their numbers. -/
theorem peer_migration_order_independent_reordered :
    let newer : SocketAddr := ⟨[10, 0, 0, 2], 2000⟩
    let older : SocketAddr := ⟨[10, 0, 0, 1], 1000⟩
    let r := (registeredRun.arrive newer 2).arrive older 1
    r.accepted = [(newer, 2), (older, 1)] ∧
      ∃ udp, r.ingress.session.udpSession = some udp ∧ udp.peer = newer := by
  intro newer older r
  have hsince : PeerRun.Since openingBoring r :=
    (since_registeredRun.arrive newer (by decide +kernel)).arrive older (by decide +kernel)
  have hlive : r.ingress.session.udpSession.isSome := by decide +kernel
  obtain ⟨udp, hudp⟩ := Option.isSome_iff_exists.mp hlive
  refine ⟨rfl, udp, hudp, ?_⟩
  exact ((peer_migration_order_independent hsince).1 udp hudp).1

end Slt.Server
