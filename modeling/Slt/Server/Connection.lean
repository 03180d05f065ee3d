import Slt.Server.Auth
import Slt.Server.Placeholder
import Slt.Server.UdpOpen

/-!
# A connection from its first byte on

The authentication phase, the session that takes the connection over and the
packet keys of that session in one system. The session starts with what the
authentication phase has left in the read buffer. It takes all whole frames out
of the buffer before it waits for anything else.

What comes out of this system towards the tunnel has passed all checks: the
client is authenticated, the packet came in a DATA message of the stream or of a
packet that opened under registered keys, and its source is the client's address.
-/

namespace Slt.Server

open Lib Lib.Handler Proto
open Crypto (Boring)

variable {ι : Type} [Crypto.SessionIo ι]

def tcpEvent (frame : Frame) : SessionEvent :=
  match frame.decode with
  | .ok message => .tcpMessage message
  | .error err => .tcpMalformed frame.ty err

def decodeUdpMessage (limits : MessageLimits) (payload : Bytes) : UdpPayload :=
  match decodePaddedMessage payload limits with
  | .error err => .unframed err
  | .ok none => .incomplete
  | .ok (some (frame, _)) =>
    match frame.decode with
    | .ok message => .message message
    | .error err => .malformed frame.ty err

/-- What a connection depends on. `io` is the backend of new UDP sessions. -/
structure ServerSetup (ι : Type) where
  handler : AuthHandler
  boring : Boring
  io : ι

def ServerSetup.newUdpSession (setup : ServerSetup ι) (params : QspSessionParams) :
    Crypto.Session ι :=
  .new setup.io params.scid params.dcid
    ⟨params.cipher, .ofSecret setup.boring params.cipher params.secretTx,
      .ofSecret setup.boring params.cipher params.secretRx⟩
    params.sendPn params.recvExpectedPn params.keyPhase

/-- A datagram that was routed to the session, with the keys that the session had
then. -/
structure RoutedDatagram (ι : Type) where
  peer : SocketAddr
  bytes : Bytes
  faults : List Bool
  keys : Option (Crypto.Session ι)

/-- `stream` is all that was read from the connection. The authentication phase
has popped `authFrames` from it and the session `frames`. The session has also
been given the datagrams `datagrams`. -/
structure Connection (ι : Type) where
  authFrames : List OwnedMessageBuf
  stream : Bytes
  frames : List OwnedMessageBuf
  datagrams : List (RoutedDatagram ι)
  readBuf : Bytes
  /-- The session is in `handle_tcp_read`. -/
  draining : Bool
  run : ServerRun
  udpSession : Option (Crypto.Session ι)

namespace Connection

variable (setup : ServerSetup ι)

def atTop (c : Connection ι) : Connection ι :=
  { c with draining := c.run.session.tcpAlive && !c.readBuf.isEmpty }

def accept (a : AuthPhase) (session : ServerSession) : Connection ι :=
  atTop ⟨a.frames, a.stream, [], [], a.readBuf, false, .initial session, none⟩

/-- A registration makes new keys; a session without a UDP path has none. -/
def keysAfter (c : Connection ι) (run : ServerRun) : Option (Crypto.Session ι) :=
  let registered := (run.log.drop c.run.log.length).findSome? fun
    | .registered payload => some payload
    | _ => none
  match run.session.udpSession, registered with
  | none, _ => none
  | some _, some payload => some (setup.newUdpSession payload.serverSession)
  | some _, none => c.udpSession

def handle (c : Connection ι) (env : Env) (event : SessionEvent) : Connection ι :=
  let run := c.run.afterEvent env event
  { c with run := run, udpSession := c.keysAfter setup run }

def afterRead (c : Connection ι) (chunk : Bytes) : Connection ι :=
  { c with stream := c.stream ++ chunk, readBuf := c.readBuf ++ chunk, draining := true }

def afterPop (c : Connection ι) (env : Env) : Connection ι :=
  match popMessageBuf setup.handler.limits c.readBuf with
  | (.error err, _) => c.handle setup env (.tcpUnframed err)
  | (.ok none, _) => { c with draining := false }
  | (.ok (some owned), readBuf) =>
    { c with frames := c.frames ++ [owned], readBuf := readBuf }.handle setup env
      (tcpEvent owned.message)

def arrived (c : Connection ι) (datagram : RoutedDatagram ι)
    (udpSession : Option (Crypto.Session ι)) : Connection ι :=
  { c with datagrams := c.datagrams ++ [datagram], udpSession := udpSession }

def afterDatagram (c : Connection ι) (env : Env) (peer : SocketAddr) (packet : Bytes)
    (faults : List Bool) : Connection ι :=
  let datagram : RoutedDatagram ι := ⟨peer, packet, faults, c.udpSession⟩
  match openUdpPacket setup.boring c.udpSession packet ⟨faults, []⟩, c.run.session.udpSession with
  | (.opened packetNumber payload, udpSession), some current =>
    ((c.arrived datagram udpSession).handle setup env (.udp
      ⟨peer, packetNumber, current.params.ofServer.clientSession,
        decodeUdpMessage setup.handler.limits payload⟩)).atTop
  | (_, udpSession), _ => ((c.arrived datagram udpSession).handle setup env .udpDropped).atTop

def afterSend (c : Connection ι) (payload : Bytes) (faults : List Bool) : Connection ι :=
  { c with udpSession := c.udpSession.map fun session =>
      (session.send setup.boring payload ⟨faults, []⟩).2.1 }

end Connection

/-- The event does not come out of bytes from the network. -/
def SessionEvent.isLocal : SessionEvent → Bool
  | .tcpMessage _ => false
  | .tcpMalformed _ _ => false
  | .tcpUnframed _ => false
  | .udp _ => false
  | .udpDropped => false
  | _ => true

def SessionEvent.isFrame : SessionEvent → Bool
  | .tcpMessage _ => true
  | .tcpMalformed _ _ => true
  | _ => false

/-- The connections of a server, with any bytes and datagrams from the network. -/
inductive Served (setup : ServerSetup ι) : Connection ι → Prop where
  | accepted {a : AuthPhase} {clientId : ClientId} {assignedIp : Ipv4Addr}
      (registry : SessionRegistry) (tx : SessionTx) (allowedCiphers : List CipherSuite) :
      AuthPhase.Reachable setup.handler a → .created clientId assignedIp ∈ a.log →
      Served setup (.accept a
        (.new (registry.registerSession clientId assignedIp tx).1 allowedCiphers
          setup.handler.limits.maxDataLen (registry.registerSession clientId assignedIp tx).2))
  | foreign {c : Connection ι} (call : ForeignCall) :
      Served setup c → call.Foreign c.run.session.sessionId →
      Served setup { c with run := c.run.afterForeign call }
  | read {c : Connection ι} (chunk : Bytes) :
      Served setup c → c.run.phase = .running → c.draining = false →
      c.run.session.tcpAlive = true → chunk ≠ [] → Served setup (c.afterRead chunk)
  | pop {c : Connection ι} (env : Env) :
      Served setup c → c.run.phase = .running → c.draining = true →
      (∀ call ∈ env.foreign, call.Foreign c.run.session.sessionId) →
      Served setup (c.afterPop setup env)
  | datagram {c : Connection ι} (env : Env) (peer : SocketAddr) (packet : Bytes)
      (faults : List Bool) :
      Served setup c → c.run.phase = .running → c.draining = false →
      (∀ call ∈ env.foreign, call.Foreign c.run.session.sessionId) →
      Served setup (c.afterDatagram setup env peer packet faults)
  | work {c : Connection ι} (env : Env) (event : SessionEvent) :
      Served setup c → c.run.phase = .running → c.draining = false → event.isLocal = true →
      c.run.session.polls event = true →
      (∀ call ∈ env.foreign, call.Foreign c.run.session.sessionId) →
      Served setup (c.handle setup env event).atTop
  | send {c : Connection ι} (payload : Bytes) (faults : List Bool) :
      Served setup c → Served setup (c.afterSend setup payload faults)
  | close {c : Connection ι} (env : Env) (outcome : RunOutcome) :
      Served setup c → c.run.phase = .ended outcome →
      Served setup { c with run := c.run.afterClose env outcome }

/-! ## Events and packets -/

@[simp] theorem isFrame_tcpEvent (frame : Frame) : (tcpEvent frame).isFrame = true := by
  unfold tcpEvent
  split <;> rfl

theorem packet_tcpEvent {frame : Frame} {packet : Bytes}
    (h : (tcpEvent frame).packet? = some packet) : frame = ⟨.data, packet⟩ := by
  unfold tcpEvent at h
  split at h
  · rename_i message hdecoded
    cases message with
    | data payload =>
      cases h
      exact Frame.eq_of_decode_data hdecoded
    | _ => cases h
  · cases h

theorem packet_udp {claim : UdpClaim} {packet : Bytes}
    (h : (SessionEvent.udp claim).packet? = some packet) :
    claim.payload = .message (.data packet) := by
  obtain ⟨peer, packetNumber, sender, payload⟩ := claim
  cases payload with
  | message message =>
    cases message with
    | data payload =>
      cases h
      rfl
    | _ => cases h
  | _ => cases h

theorem packet_decodeUdpMessage {limits : MessageLimits} {payload packet : Bytes}
    (h : decodeUdpMessage limits payload = .message (.data packet)) :
    ∃ bytes, decodePaddedMessage payload limits = .ok (some (⟨.data, packet⟩, bytes)) := by
  unfold decodeUdpMessage at h
  split at h
  · cases h
  · cases h
  · rename_i frame bytes hframe
    split at h
    · rename_i message hdecoded
      cases h
      exact ⟨bytes, by rw [hframe, Frame.eq_of_decode_data hdecoded]⟩
    · cases h

theorem length_of_decodePaddedMessage {limits : MessageLimits} {payload packet bytes : Bytes}
    (h : decodePaddedMessage payload limits = .ok (some (⟨.data, packet⟩, bytes))) :
    packet.length ≤ limits.maxDataLen := by
  unfold decodePaddedMessage at h
  split at h
  · cases h
  · cases h
  · rename_i message consumed hmessage
    cases h
    unfold decodeMessage at hmessage
    split at hmessage
    · cases hmessage
    · cases hmessage
    · split at hmessage
      · cases hmessage
      · rename_i hdata
        cases hmessage
        simpa [dataTooLarge] using hdata

theorem length_of_dataTooLarge {limits : MessageLimits} {packet : Bytes}
    (h : dataTooLarge ⟨.data, packet⟩ limits = false) : packet.length ≤ limits.maxDataLen := by
  simpa [dataTooLarge] using h

theorem extractSrcAddr_some {packet addr : Bytes} (h : extractSrcAddr packet = some addr) :
    20 ≤ packet.length ∧ packet.headD 0 >>> 4 = 4 ∧ (packet.drop 12).take 4 = addr := by
  cases packet with
  | nil => cases h
  | cons first rest =>
    unfold extractSrcAddr at h
    dsimp only at h
    split at h
    · cases h
    rename_i hlong
    split at h
    · cases h
    rename_i hversion
    split at h
    · cases h
    · cases h
      exact ⟨Nat.le_of_not_lt hlong, Decidable.not_not.mp hversion, rfl⟩

/-! ## The invariant -/

/-- The keys made for these parameters, after packets have been sent with them and
datagrams opened. -/
inductive KeysOf (setup : ServerSetup ι) (params : QspSessionParams)
    (datagrams : List (RoutedDatagram ι)) : Crypto.Session ι → Prop
  | new : KeysOf setup params datagrams (setup.newUdpSession params)
  | send {session : Crypto.Session ι} (payload : Bytes) (faults : List Bool) :
      KeysOf setup params datagrams session →
      KeysOf setup params datagrams (session.send setup.boring payload ⟨faults, []⟩).2.1
  | opened {datagram : RoutedDatagram ι} {session : Crypto.Session ι} :
      datagram ∈ datagrams → datagram.keys = some session → KeysOf setup params datagrams session →
      KeysOf setup params datagrams
        (session.openPacket setup.boring datagram.bytes ⟨datagram.faults, []⟩).2.1

/-- The keys come from a REGISTER_CID of the stream. -/
def Registered (setup : ServerSetup ι) (frames : List OwnedMessageBuf)
    (datagrams : List (RoutedDatagram ι)) (session : Crypto.Session ι) : Prop :=
  ∃ owned payload, owned ∈ frames ∧ owned.message.decode = .ok (.registerCid payload) ∧
    KeysOf setup payload.serverSession datagrams session

/-- Where a packet for the tunnel came from: a DATA frame of the stream, or a DATA
message in a datagram that arrived and opened under the registered keys of that
time. -/
inductive Carried (setup : ServerSetup ι) (frames : List OwnedMessageBuf)
    (datagrams : List (RoutedDatagram ι)) (packet : Bytes) : Prop
  | stream {owned : OwnedMessageBuf} (taken : owned ∈ frames)
      (data : owned.message = ⟨.data, packet⟩)
  | udp {datagram : RoutedDatagram ι} {session : Crypto.Session ι} {opened : Crypto.OpenedPacket}
      {frame : Bytes} (arrived : datagram ∈ datagrams) (keys : datagram.keys = some session)
      (registered : Registered setup frames datagrams session)
      (opens : (session.openPacket setup.boring datagram.bytes ⟨datagram.faults, []⟩).1 =
        .ok opened)
      (data : decodePaddedMessage opened.payload setup.handler.limits =
        .ok (some (⟨.data, packet⟩, frame)))

section Mono

variable {setup : ServerSetup ι} {frames frames' : List OwnedMessageBuf}
  {datagrams datagrams' : List (RoutedDatagram ι)} (hframes : frames ⊆ frames')
  (hdatagrams : datagrams ⊆ datagrams')
include hdatagrams

theorem KeysOf.mono {params : QspSessionParams} {session : Crypto.Session ι}
    (h : KeysOf setup params datagrams session) : KeysOf setup params datagrams' session := by
  induction h with
  | new => exact .new
  | send payload faults _ ih => exact .send payload faults ih
  | opened hmem hkeys _ ih => exact .opened (hdatagrams hmem) hkeys ih

include hframes

theorem Registered.mono {session : Crypto.Session ι}
    (h : Registered setup frames datagrams session) :
    Registered setup frames' datagrams' session := by
  obtain ⟨owned, payload, hmem, hregister, hkeys⟩ := h
  exact ⟨owned, payload, hframes hmem, hregister, hkeys.mono hdatagrams⟩

theorem Carried.mono {packet : Bytes} (h : Carried setup frames datagrams packet) :
    Carried setup frames' datagrams' packet := by
  cases h with
  | stream taken data => exact .stream (hframes taken) data
  | udp arrived keys registered opens data =>
    exact .udp (hdatagrams arrived) keys (registered.mono hframes hdatagrams) opens data

end Mono

namespace Connection

structure Core (setup : ServerSetup ι) (client : ClientEntry) (c : Connection ι) : Prop where
  identity : c.run.session.identity = (client.clientId, client.assignedIpv4)
  bytes : c.stream = (c.authFrames ++ c.frames).flatMap (·.buf) ++ c.readBuf
  events : c.run.handled.filter (·.isFrame) = c.frames.map (tcpEvent ·.message)
  fits : ∀ owned ∈ c.frames, dataTooLarge owned.message setup.handler.limits = false
  keys : ∀ session, c.udpSession = some session → Registered setup c.frames c.datagrams session
  delivered : ∀ packet, .toTun packet ∈ c.run.log →
    extractSrcAddr packet = some client.assignedIpv4.val ∧
      packet.length ≤ setup.handler.limits.maxDataLen ∧ Carried setup c.frames c.datagrams packet

/-- A session that waits has no whole frame in its buffer. -/
def Drained (setup : ServerSetup ι) (c : Connection ι) : Prop :=
  c.run.phase = .running → c.draining = false → c.run.session.tcpAlive = true →
    popMessageBuf setup.handler.limits c.readBuf = (.ok none, c.readBuf)

omit [Crypto.SessionIo ι] in
theorem drained_atTop (setup : ServerSetup ι) (c : Connection ι) : c.atTop.Drained setup := by
  intro _ hwaiting halive
  have hempty : c.readBuf = [] := by
    have halive : c.run.session.tcpAlive = true := halive
    have hwaiting : (c.run.session.tcpAlive && !c.readBuf.isEmpty) = false := hwaiting
    simpa [halive] using hwaiting
  show popMessageBuf _ c.readBuf = (.ok none, c.readBuf)
  rw [hempty]
  rfl

omit [Crypto.SessionIo ι] in
theorem authFrames_afterPop (setup : ServerSetup ι) (c : Connection ι) (env : Env) :
    (c.afterPop setup env).authFrames = c.authFrames := by
  unfold afterPop
  split <;> rfl

omit [Crypto.SessionIo ι] in
theorem authFrames_afterDatagram (setup : ServerSetup ι) (c : Connection ι) (env : Env)
    (peer : SocketAddr) (packet : Bytes) (faults : List Bool) :
    (c.afterDatagram setup env peer packet faults).authFrames = c.authFrames := by
  unfold afterDatagram
  split <;> rfl

theorem afterEvent_emits (w : ServerRun) (env : Env) (event : SessionEvent) :
    (w.afterEvent env event).session.identity = w.session.identity ∧
      ∃ out, (w.afterEvent env event).log = w.log ++ out ∧
        (∀ packet, .toTun packet ∈ out →
          event.packet? = some packet ∧ extractSrcAddr packet = some w.session.assignedIpv4.val) ∧
        ∀ payload, .registered payload ∈ out → event = .tcpMessage (.registerCid payload) := by
  let O : ServerEffect → Prop
    | .toTun packet =>
      event.packet? = some packet ∧ extractSrcAddr packet = some w.session.assignedIpv4.val
    | .registered payload => event = .tcpMessage (.registerCid payload)
    | _ => True
  have hO : RoutineEffects O :=
    ⟨fun _ => trivial, fun _ _ => trivial, fun _ => trivial, fun _ => trivial, fun _ => trivial,
      fun _ => trivial⟩
  have hT := hO.keeps (stable_identity w.session.identity) env
  have hudp : SendsUdp (·.identity = w.session.identity) (.all O) := fun _ _ _ _ _ => trivial
  have hemits : Keeps (·.identity = w.session.identity) (.all O) w.session
      (handleEvent env event) := by
    refine keeps_handleEvent hT hudp rfl (fun _ => .attempt (keeps_sendClose hT hudp rfl _)) id
      (fun packet hpacket s hs hsource => ⟨hpacket, ?_⟩) (fun _ hevent => ⟨hevent, id⟩)
      fun claim _ hs => (identity_adoptUdpPeerIfNewer ..).trans hs
    exact hsource.trans (congrArg (some ·.2.val) hs)
  exact ⟨hemits.1, _, rfl, fun _ hmem => hemits.2 _ hmem, fun _ hmem => hemits.2 _ hmem⟩

section Steps

variable {setup : ServerSetup ι} {client : ClientEntry} {c : Connection ι}

theorem decode_of_tcpEvent {frame : Frame} {message : Message}
    (h : tcpEvent frame = .tcpMessage message) : frame.decode = .ok message := by
  unfold tcpEvent at h
  split at h
  · rename_i hdecoded
    cases h
    exact hdecoded
  · cases h

omit [Crypto.SessionIo ι] in
/-- The keys after an event are those before it, or those of its registration. -/
theorem keysAfter_some {env : Env} {event : SessionEvent} {session : Crypto.Session ι}
    (h : c.keysAfter setup (c.run.afterEvent env event) = some session) :
    c.udpSession = some session ∨
      ∃ payload, event = .tcpMessage (.registerCid payload) ∧
        session = setup.newUdpSession payload.serverSession := by
  obtain ⟨-, out, hlog, -, hregistered⟩ := afterEvent_emits c.run env event
  unfold keysAfter at h
  rw [hlog, List.drop_left] at h
  dsimp only at h
  split at h
  · cases h
  · rename_i payload _ hfound
    obtain ⟨x, hmem, hx⟩ := List.exists_of_findSome?_eq_some hfound
    cases x with
    | registered found =>
      cases hx
      cases h
      exact .inr ⟨_, hregistered _ hmem, rfl⟩
    | _ => cases hx
  · exact .inl h

section

variable (h : c.Core setup client)
include h

/-- An event that comes with the frames `new`, at most one, from the buffer. -/
theorem Core.handle (env : Env) {event : SessionEvent} {new : List OwnedMessageBuf}
    {readBuf : Bytes}
    (hbytes : c.readBuf = new.flatMap (·.buf) ++ readBuf)
    (hnew : [event].filter (·.isFrame) = new.map (tcpEvent ·.message))
    (hfits : ∀ owned ∈ new, dataTooLarge owned.message setup.handler.limits = false)
    (hpacket : ∀ packet, event.packet? = some packet →
      packet.length ≤ setup.handler.limits.maxDataLen ∧
        Carried setup (c.frames ++ new) c.datagrams packet) :
    ({ c with frames := c.frames ++ new, readBuf := readBuf }.handle setup env event).Core setup
      client := by
  obtain ⟨hidentity, out, hlog, htun, -⟩ := afterEvent_emits c.run env event
  have haddress : c.run.session.assignedIpv4 = client.assignedIpv4 := congrArg Prod.snd h.identity
  refine ⟨hidentity.trans h.identity, ?_, ?_, ?_, fun session hsession => ?_, fun packet hmem => ?_⟩
  · show c.stream = (c.authFrames ++ (c.frames ++ new)).flatMap (·.buf) ++ readBuf
    rw [h.bytes, hbytes]
    simp only [List.flatMap_append, List.append_assoc]
  · show (c.run.handled ++ [event]).filter (·.isFrame) =
      (c.frames ++ new).map (tcpEvent ·.message)
    rw [List.filter_append, h.events, hnew, List.map_append]
  · exact List.forall_mem_append.mpr ⟨h.fits, hfits⟩
  · rcases keysAfter_some hsession with hbefore | ⟨payload, rfl, rfl⟩
    · exact (h.keys session hbefore).mono (List.subset_append_left ..) (List.Subset.refl _)
    · -- the registration is the frame that was popped
      have hframe : SessionEvent.tcpMessage (.registerCid payload) ∈
          new.map (tcpEvent ·.message) :=
        hnew ▸ List.mem_filter.mpr ⟨List.mem_singleton_self _, rfl⟩
      obtain ⟨owned, hmem, hevent⟩ := List.mem_map.mp hframe
      exact ⟨owned, payload, List.mem_append_right _ hmem, decode_of_tcpEvent hevent, .new⟩
  · have hmem : .toTun packet ∈ (c.run.afterEvent env event).log := hmem
    rw [hlog] at hmem
    rcases List.mem_append.mp hmem with hmem | hmem
    · obtain ⟨hsource, hlength, hcarried⟩ := h.delivered packet hmem
      exact ⟨hsource, hlength, hcarried.mono (List.subset_append_left ..) (List.Subset.refl _)⟩
    · obtain ⟨hevent, hsource⟩ := htun packet hmem
      exact ⟨haddress ▸ hsource, hpacket packet hevent⟩

theorem Core.handle_other (env : Env) {event : SessionEvent} (hframe : event.isFrame = false)
    (hpacket : ∀ packet, event.packet? = some packet →
      packet.length ≤ setup.handler.limits.maxDataLen ∧
        Carried setup c.frames c.datagrams packet) :
    (c.handle setup env event).Core setup client := by
  have hcore : ({ c with frames := c.frames ++ [], readBuf := c.readBuf }.handle setup env
      event).Core setup client :=
    h.handle env rfl (List.filter_eq_nil_iff.mpr (by simpa using hframe))
      (fun _ hmem => nomatch hmem) (by simpa using hpacket)
  simpa using hcore

theorem Core.arrived {datagram : RoutedDatagram ι} (hdatagram : datagram.keys = c.udpSession)
    {udpSession : Option (Crypto.Session ι)} (hkeys : ∀ session, udpSession = some session →
      ∃ before, c.udpSession = some before ∧
        (before.openPacket setup.boring datagram.bytes ⟨datagram.faults, []⟩).2.1 = session) :
    (c.arrived datagram udpSession).Core setup client := by
  have hmore : c.datagrams ⊆ c.datagrams ++ [datagram] := List.subset_append_left ..
  refine ⟨h.identity, h.bytes, h.events, h.fits, fun session hsession => ?_, fun packet hmem => ?_⟩
  · obtain ⟨before, hbefore, rfl⟩ := hkeys session hsession
    obtain ⟨owned, payload, hmem, hregister, hkeys⟩ := h.keys before hbefore
    refine ⟨owned, payload, hmem, hregister, ?_⟩
    refine .opened ?_ (hdatagram.trans hbefore) (hkeys.mono hmore)
    exact List.mem_append_right _ (List.mem_singleton_self _)
  · obtain ⟨hsource, hlength, hcarried⟩ := h.delivered packet hmem
    exact ⟨hsource, hlength, hcarried.mono (List.Subset.refl _) hmore⟩

theorem Core.atTop : c.atTop.Core setup client :=
  ⟨h.identity, h.bytes, h.events, h.fits, h.keys, h.delivered⟩

theorem Core.afterDatagram (env : Env) (peer : SocketAddr) (bytes : Bytes) (faults : List Bool) :
    (c.afterDatagram setup env peer bytes faults).Core setup client := by
  let datagram : RoutedDatagram ι := ⟨peer, bytes, faults, c.udpSession⟩
  rcases hopen : openUdpPacket setup.boring c.udpSession bytes ⟨faults, []⟩ with
    ⟨outcome, udpSession⟩
  have harrived : (c.arrived datagram udpSession).Core setup client :=
    h.arrived rfl (openUdpPacket_keys hopen).1
  -- Packets that do not open and packets without a registered session end alike.
  have hdropped : ((c.arrived datagram udpSession).handle setup env .udpDropped).atTop.Core setup
      client :=
    Core.atTop (harrived.handle_other env rfl fun _ hpacket => nomatch hpacket)
  cases outcome with
  | dropped =>
    simp only [Connection.afterDatagram, hopen]
    exact hdropped
  | opened packetNumber plain =>
    cases hcurrent : c.run.session.udpSession with
    | none =>
      simp only [Connection.afterDatagram, hopen, hcurrent]
      exact hdropped
    | some current =>
      simp only [Connection.afterDatagram, hopen, hcurrent]
      refine Core.atTop (harrived.handle_other env rfl fun packet hpacket => ?_)
      obtain ⟨frame, hdata⟩ := packet_decodeUdpMessage (packet_udp hpacket)
      obtain ⟨session, opened, hkeys, hopened, rfl⟩ := (openUdpPacket_keys hopen).2 _ _ rfl
      -- The keys that opened the packet were registered on this connection earlier.
      refine ⟨length_of_decodePaddedMessage hdata, .udp
        (List.mem_append_right _ (List.mem_singleton_self _)) hkeys ?_ hopened hdata⟩
      exact (h.keys session hkeys).mono (List.Subset.refl _) (List.subset_append_left ..)

theorem Core.afterPop (env : Env) : (c.afterPop setup env).Core setup client := by
  rcases hpop : popMessageBuf setup.handler.limits c.readBuf with ⟨err | popped, readBuf⟩
  · simp only [Connection.afterPop, hpop]
    exact h.handle_other env rfl fun _ hpacket => nomatch hpacket
  cases popped with
  | none =>
    simp only [Connection.afterPop, hpop]
    exact ⟨h.identity, h.bytes, h.events, h.fits, h.keys, h.delivered⟩
  | some owned =>
    obtain ⟨hbuf, hfits⟩ := popMessageBuf_some hpop
    simp only [Connection.afterPop, hpop]
    refine h.handle env (by simpa using hbuf) (by simp) (by simpa using hfits) ?_
    intro packet hpacket
    have hdata := packet_tcpEvent hpacket
    exact ⟨length_of_dataTooLarge (hdata ▸ hfits),
      .stream (List.mem_append_right _ (List.mem_singleton_self _)) hdata⟩

end

omit [Crypto.SessionIo ι] in
theorem drained_afterDatagram (env : Env) (peer : SocketAddr) (bytes : Bytes)
    (faults : List Bool) : (c.afterDatagram setup env peer bytes faults).Drained setup := by
  unfold Connection.afterDatagram
  split <;> exact drained_atTop _ _

omit [Crypto.SessionIo ι] in
theorem drained_afterPop (hdraining : c.draining = true) (env : Env) :
    (c.afterPop setup env).Drained setup := by
  have hbusy {c : Connection ι} (hdraining : c.draining = true) : c.Drained setup :=
    fun _ hwaiting => absurd (hdraining.symm.trans hwaiting) Bool.noConfusion
  rcases hpop : popMessageBuf setup.handler.limits c.readBuf with ⟨err | popped, readBuf⟩
  · simp only [Connection.afterPop, hpop]
    exact hbusy hdraining
  cases popped with
  | none =>
    obtain rfl := popMessageBuf_other hpop nofun
    simp only [Connection.afterPop, hpop]
    exact fun _ _ _ => hpop
  | some owned =>
    simp only [Connection.afterPop, hpop]
    exact hbusy hdraining

theorem Core.afterClose (h : c.Core setup client) (env : Env) (outcome : RunOutcome) :
    { c with run := c.run.afterClose env outcome }.Core setup client := by
  let O : ServerEffect → Prop
    | .toTun _ => False
    | _ => True
  have hO : RoutineEffects O :=
    ⟨fun _ => trivial, fun _ _ => trivial, fun _ => trivial, fun _ => trivial, fun _ => trivial,
      fun _ => trivial⟩
  have hemits : Keeps (·.identity = c.run.session.identity) (.all O) c.run.session
      (closeSession env outcome) :=
    keeps_closeSession (hO.keeps (stable_identity _) env) (fun _ _ _ _ _ => trivial) rfl outcome
  refine ⟨hemits.1.trans h.identity, h.bytes, h.events, h.fits, h.keys, fun packet hmem => ?_⟩
  rcases List.mem_append.mp hmem with hmem | hmem
  · exact h.delivered packet hmem
  · exact (hemits.2 _ hmem).elim

end Steps

end Connection

/-- The last frame of the authentication phase is the AUTH of the client whose
session has taken the connection over. -/
structure Connection.Inv (setup : ServerSetup ι) (c : Connection ι) (client : ClientEntry)
    (auth : OwnedMessageBuf) (payload : AuthPayload) : Prop where
  last : c.authFrames.getLast? = some auth
  verifies : setup.handler.Verifies auth.message client payload
  core : c.Core setup client
  drained : c.Drained setup

theorem served_inv {setup : ServerSetup ι} {c : Connection ι} (hc : Served setup c) :
    ∃ client auth payload, c.Inv setup client auth payload := by
  induction hc with
  | @accepted a clientId assignedIp registry tx allowedCiphers ha hcreated =>
    have hinv := AuthPhase.reachable_inv ha
    obtain ⟨-, auth, client, payload, hlast, hverifies, rfl, rfl⟩ := hinv.created _ _ hcreated
    refine ⟨client, auth, payload, hlast, hverifies, ?_, Connection.drained_atTop _ _⟩
    refine ⟨rfl, ?_, rfl, (fun _ hmem => nomatch hmem), (fun _ hkeys => nomatch hkeys),
      fun _ hmem => nomatch hmem⟩
    show a.stream = (a.frames ++ []).flatMap OwnedMessageBuf.buf ++ a.readBuf
    rw [List.append_nil, hinv.bytes]
  | foreign call _ _ ih =>
    obtain ⟨client, auth, payload, hlast, hverifies, h, hdrained⟩ := ih
    exact ⟨client, auth, payload, hlast, hverifies,
      ⟨h.identity, h.bytes, h.events, h.fits, h.keys, h.delivered⟩, hdrained⟩
  -- Only `read` extends the stream; `pop` moves bytes from the buffer to the frames.
  | @read c chunk _ _ _ _ _ ih =>
    obtain ⟨client, auth, payload, hlast, hverifies, h, -⟩ := ih
    refine ⟨client, auth, payload, hlast, hverifies,
      ⟨h.identity, ?_, h.events, h.fits, h.keys, h.delivered⟩, fun _ hwaiting => nomatch hwaiting⟩
    show c.stream ++ chunk = (c.authFrames ++ c.frames).flatMap (·.buf) ++ (c.readBuf ++ chunk)
    rw [h.bytes, List.append_assoc]
  | @pop c env _ _ hdraining _ ih =>
    obtain ⟨client, auth, payload, hlast, hverifies, h, -⟩ := ih
    exact ⟨client, auth, payload, (c.authFrames_afterPop setup env).symm ▸ hlast, hverifies,
      h.afterPop env, Connection.drained_afterPop hdraining env⟩
  | @datagram c env peer bytes faults _ _ _ _ ih =>
    obtain ⟨client, auth, payload, hlast, hverifies, h, -⟩ := ih
    exact ⟨client, auth, payload,
      (c.authFrames_afterDatagram setup env peer bytes faults).symm ▸ hlast, hverifies,
      h.afterDatagram env peer bytes faults,
      Connection.drained_afterDatagram env peer bytes faults⟩
  | @work c env event _ _ _ hlocal _ _ ih =>
    obtain ⟨client, auth, payload, hlast, hverifies, h, -⟩ := ih
    refine ⟨client, auth, payload, hlast, hverifies, Connection.Core.atTop ?_,
      Connection.drained_atTop _ _⟩
    refine h.handle_other env ?_ fun packet hpacket => ?_
    -- Local work has neither a TCP frame nor a datagram behind it.
    · cases event <;> first | rfl | cases hlocal
    · cases event <;> first | cases hpacket | cases hlocal
  | @send c bytes faults _ ih =>
    obtain ⟨client, auth, payload, hlast, hverifies, h, hdrained⟩ := ih
    refine ⟨client, auth, payload, hlast, hverifies,
      ⟨h.identity, h.bytes, h.events, h.fits, fun session hsession => ?_, h.delivered⟩, hdrained⟩
    obtain ⟨before, hbefore, rfl⟩ := Option.map_eq_some_iff.mp hsession
    obtain ⟨owned, register, hmem, hregister, hkeys⟩ := h.keys before hbefore
    exact ⟨owned, register, hmem, hregister, hkeys.send bytes faults⟩
  | close env outcome _ _ ih =>
    obtain ⟨client, auth, payload, hlast, hverifies, h, -⟩ := ih
    exact ⟨client, auth, payload, hlast, hverifies, h.afterClose env outcome,
      fun hrunning => nomatch hrunning⟩

/-- Only authenticated packets that are not spoofed reach the tunnel. Whatever a
peer sends on a connection and whatever datagrams arrive, a session has the
connection only if its last frame before was an AUTH that named an enabled client
of the configuration with its address and the server's MTU, carried the challenge
of this connection and verified under the client's key. What the session hands to
the tunnel is an IPv4 packet within the limits with the client's address as its
source, and was the payload of a DATA message, of the stream or of a datagram that
arrived and opened under the session's keys, which were registered on the stream.
All that was read is, in order, in the frames of the two phases and in the buffer;
the session has handled each of its frames once, in order; and whenever it waits,
no whole frame is left. -/
theorem only_authenticated_packets_reach_tun {setup : ServerSetup ι} {c : Connection ι}
    (hc : Served setup c) :
    ∃ client auth payload, c.authFrames.getLast? = some auth ∧
      setup.handler.Verifies auth.message client payload ∧
      c.run.session.clientId = client.clientId ∧
      c.run.session.assignedIpv4 = client.assignedIpv4 ∧
      (∀ packet : Bytes, .toTun packet ∈ c.run.log →
        20 ≤ packet.length ∧ packet.length ≤ setup.handler.limits.maxDataLen ∧
        packet.headD 0 >>> 4 = 4 ∧ (packet.drop 12).take 4 = client.assignedIpv4.val ∧
        Carried setup c.frames c.datagrams packet) ∧
      c.stream = (c.authFrames ++ c.frames).flatMap (·.buf) ++ c.readBuf ∧
      c.run.handled.filter (·.isFrame) = c.frames.map (tcpEvent ·.message) ∧
      (c.run.phase = .running → c.draining = false → c.run.session.tcpAlive = true →
        popMessageBuf setup.handler.limits c.readBuf = (.ok none, c.readBuf)) := by
  obtain ⟨client, auth, payload, hlast, hverifies, h, hdrained⟩ := served_inv hc
  refine ⟨client, auth, payload, hlast, hverifies, congrArg Prod.fst h.identity,
    congrArg Prod.snd h.identity, fun packet hmem => ?_, h.bytes, h.events, hdrained⟩
  obtain ⟨hsource, hlength, hcarried⟩ := h.delivered packet hmem
  obtain ⟨hlong, hversion, haddress⟩ := extractSrcAddr_some hsource
  exact ⟨hlong, hlength, hversion, haddress, hcarried⟩

/-- A server with one client, for which every signature verifies. -/
def openHandler : AuthHandler where
  ed25519 := ⟨fun _ => true, fun _ _ _ => true⟩
  authenticator := ⟨[⟨reconnecting, true, FixedBytes.replicate 32 0⟩], 1400⟩
  limits := ⟨2000, 1400⟩
  challenge := FixedBytes.replicate 32 7

def openSetup : ServerSetup Crypto.NullIo := ⟨openHandler, Crypto.counterBoring, ⟨⟩⟩

def authBytes : Bytes :=
  reconnecting.clientId.val ++ reconnecting.assignedIpv4.val ++ [5, 120] ++
    List.replicate 32 7 ++ List.replicate 64 0

def someIpv4Packet : Bytes :=
  0x45 :: List.replicate 11 0 ++ reconnecting.assignedIpv4.val ++ List.replicate 4 0

/-- The AUTH and the first packet arrive in one read. -/
def authenticatedPhase : AuthPhase :=
  (AuthPhase.initial.afterRead
    (.bytes ((Frame.mk .auth authBytes).bytes ++ (Frame.mk .data someIpv4Packet).bytes))).afterPop
    openHandler ⟨fun _ => .done, none⟩

def handedOver : Connection Crypto.NullIo :=
  .accept authenticatedPhase ServerRun.connected.session

def firstDelivery : Connection Crypto.NullIo := handedOver.afterPop openSetup .quiet

/-- A packet that arrives with the AUTH is delivered by the session. -/
theorem only_authenticated_packets_reach_tun_first :
    .toTun someIpv4Packet ∈ firstDelivery.run.log ∧
      Carried openSetup firstDelivery.frames firstDelivery.datagrams someIpv4Packet := by
  have hauth : AuthPhase.Reachable openHandler authenticatedPhase :=
    .pop _ (.read _ .initial rfl) rfl
  have hcreated : .created reconnecting.clientId reconnecting.assignedIpv4 ∈
      authenticatedPhase.log := by decide +kernel
  have htaken : Served openSetup handedOver := .accepted .new 0 [.aes128Gcm] hauth hcreated
  have hdraining : handedOver.draining = true := by decide +kernel
  have hserved : Served openSetup firstDelivery :=
    .pop .quiet htaken rfl hdraining fun _ hcall => nomatch hcall
  have hmem : .toTun someIpv4Packet ∈ firstDelivery.run.log := by decide +kernel
  obtain ⟨_, _, _, -, -, -, -, hdelivered, -⟩ := only_authenticated_packets_reach_tun hserved
  exact ⟨hmem, (hdelivered _ hmem).2.2.2.2⟩

/-! ## The session of a connection -/

theorem alive_tcpEvent {s : ServerSession} (halive : s.tcpAlive = true) (env : Env)
    (frame : Frame) :
    Keeps (·.tcpAlive = true) (.all fun _ => True) s (handleEvent env (tcpEvent frame)) := by
  have hstable : Stable (·.tcpAlive = true) := by
    constructor <;> intros <;> assumption
  have hT := routine_any hstable env
  unfold tcpEvent
  split
  · exact keeps_handleTcpMessage hT halive (fun _ _ _ _ _ => trivial) fun _ _ => ⟨trivial, id⟩
  · exact keeps_handleMalformedMessage hT halive _ _

theorem polls_tcpEvent {s : ServerSession} (halive : s.tcpAlive = true) (frame : Frame) :
    s.polls (tcpEvent frame) = true := by
  unfold tcpEvent
  split <;> exact halive

/-- What opened under the keys opens under the parameters they were made from. -/
theorem polls_opened {s : ServerSession} {current : UdpSession} (hs : s.udpSession = some current)
    (peer : SocketAddr) (packetNumber : Nat) (payload : UdpPayload) :
    s.polls (.udp ⟨peer, packetNumber, current.params.ofServer.clientSession, payload⟩) = true := by
  have hopens : current.params.Opens current.params.ofServer.clientSession := ⟨rfl, rfl, rfl⟩
  simp only [ServerSession.polls, hs, Option.any_some, hopens, decide_true]

/-- The session was made for the client whose AUTH is the last of these frames. -/
def ServerSetup.Starts (setup : ServerSetup ι) (authFrames : List OwnedMessageBuf)
    (start : ServerSession) : Prop :=
  ∃ (client : ClientEntry) (auth : OwnedMessageBuf) (payload : AuthPayload)
    (registry : SessionRegistry) (tx : SessionTx) (allowedCiphers : List CipherSuite),
      authFrames.getLast? = some auth ∧ setup.handler.Verifies auth.message client payload ∧
      start = .new (registry.registerSession client.clientId client.assignedIpv4 tx).1
        allowedCiphers setup.handler.limits.maxDataLen
        (registry.registerSession client.clientId client.assignedIpv4 tx).2

/-- The session of a connection is a run of the session model. While it takes
frames from its buffer, the stream is there. -/
theorem served_reachable {setup : ServerSetup ι} {c : Connection ι} (hc : Served setup c) :
    ∃ start : ServerSession, setup.Starts c.authFrames start ∧ ServerRun.Reachable start c.run ∧
      (c.run.phase = .running → c.draining = true → c.run.session.tcpAlive = true) := by
  -- At the top of the loop the guard has just been read from the session.
  have htop {c : Connection ι} : c.atTop.run.phase = .running → c.atTop.draining = true →
      c.atTop.run.session.tcpAlive = true :=
    fun _ hdraining => ((Bool.and_eq_true _ _).mp hdraining).1
  induction hc with
  | accepted registry tx allowedCiphers ha hcreated =>
    obtain ⟨-, auth, client, payload, hlast, hverifies, rfl, rfl⟩ :=
      (AuthPhase.reachable_inv ha).created _ _ hcreated
    exact ⟨_, ⟨client, auth, payload, registry, tx, allowedCiphers, hlast, hverifies, rfl⟩,
      .initial, htop⟩
  | foreign call _ hforeign ih =>
    obtain ⟨start, hstart, hreach, halive⟩ := ih
    exact ⟨start, hstart, .foreign call hreach hforeign, halive⟩
  | read chunk _ _ _ halive _ ih =>
    obtain ⟨start, hstart, hreach, -⟩ := ih
    exact ⟨start, hstart, hreach, fun _ _ => halive⟩
  | @pop c env _ hrunning hdraining hforeign ih =>
    obtain ⟨start, hstart, hreach, halive⟩ := ih
    have halive := halive hrunning hdraining
    refine ⟨start, (c.authFrames_afterPop setup env).symm ▸ hstart, ?_⟩
    rcases hpop : popMessageBuf setup.handler.limits c.readBuf with ⟨err | popped, readBuf⟩
    -- A broken frame ends the session, so nothing is claimed about draining.
    · simp only [Connection.afterPop, hpop]
      exact ⟨.event env (.tcpUnframed err) hreach hrunning halive hforeign,
        fun hafter => nomatch hafter⟩
    cases popped with
    | none =>
      simp only [Connection.afterPop, hpop]
      exact ⟨hreach, fun _ hwaiting => nomatch hwaiting⟩
    | some owned =>
      simp only [Connection.afterPop, hpop]
      refine ⟨.event env _ hreach hrunning (polls_tcpEvent halive _) hforeign, fun _ _ => ?_⟩
      exact (alive_tcpEvent halive env owned.message).1
  | @datagram c env peer bytes faults _ hrunning _ hforeign ih =>
    obtain ⟨start, hstart, hreach, -⟩ := ih
    refine ⟨start, (c.authFrames_afterDatagram setup env peer bytes faults).symm ▸ hstart, ?_⟩
    unfold Connection.afterDatagram
    split
    · rename_i hcurrent
      exact ⟨.event env _ hreach hrunning (polls_opened hcurrent _ _ _) hforeign, htop⟩
    · exact ⟨.event env .udpDropped hreach hrunning rfl hforeign, htop⟩
  | work env event _ hrunning _ _ hpolls hforeign ih =>
    obtain ⟨start, hstart, hreach, -⟩ := ih
    exact ⟨start, hstart, .event env event hreach hrunning hpolls hforeign, htop⟩
  | send _ _ _ ih => exact ih
  | close env outcome _ hended ih =>
    obtain ⟨start, hstart, hreach, -⟩ := ih
    exact ⟨start, hstart, .close env outcome hreach hended, fun hrunning => nomatch hrunning⟩

theorem served_reachable_handedOver : ∃ start, openSetup.Starts handedOver.authFrames start ∧
    ServerRun.Reachable start handedOver.run ∧ handedOver.run.session.tcpAlive = true := by
  have hauth : AuthPhase.Reachable openHandler authenticatedPhase :=
    .pop _ (.read _ .initial rfl) rfl
  have hcreated : .created reconnecting.clientId reconnecting.assignedIpv4 ∈
      authenticatedPhase.log := by decide +kernel
  have htaken : Served openSetup handedOver := .accepted .new 0 [.aes128Gcm] hauth hcreated
  obtain ⟨start, hstart, hreach, halive⟩ := served_reachable htaken
  exact ⟨start, hstart, hreach, halive rfl (by decide +kernel)⟩

end Slt.Server
