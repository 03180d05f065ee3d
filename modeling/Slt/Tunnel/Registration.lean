import Slt.Tunnel.Agreement
import Slt.Upgrade.Keys

/-!
# Registrations between the two sessions

What the order on the streams gives the two sessions about registrations,
though a reply does not say which of them it answers. The server is not asked
to register while it prefers UDP. The keys of the two sides agree once the
server has taken what the client works with. A client is told when its
registration is gone, unless the server fails to send an echo; and a reply is
never a violation as long as no registration is written while one for another
connection id is on its way.
-/

namespace Slt.Tunnel

open Lib Lib.Handler Proto

/-! ## Registering while UDP is preferred -/

section Refusal

variable {env : Server.Env} {s : Server.ServerSession}

/-- The outcome is not a violation of the protocol. -/
abbrev Unviolated {α : Type} (r : Except (Stop Server.SessionError) α) (_ : Server.ServerSession)
    (_ : List Server.ServerEffect) : Prop :=
  r ≠ .error (.error .protocolViolation)

theorem unviolated_sendTcpMessage (message : Message) :
    Triple (Server.sendTcpMessage env message) s Unviolated := by
  refine (triple_get_bind _).mpr ?_
  split
  · exact nofun
  refine (triple_modify_bind _ _).mpr ?_
  unfold Server.writeFrame
  split <;> exact nofun

theorem unviolated_answer (message : Message) (control : Server.SessionControl) :
    Triple (Server.sendTcpMessage env message >>= fun _ => pure control) s Unviolated :=
  Triple.bind (unviolated_sendTcpMessage message) (fun _ _ _ _ => nofun)
    fun _ _ _ h heq => h (by cases heq; rfl)

theorem completes_installUdpSession (register : RegisterCidPayload) :
    Abstraction.Completes s (Server.installUdpSession register) := ⟨(), rfl⟩

theorem unviolated_handleRegisterCid (decoded : Except PayloadError RegisterCidPayload) :
    Triple (Server.handleRegisterCid env decoded) s Unviolated := by
  unfold Server.handleRegisterCid
  split
  · exact unviolated_answer _ _
  refine (triple_get_bind _).mpr ?_
  split
  · exact unviolated_answer _ _
  refine (triple_modify_bind _ _).mpr ?_
  split
  · exact nofun
  · exact Triple.bind (completes_installUdpSession _) (fun _ _ _ _ => unviolated_answer _ _)
      fun e s' out ⟨a, ha⟩ => nomatch ha

end Refusal

/-- Whatever the timers, the sockets and the network do: a server that has a
REGISTER_CID of the client to read prefers TCP, and does not take it for a
violation of the protocol. -/
theorem register_cid_never_rejected {setup : Setup} {w : World}
    (h : Reachable (fun _ _ => True) setup w) {payload : RegisterCidPayload}
    (hhead : w.c2s.head? = some (.registerCid payload)) :
    w.server.session.activeTransport = .tcp ∧
      ∀ env, ((Server.handleEvent env (.tcpMessage (.registerCid payload))).run
        w.server.session).1 ≠ .error (.error .protocolViolation) := by
  obtain ⟨rest, hrest⟩ : ∃ rest, w.c2s = .registerCid payload :: rest := by
    cases hc : w.c2s with
    | nil => simp [hc] at hhead
    | cons message rest =>
      rw [hc, List.head?_cons, Option.some.injEq] at hhead
      exact ⟨rest, by rw [hhead]⟩
  have hview : w.view.c2s = .register payload :: rest.filterMap Message.toServer := by
    rw [World.view, hrest]
    rfl
  have htcp : w.server.session.activeTransport = .tcp := by
    have hfalse : w.server.session.activeTransport.isUdp = false :=
      h.protocol.not_udp_of_register hview
    cases hactive : w.server.session.activeTransport with
    | tcp => rfl
    | udpQsp =>
      rw [hactive] at hfalse
      cases hfalse
  refine ⟨htcp, fun env => ?_⟩
  have hdispatch : Server.handleEvent env (.tcpMessage (.registerCid payload)) =
      Server.handleRegisterMessage env (.ok payload) := Server.validateMessage_bind rfl _
  rw [hdispatch]
  show Triple _ _ Unviolated
  refine (triple_get_bind _).mpr ?_
  rw [htcp]
  exact unviolated_handleRegisterCid _

def secondDraw : Client.Env :=
  { Client.Env.quiet with
    registration := { Client.RegistrationDraw.zero with pnStartC2s := 1 }
    upgradeId := 6 }

def secondPayload : RegisterCidPayload := usualPayload usualIds secondDraw.registration

/-- Both sides have switched to UDP; the client gives the path up and registers
again. -/
def returningMoves : List Move :=
  switchingMoves ++
    [.client .quiet .udpLivenessTimeout, .client .quiet .udpReconnectTick,
      .client .quiet (.discoveryResult (some usualIds)), .client secondDraw .udpReconnectTick,
      .server .quiet (.tcpMessage (.fallbackToTcp 1))]

theorem tcpOpen_returningMoves : ∀ move ∈ returningMoves, move.TcpOpen := by
  simp [returningMoves, switchingMoves, acceptingMoves, registeringMoves, Move.TcpOpen,
    Client.Env.TcpOpen, Server.Env.TcpOpen, Client.Env.quiet, Server.Env.quiet, secondDraw]

/-- A server that preferred UDP before the fallback reads the second
registration. -/
theorem register_cid_never_rejected_second :
    (worldAfter switchingMoves).server.session.activeTransport = .udpQsp ∧
      (worldAfter returningMoves).c2s.head? = some (.registerCid secondPayload) ∧
      (worldAfter returningMoves).server.session.activeTransport = .tcp := by
  have hreachable : Reachable (fun _ _ => True) Setup.usual (worldAfter returningMoves) :=
    .moves .initial (by decide +kernel) tcpOpen_returningMoves (.of_forall fun _ _ _ => trivial)
  have hhead : (worldAfter returningMoves).c2s.head? = some (.registerCid secondPayload) := by
    decide +kernel
  exact ⟨by decide +kernel, hhead, (register_cid_never_rejected hreachable hhead).1⟩

/-! ## Keys -/

def Event.registration : Event → Option RegisterCidPayload
  | .clientDid (.tcp (.registerCid payload)) => some payload
  | _ => none

/-- The payloads that the client wrote to the stream, in order. -/
def World.registrations (w : World) : List RegisterCidPayload :=
  w.log.filterMap Event.registration

theorem World.registered_view (w : World) : w.view.registered = w.registrations := by
  rw [Upgrade.State.registered, Upgrade.State.sent, World.view, World.registrations,
    List.filterMap_filterMap, List.filterMap_filterMap]
  congr 1
  funext event
  cases event with
  | clientDid effect =>
    cases effect with
    | tcp message => cases message <;> rfl
    | udp transport message => cases message <;> rfl
    | observe kind => cases kind <;> rfl
    | _ => rfl
  | serverDid effect => cases h : effect.action <;> simp [Event.view, Event.registration, h,
      Upgrade.Event.clientWrote]
  | _ => rfl

def NotRetired (event : Event) : Prop := ∀ session, event ≠ .serverDid (.retired session)

def Event.retires : Event → Bool
  | .serverDid (.retired _) => true
  | _ => false

theorem since_installed {w : World} {payload : RegisterCidPayload}
    (h : Since NotRetired (.serverDid (.registered payload)) w.log) :
    Since Upgrade.NotRetired (.serverDid (.install payload)) w.view.log := by
  refine h.filterMap rfl ?_
  rintro event _ hkept hview r rfl
  obtain ⟨effect, rfl, haction⟩ := of_serverDid hview
  obtain rfl : effect = _ := Server.causes_of_action haction
  exact hkept _ rfl

/-- A client with an active UDP path has made it from the last payload that it
wrote. A server that has taken this payload, and has not retired its UDP session
since, has the other end of it. -/
theorem registration_keys_agree {setup : Setup} {w : World}
    (h : Reachable (fun _ _ => True) setup w) {transport : QspSessionParams}
    (hactive : w.client.session.udpState = .active transport) :
    ∃ payload, w.registrations.getLast? = some payload ∧ transport = payload.clientSession ∧
      (Since NotRetired (.serverDid (.registered payload)) w.log →
        ∃ session, w.server.session.udpSession = some session ∧
          transport.Matches session.params) := by
  have hcurrent : w.view.client.registration.current = some transport.ofClient := by
    rw [World.view, Client.ClientSession.view, hactive]
    rfl
  have hlast := h.protocol.inv.registrations.current _ hcurrent
  refine ⟨transport.ofClient, ?_, (transport.clientSession_ofClient).symm, fun hsince => ?_⟩
  · rw [← w.registered_view]
    exact hlast
  have hsession : w.server.session.udpSession.map (·.params.ofServer) = some transport.ofClient :=
    h.protocol.kept _ hlast (since_installed hsince)
  obtain ⟨session, hsession, hparams⟩ := Option.map_eq_some_iff.mp hsession
  refine ⟨session, hsession, ?_⟩
  have hmatch := QspSessionParams.matches_of_registration transport.ofClient
  rwa [transport.clientSession_ofClient, ← hparams, QspSessionParams.serverSession_ofServer]
    at hmatch

/-- The keys of a run that has registered. -/
theorem registration_keys_agree_first :
    ∃ session, (worldAfter registeringMoves).server.session.udpSession = some session ∧
      firstPayload.clientSession.Matches session.params := by
  have hreachable : Reachable (fun _ _ => True) Setup.usual (worldAfter registeringMoves) := by
    refine Reachable.moves .initial (by decide +kernel) ?_ (.of_forall fun _ _ _ => trivial)
    simp [registeringMoves, Move.TcpOpen, Client.Env.TcpOpen, Server.Env.TcpOpen,
      Client.Env.quiet, Server.Env.quiet]
  have hactive : (worldAfter registeringMoves).client.session.udpState =
      .active firstPayload.clientSession := by decide +kernel
  have hregistrations : (worldAfter registeringMoves).registrations = [firstPayload] := by
    decide +kernel
  have hlog : (worldAfter registeringMoves).log =
      (worldAfter registeringMoves).log.take 7 ++ .serverDid (.registered firstPayload) ::
        (worldAfter registeringMoves).log.drop 8 := by decide +kernel
  have hafter : ∀ event ∈ (worldAfter registeringMoves).log.drop 8, NotRetired event := by
    have hnone : ∀ event ∈ (worldAfter registeringMoves).log.drop 8, event.retires = false := by
      decide +kernel
    rintro _ hmem session rfl
    cases hnone _ hmem
  obtain ⟨payload, hlast, -, hkept⟩ := registration_keys_agree hreachable hactive
  rw [hregistrations] at hlast
  cases hlast
  exact hkept ⟨_, _, hlog, hafter⟩

/-! ## Orphaned registrations -/

/-- As long as echoes can be sent: when the server no longer has the UDP session
of a registration that it took, while the client's path is active with it, a
FALLBACK_TO_TCP is on its way to the client. -/
theorem no_orphaned_registration {setup : Setup} {w : World}
    (h : Reachable (fun _ move => move.EchoesSent) setup w) {payload : RegisterCidPayload}
    (hinstalled : .serverDid (.registered payload) ∈ w.log)
    (hgone : w.server.session.udpSession.map (·.params) ≠ some payload.serverSession)
    (hactive : w.client.session.udpState = .active payload.clientSession) :
    ∃ fallbackId, .fallbackToTcp fallbackId ∈ w.s2c := by
  have hinstall : .serverDid (.install payload) ∈ w.view.log :=
    mem_serverDid.mpr ⟨_, rfl, hinstalled⟩
  have hcurrent : w.view.client.registration.current = some payload := by
    rw [World.view, Client.ClientSession.view, hactive]
    rfl
  have hsession : w.view.server.session ≠ some payload := by
    intro heq
    obtain ⟨session, hsession, hparams⟩ := Option.map_eq_some_iff.mp heq
    refine hgone ?_
    rw [hsession, Option.map_some, ← hparams, QspSessionParams.serverSession_ofServer]
  obtain ⟨fallbackId, hf⟩ := h.protocol.told h.loud payload hinstall hsession hcurrent
  exact ⟨fallbackId, (mem_s2c (m := .fallback fallbackId) (by simp) rfl).mp hf⟩

/-- The socket of the server fails when it sends the message. -/
def failingOn (message : Message) : Server.Env :=
  { Server.Env.quiet with
    udpFlush := fun sent =>
      if sent = some message then .failed ⟨.other 101, "Network is unreachable"⟩ else .done }

/-- Both sides switch to UDP, and the first ping of the server fails. -/
def tellingMoves : List Move := switchingMoves ++ [.server (failingOn (.ping 2)) .pingTimer]

/-- A failed ping retires the UDP session, and the client is told. -/
theorem no_orphaned_registration_ping :
    (worldAfter tellingMoves).server.session.udpSession.isNone ∧
      ∃ fallbackId, .fallbackToTcp fallbackId ∈ (worldAfter tellingMoves).s2c := by
  have hsent : (failingOn (.ping 2)).EchoesSent :=
    ⟨fun _ _ => rfl, fun _ _ _ h => (by cases h), fun _ _ _ h => (by cases h),
      fun _ _ _ => by simp [failingOn]⟩
  have hreachable : Reachable (fun _ move => move.EchoesSent) Setup.usual
      (worldAfter tellingMoves) := by
    refine Reachable.moves .initial (by decide +kernel) ?_ (.of_forall fun _ => ?_)
    · simp [tellingMoves, switchingMoves, acceptingMoves, registeringMoves, Move.TcpOpen,
        Client.Env.TcpOpen, Server.Env.TcpOpen, Client.Env.quiet, Server.Env.quiet, failingOn]
    · simp [tellingMoves, switchingMoves, acceptingMoves, registeringMoves, Move.EchoesSent,
        echoesSent_quiet, hsent]
  have hgone : (worldAfter tellingMoves).server.session.udpSession.map (·.params) = none := by
    decide +kernel
  refine ⟨by simpa using hgone, @no_orphaned_registration _ _ hreachable firstPayload ?_ ?_ ?_⟩
  · decide +kernel
  · rw [hgone]
    simp
  · decide +kernel

def orphaningMoves : List Move :=
  registeringMoves ++
    [.client .quiet .udpUpgradeTick,
      .server (failingOn (.upgradeProbeAck 2 3)) (.udp probeClaim)]

/-- The server retires the UDP session of the registration and says nothing; the
client's path stays active with it. -/
theorem orphaned_registration :
    Reachable (fun _ _ => True) Setup.usual (worldAfter orphaningMoves) ∧
      .serverDid (.retired (some firstPayload.serverSession)) ∈ (worldAfter orphaningMoves).log ∧
      (worldAfter orphaningMoves).server.session.udpSession.isNone ∧
      ((worldAfter orphaningMoves).server.session.registry.cidRoutes
        (.replicate _ 1)).isNone ∧
      (worldAfter orphaningMoves).client.session.udpState = .active firstPayload.clientSession ∧
      (worldAfter orphaningMoves).s2c = [] := by
  refine ⟨?_, by decide +kernel, by decide +kernel, by decide +kernel, by decide +kernel,
    by decide +kernel⟩
  refine Reachable.moves .initial (by decide +kernel) ?_ (.of_forall fun _ _ _ => trivial)
  simp [orphaningMoves, registeringMoves, Move.TcpOpen, Client.Env.TcpOpen,
    Server.Env.TcpOpen, Client.Env.quiet, Server.Env.quiet, failingOn]

/-! ## Replies to registrations -/

def World.clientEffects (w : World) : Move → List Client.ClientEffect
  | .client env event => w.clientOut env event
  | .clientClose env =>
    match w.client.phase with
    | .ended outcome => w.clientCloseOut env outcome.exit
    | _ => []
  | _ => []

/-- Registrations and replies on their way are about the connection id that the
client registers with, whenever it writes a registration. -/
def RegistersInTurn (w : World) (move : Move) : Prop :=
  ∀ payload, .tcp (.registerCid payload) ∈ w.clientEffects move →
    (∀ earlier, .registerCid earlier ∈ w.c2s →
        earlier.clientToServerCid = payload.clientToServerCid) ∧
      ∀ cid, .registerOk cid ∈ w.s2c → cid = payload.clientToServerCid

theorem registerCid_of_register {out : List Client.ClientEffect} {payload : RegisterCidPayload}
    (h : .write (.register payload) ∈ Client.party.actions out) :
    .tcp (.registerCid payload) ∈ out := by
  obtain ⟨effect, heffect, haction⟩ := List.mem_filterMap.mp h
  obtain ⟨message, rfl, hmessage⟩ := Client.causes_of_action haction
  obtain rfl : message = .registerCid payload := Message.toServer_inj hmessage rfl
  exact heffect

theorem World.Sound.written {w : World} (h : w.Sound) {move : Move} (hadmits : w.Admits move)
    (hopen : move.TcpOpen) {payload : RegisterCidPayload}
    (hflight : (w.after move).view.client.registration = .inFlight payload)
    (hnone : w.view.client.registration = .none) :
    .tcp (.registerCid payload) ∈ w.clientEffects move := by
  have hstay (hsame : (w.after move).client = w.client) : False := by
    have hcopy : (w.after move).view.client.registration = w.view.client.registration := by
      rw [World.view, World.view, hsame]
    rw [hcopy, hnone] at hflight
    cases hflight
  cases move with
  | client env event =>
    obtain ⟨-, hpolls, hoffers, -⟩ := hadmits
    rcases (h.steps_client hopen hpolls hoffers).2.to_inFlight hflight with hold | hwritten
    · cases hnone.symm.trans hold
    · exact registerCid_of_register hwritten
  | clientClose env =>
    cases hphase : w.client.phase with
    | ended outcome =>
      simp only [World.after, hphase] at hflight
      simp only [World.clientEffects, hphase]
      have hsteps := Client.steps_closeSession hopen h.clientLinked outcome.exit
      rcases hsteps.2.to_inFlight hflight with hold | hwritten
      · cases hnone.symm.trans hold
      · exact registerCid_of_register hwritten
    | _ => simp [World.Admits, hphase] at hadmits
  | server env event => exact (hstay rfl).elim
  | serverClose env =>
    refine (hstay ?_).elim
    simp only [World.after]
    split <;> rfl
  | registry call => exact (hstay rfl).elim

theorem Reachable.answers {setup : Setup} {w : World} (h : Reachable RegistersInTurn setup w) :
    Upgrade.Answers RegisterCidPayload.clientToServerCid w.view := by
  induction h with
  | initial =>
    rw [setup.view_initial]
    exact .initial
  | @move w move hreach hadmits hopen hturn ih =>
    rcases (hreach.sound.move hadmits hopen).step with hsame | hstep
    · rw [hsame]
      exact ih
    · refine ih.step hstep fun payload hflight hnone => ?_
      obtain ⟨hregister, hreply⟩ :=
        hturn payload (hreach.sound.written hadmits hopen hflight hnone)
      refine ⟨fun earlier hearlier => hregister earlier ((mem_c2s rfl).mp hearlier), ?_⟩
      intro cid hcid
      exact hreply cid ((mem_s2c (m := .registerOk cid) nofun rfl).mp hcid)

section Replies

variable {env : Client.Env} {s : Client.ClientSession}

/-- The handler has a result, and does not end the session for a violation. -/
def Accepts (s : Client.ClientSession) (m : Client.ClientM Client.SessionControl) : Prop :=
  Triple m s fun r _ _ => ∃ control, r = .ok control ∧ control ≠ .close .protocolError

theorem completes_startUdpUpgradeAttempt : Abstraction.Completes s (Client.startUdpUpgradeAttempt env) := by
  refine (triple_get_bind _).mpr ?_
  dsimp only
  split <;> exact ⟨(), rfl⟩

theorem accepts_handleRegisterFail (code : RegisterFailCode) :
    Accepts s (Client.handleRegisterFail env code) := by
  refine (triple_get_bind _).mpr ?_
  split
  · split
    · exact ⟨_, rfl, nofun⟩
    · split
      · exact ⟨_, rfl, nofun⟩
      · exact ⟨_, rfl, nofun⟩
  · exact ⟨_, rfl, nofun⟩

/-- The reply is about the connection id of the registration on its way. -/
theorem accepts_handleRegisterOk (hs : s.Linked) {cid : Cid}
    (hcid : ∀ ids registration, s.udpState = .pending ids (some registration) →
      cid = registration.prepared.payload.clientToServerCid) :
    Accepts s (Client.handleRegisterOk env cid) := by
  refine (triple_get_bind _).mpr ?_
  split
  · rename_i ids registration hstate
    obtain ⟨hsession, hdcid⟩ := hs.prepared ids registration hstate
    rw [if_neg (by simpa [hdcid] using hcid ids registration hstate), hsession]
    refine (triple_modify_bind _ _).mpr ((triple_emit_bind _ _).mpr ?_)
    refine Triple.bind completes_startUdpUpgradeAttempt (fun _ _ _ _ => ⟨_, rfl, nofun⟩) ?_
    rintro e s' out ⟨a, ha⟩
    cases ha
  · exact ⟨_, rfl, nofun⟩

end Replies

/-- As long as no registration is written while one, or a reply to one, for
another connection id is on its way: the client ignores or applies every reply
of the server, and never ends its session for a violation because of one. -/
theorem register_reply_accepted {setup : Setup} {w : World}
    (h : Reachable RegistersInTurn setup w) {env : Client.Env} {message : Message}
    (hreply : (∃ cid, message = .registerOk cid) ∨ ∃ code, message = .registerFail code)
    (hadmits : w.Admits (.client env (.tcpMessage message))) :
    ∃ control, ((Client.handleEvent env (.tcpMessage message)).run w.client.session).1 =
      .ok control ∧ control ≠ .close .protocolError := by
  obtain ⟨-, hpolls, hoffers, -⟩ := hadmits
  have hloop : w.client.session.refresh = none := by
    cases hrefresh : w.client.session.refresh with
    | none => rfl
    | some refresh => simp [Client.ClientSession.polls, hrefresh] at hpolls
  show Accepts w.client.session (Client.handleEvent env (.tcpMessage message))
  refine (triple_get_bind _).mpr ?_
  rw [hloop]
  rcases hreply with ⟨cid, rfl⟩ | ⟨code, rfl⟩
  · have hdispatch : Client.handleLoopEvent env (.tcpMessage (.registerOk cid)) =
        Client.handleRegisterOk env cid := Client.validateMessage_bind rfl _
    dsimp only
    rw [hdispatch]
    refine accepts_handleRegisterOk h.sound.clientLinked fun ids registration hstate => ?_
    have hflight : w.view.client.registration = .inFlight registration.prepared.payload := by
      rw [World.view, Client.ClientSession.view, hstate]
      rfl
    have hmem : .registerOk cid ∈ w.s2c := List.mem_of_head? hoffers
    exact (h.answers _ hflight).2 cid ((mem_s2c (m := .registerOk cid) (by simp) rfl).mpr hmem)
  · have hdispatch : Client.handleLoopEvent env (.tcpMessage (.registerFail code)) =
        Client.handleRegisterFail env code := Client.validateMessage_bind rfl _
    dsimp only
    rw [hdispatch]
    exact accepts_handleRegisterFail code

def inTurn (onTheirWay : List Message) : Client.ClientEffect → Bool
  | .tcp (.registerCid payload) => onTheirWay.all fun
    | .registerCid earlier => earlier.clientToServerCid = payload.clientToServerCid
    | .registerOk cid => cid = payload.clientToServerCid
    | _ => true
  | _ => true

theorem registersInTurn_of_all {w : World} {move : Move}
    (h : ∀ effect ∈ w.clientEffects move, inTurn (w.c2s ++ w.s2c) effect = true) :
    RegistersInTurn w move := by
  intro payload hmem
  have hall := List.all_eq_true.mp (h _ hmem)
  exact ⟨fun _ hearlier => of_decide_eq_true (hall _ (List.mem_append_left _ hearlier)),
    fun _ hreply => of_decide_eq_true (hall _ (List.mem_append_right _ hreply))⟩

def answeredMoves : List Move :=
  returningMoves ++
    [.server .quiet (.tcpMessage (.registerCid secondPayload)),
      .client .quiet (.tcpMessage (.fallbackOk 1))]

/-- The reply to the second registration, after the reply to the fallback. -/
theorem register_reply_accepted_second :
    let w := worldAfter answeredMoves
    w.s2c = [.registerOk usualIds.dcid] ∧
      ∃ control, ((Client.handleEvent secondDraw (.tcpMessage (.registerOk usualIds.dcid))).run
        w.client.session).1 = .ok control ∧ control ≠ .close .protocolError := by
  have hturn : Setup.usual.initial.All
      (fun w move => ∀ effect ∈ w.clientEffects move, inTurn (w.c2s ++ w.s2c) effect = true)
      answeredMoves := by
    decide +kernel
  have hreachable : Reachable RegistersInTurn Setup.usual (worldAfter answeredMoves) := by
    refine Reachable.moves .initial (by decide +kernel) (List.forall_mem_append.mpr
      ⟨tcpOpen_returningMoves, ?_⟩) (hturn.mono fun _ _ => registersInTurn_of_all)
    simp [Move.TcpOpen, Client.Env.TcpOpen, Server.Env.TcpOpen, Client.Env.quiet, Server.Env.quiet]
  exact ⟨by decide +kernel,
    register_reply_accepted hreachable (.inl ⟨_, rfl⟩) (by decide +kernel)⟩

def otherIds : Client.QuicIds :=
  ⟨.filled 5, .filled 6, ⟨[127, 0, 0, 1], 443⟩⟩

/-- The client gives the UDP path up and registers again with the connection id,
while a ping of the server fails. The request of the server is ahead of its
reply, so that the client discovers another connection id before it. -/
def mixingMoves : List Move :=
  switchingMoves ++
    [.client .quiet .udpLivenessTimeout, .client .quiet .udpReconnectTick,
      .client .quiet (.discoveryResult (some usualIds)), .client secondDraw .udpReconnectTick,
      .server (failingOn (.ping 2)) .pingTimer, .server .quiet (.tcpMessage (.fallbackToTcp 1)),
      .server .quiet (.tcpMessage (.registerCid secondPayload)),
      .client .quiet (.tcpMessage (.fallbackToTcp 1)), .client .quiet .udpReconnectTick,
      .client .quiet (.discoveryResult (some otherIds)), .client .quiet .udpReconnectTick,
      .client .quiet (.tcpMessage (.ping 2)), .client .quiet (.tcpMessage (.fallbackOk 1))]

/-- The reply to the earlier registration ends the session. -/
theorem register_reply_violation :
    Reachable (fun _ _ => True) Setup.usual (worldAfter mixingMoves) ∧
      (worldAfter mixingMoves).Admits
        (.client .quiet (.tcpMessage (.registerOk usualIds.dcid))) ∧
      ((Client.handleEvent .quiet (.tcpMessage (.registerOk usualIds.dcid))).run
        (worldAfter mixingMoves).client.session).1 =
          .error (.error (Client.registerOkMismatch otherIds.dcid usualIds.dcid)) := by
  refine ⟨?_, by decide +kernel, ?_⟩
  · refine Reachable.moves .initial (by decide +kernel) ?_ (.of_forall fun _ _ _ => trivial)
    simp [mixingMoves, switchingMoves, acceptingMoves, registeringMoves, Move.TcpOpen,
      Client.Env.TcpOpen, Server.Env.TcpOpen, Client.Env.quiet, Server.Env.quiet, failingOn,
      secondDraw]
  · rfl

end Slt.Tunnel
