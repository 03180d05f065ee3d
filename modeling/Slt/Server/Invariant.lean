import Slt.Server.Run

/-!
# What holds between the parts of a server session

The preferred transport, the UDP session with its peer and its send slab, the
upgrade attempt and the routes in the shared registry. The first half is about
the registry: what calls of others leave of a session's routes. The second half
has the invariant of the session and what its changes do to it.
-/

namespace Slt.Server

open Lib Lib.Handler Proto

/-! ## The routes of one session -/

/-- What a session with this id and client has in the registry: its routes are
for `allowed` prefixes, and while it is the active session of its client the
`required` prefix is one of them. -/
structure SessionRegistry.Serves (registry : SessionRegistry) (sessionId : UInt64)
    (clientId : ClientId) (allowed : CidPrefix → Prop) (required : Option CidPrefix) : Prop where
  issued : sessionId.toNat < registry.nextSessionId.toNat
  client : ∀ c handle, registry.sessions c = some handle → handle.sessionId = sessionId →
    c = clientId
  own : ∀ dcidPrefix route, registry.cidRoutes dcidPrefix = some route →
    route.sessionId = sessionId → allowed dcidPrefix
  active : ∀ dcidPrefix, required = some dcidPrefix →
    (registry.sessions clientId).map (·.sessionId) = some sessionId →
    ∃ route, registry.cidRoutes dcidPrefix = some route ∧ route.sessionId = sessionId

namespace SessionRegistry.Serves

variable {registry : SessionRegistry} {sessionId : UInt64} {clientId : ClientId}
  {allowed : CidPrefix → Prop} {required : Option CidPrefix}

theorem retainCids (h : registry.Serves sessionId clientId allowed required)
    {keep : CidPrefix → CidRoute → Bool}
    (hkeep : ∀ dcidPrefix route, route.sessionId = sessionId → keep dcidPrefix route = true) :
    (registry.retainCids keep).Serves sessionId clientId allowed required where
  issued := h.issued
  client := h.client
  own dcidPrefix route hroute := h.own dcidPrefix route (retainCids_eq_some.mp hroute).1
  active dcidPrefix hrequired hactive := by
    obtain ⟨route, hroute, hid⟩ := h.active dcidPrefix hrequired hactive
    exact ⟨route, retainCids_eq_some.mpr ⟨hroute, hkeep _ _ hid⟩, hid⟩

theorem removeCidsForSession (h : registry.Serves sessionId clientId allowed required) :
    (registry.removeCidsForSession sessionId).Serves sessionId clientId (fun _ => False) none where
  issued := h.issued
  client := h.client
  own dcidPrefix route hroute hid := by
    have hkeep := (retainCids_eq_some.mp hroute).2
    simp [hid] at hkeep
  active _ hnone := nomatch hnone

theorem removeCidsForSessionExcept {keepPrefix : CidPrefix}
    (h : registry.Serves sessionId clientId allowed (some keepPrefix)) :
    (registry.removeCidsForSessionExcept sessionId keepPrefix).Serves sessionId clientId
      (· = keepPrefix) (some keepPrefix) where
  issued := h.issued
  client := h.client
  own dcidPrefix route hroute hid := by
    have hkeep := (retainCids_eq_some.mp hroute).2
    simpa [hid] using hkeep
  active dcidPrefix hrequired hactive := by
    obtain ⟨route, hroute, hid⟩ := h.active dcidPrefix hrequired hactive
    cases hrequired
    exact ⟨route, retainCids_eq_some.mpr ⟨hroute, by simp⟩, hid⟩

section

variable (h : registry.Serves sessionId clientId allowed required)
include h

theorem insertCid {dcidPrefix : CidPrefix} {tx : SessionTx} {inserted : SessionRegistry}
    (hinsert : registry.insertCid clientId sessionId dcidPrefix tx = .ok inserted) :
    inserted.Serves sessionId clientId (fun p => allowed p ∨ p = dcidPrefix)
      (some dcidPrefix) := by
  obtain ⟨-, -, rfl⟩ := insertCid_ok hinsert
  refine ⟨h.issued, h.client, fun p route hroute hid => ?_, fun p hp _ => ?_⟩
  · by_cases heq : p = dcidPrefix
    · exact .inr heq
    · dsimp only at hroute
      rw [Function.update_of_ne heq] at hroute
      exact .inl (h.own p route hroute hid)
  · cases hp
    exact ⟨⟨sessionId, tx⟩, Function.update_self _ _ _, rfl⟩

theorem registerSession (c : ClientId) (addr : Ipv4Addr) (tx : SessionTx) :
    (registry.registerSession c addr tx).2.Serves sessionId clientId allowed required := by
  have hsessions : (registry.registerSession c addr tx).2.sessions =
      Function.update registry.sessions c (some (registry.registerSession c addr tx).1) :=
    Consistent.register_sessions
  -- the new session has another id
  have hfresh : (registry.registerSession c addr tx).1.sessionId ≠ sessionId := by
    intro heq
    have hid : registry.nextSessionId = sessionId := heq
    have hissued := h.issued
    rw [hid] at hissued
    exact lt_irrefl _ hissued
  constructor
  case issued =>
    have hnext : registry.nextSessionId.toNat ≤
        (registry.registerSession c addr tx).2.nextSessionId.toNat := by
      have hbound := registry.nextSessionId.toNat_lt
      show _ ≤ (UInt64.ofNat (U64.saturatingAdd _ 1)).toNat
      rw [UInt64.toNat_ofNat_of_lt' (by rw [U64.saturatingAdd, UInt64.size]; omega),
        U64.saturatingAdd]
      omega
    exact lt_of_lt_of_le h.issued hnext
  case client =>
    intro c' handle hc' hid
    rw [hsessions] at hc'
    by_cases heq : c' = c
    · subst heq
      rw [Function.update_self] at hc'
      cases hc'
      exact absurd hid hfresh
    · rw [Function.update_of_ne heq] at hc'
      exact h.client c' handle hc' hid
  case own =>
    intro dcidPrefix route hroute hid
    refine h.own dcidPrefix route ?_ hid
    unfold SessionRegistry.registerSession at hroute
    cases hold : registry.sessions c with
    | none => simpa only [hold] using hroute
    | some old =>
      simp only [hold] at hroute
      exact (retainCids_eq_some.mp hroute).1
  case active =>
    intro dcidPrefix hrequired hactive
    rw [hsessions] at hactive
    have hne : clientId ≠ c := by
      rintro rfl
      rw [Function.update_self, Option.map_some] at hactive
      exact hfresh (Option.some.inj hactive)
    rw [Function.update_of_ne hne] at hactive
    obtain ⟨route, hroute, hid⟩ := h.active dcidPrefix hrequired hactive
    refine ⟨route, ?_, hid⟩
    unfold SessionRegistry.registerSession
    cases hold : registry.sessions c with
    | none => simpa only [hold] using hroute
    | some old =>
      have hother : old.sessionId ≠ sessionId := fun heq => hne (h.client c old hold heq).symm
      have hkept : (registry.removeCidsForSession old.sessionId).cidRoutes dcidPrefix =
          some route :=
        retainCids_eq_some.mpr ⟨hroute, by simpa [hid] using hother.symm⟩
      simpa only [hold] using hkept

theorem otherCall {caller : SessionHandle} (hcaller : caller.sessionId ≠ sessionId)
    (call : SessionCall) :
    (call.apply registry caller).Serves sessionId clientId allowed required := by
  have hkeep : ∀ (dcidPrefix : CidPrefix) (route : CidRoute), route.sessionId = sessionId →
      (fun _ route => decide (route.sessionId ≠ caller.sessionId)) dcidPrefix route = true := by
    intro _ route hid
    simpa [hid] using hcaller.symm
  cases call with
  | removeCids => exact h.retainCids hkeep
  | removeCidsExcept keepPrefix =>
    refine h.retainCids fun _ route hid => ?_
    simpa [hid] using .inl hcaller.symm
  | removeSession =>
    have hretained := h.retainCids hkeep
    refine ⟨h.issued, fun c handle hc hid => ?_, hretained.own, fun p hp hactive => ?_⟩
    · refine h.client c handle ?_ hid
      simp only [SessionCall.apply, SessionRegistry.removeSession] at hc
      split at hc
      · by_cases heq : c = caller.clientId
        · rw [heq, Function.update_self] at hc
          cases hc
        · rwa [Function.update_of_ne heq] at hc
      · exact hc
    · refine hretained.active p hp ?_
      simp only [SessionCall.apply, SessionRegistry.removeSession] at hactive
      split at hactive
      · by_cases heq : clientId = caller.clientId
        · rw [heq, Function.update_self] at hactive
          cases hactive
        · rwa [Function.update_of_ne heq] at hactive
      · exact hactive
  | insertCid dcidPrefix tx =>
    rw [SessionCall.apply]
    cases hinsert : registry.insertCid caller.clientId caller.sessionId dcidPrefix tx with
    | error _ => exact h
    | ok inserted =>
      obtain ⟨-, howner, rfl⟩ := insertCid_ok hinsert
      refine ⟨h.issued, h.client, fun p route hroute hid => ?_, fun p hp hactive => ?_⟩
      · dsimp only at hroute
        by_cases heq : p = dcidPrefix
        · rw [heq, Function.update_self] at hroute
          cases hroute
          exact absurd hid hcaller
        · rw [Function.update_of_ne heq] at hroute
          exact h.own p route hroute hid
      · obtain ⟨route, hroute, hid⟩ := h.active p hp hactive
        refine ⟨route, ?_, hid⟩
        -- a prefix that this session has is not given away
        have hne : p ≠ dcidPrefix := by
          rintro rfl
          exact hcaller ((howner route hroute).symm.trans hid)
        dsimp only
        rw [Function.update_of_ne hne]
        exact hroute

theorem foreign {call : ForeignCall} (hcall : call.Foreign sessionId) :
    (call.apply registry).Serves sessionId clientId allowed required := by
  cases call with
  | register c addr tx => exact h.registerSession c addr tx
  | other caller call => exact h.otherCall hcall call

end

theorem foreignCalls {calls : List ForeignCall}
    (h : registry.Serves sessionId clientId allowed required)
    (hcalls : ∀ call ∈ calls, call.Foreign sessionId) :
    (calls.foldl ForeignCall.apply registry).Serves sessionId clientId allowed required := by
  induction calls generalizing registry with
  | nil => exact h
  | cons call calls ih =>
    rw [List.forall_mem_cons] at hcalls
    exact ih (h.foreign hcalls.1) hcalls.2

end SessionRegistry.Serves

/-! ## The invariant -/

namespace ServerSession

/-- The prefix that the UDP session is routed by. -/
def routePrefix (s : ServerSession) : Option CidPrefix :=
  s.udpSession.bind fun session => session.params.scid.prefixOf.toOption

/-- There is a UDP session that has received an authentic packet. The activity
is noted only after the packet has been handled. -/
structure UdpUsable (noted : Prop) (s : ServerSession) : Prop where
  session : s.udpSession.isSome
  peer : s.udpPeerPacketNumber.isSome
  activity : noted → s.lastAuthenticatedUdpActivity.isSome

theorem UdpUsable.frame {noted : Prop} {s s' : ServerSession} (h : s.UdpUsable noted)
    (hsession : s'.udpSession = s.udpSession)
    (hpeer : s'.udpPeerPacketNumber = s.udpPeerPacketNumber)
    (hactivity : s'.lastAuthenticatedUdpActivity = s.lastAuthenticatedUdpActivity) :
    s'.UdpUsable noted :=
  ⟨hsession ▸ h.session, hpeer ▸ h.peer, hactivity ▸ h.activity⟩

/-- What holds between events. No frame is half written, and UDP is preferred once
TCP is gone. -/
structure Inv (noted : Prop) (s : ServerSession) : Prop where
  udp : s.activeTransport = .udpQsp → s.UdpUsable noted
  probe : s.udpUpgrade.probeSeen = true → s.UdpUsable noted
  sent : s.udpUpgrade.switchToUdpSent = true → s.udpUpgrade.upgradeId.isSome ∧
    s.udpUpgrade.probeSeen = true ∧ s.udpUpgrade.readySeen = true
  slab : s.activeTransport = .tcp → ∀ session, s.udpSession = some session →
    ∀ packet, .data packet ∉ session.slab
  prefixed : s.udpSession.isSome → s.routePrefix.isSome
  routes : s.registry.Serves s.sessionId s.clientId (s.routePrefix = some ·) s.routePrefix
  whole : s.tcpWriteInterrupted = false
  preferred : s.tcpAlive = false → s.activeTransport = .udpQsp

namespace Inv

variable {noted : Prop} {s : ServerSession}

theorem unrelated (h : s.Inv noted) (pendingTcpFallback lastPeerFallbackId : Option UInt64) :
    { s with pendingTcpFallback := pendingTcpFallback,
             lastPeerFallbackId := lastPeerFallbackId }.Inv noted :=
  ⟨fun hu => (h.udp hu).frame rfl rfl rfl,
    fun hp => (h.probe hp).frame rfl rfl rfl, h.sent, h.slab,
    h.prefixed, h.routes, h.whole, h.preferred⟩

theorem closed (h : s.Inv noted) (hudp : s.activeTransport = .udpQsp) :
    { s with tcpAlive := false }.Inv noted :=
  ⟨fun hu => (h.udp hu).frame rfl rfl rfl,
    fun hp => (h.probe hp).frame rfl rfl rfl, h.sent, h.slab,
    h.prefixed, h.routes, h.whole, fun _ => hudp⟩

theorem unnoted (h : s.Inv True) : s.Inv False :=
  ⟨fun hu => ⟨(h.udp hu).1, (h.udp hu).2, False.elim⟩,
    fun hp => ⟨(h.probe hp).1, (h.probe hp).2, False.elim⟩, h.sent, h.slab, h.prefixed,
    h.routes, h.whole, h.preferred⟩

section

variable (h : s.Inv noted)
include h

theorem alive (htcp : s.activeTransport = .tcp) : s.tcpAlive = true := by
  by_contra hclosed
  exact nomatch htcp.symm.trans (h.preferred (by simpa using hclosed))

theorem note (now : Nat) : { s with lastAuthenticatedUdpActivity := some now }.Inv True :=
  ⟨fun hu => ⟨(h.udp hu).1, (h.udp hu).2, fun _ => rfl⟩,
    fun hp => ⟨(h.probe hp).1, (h.probe hp).2, fun _ => rfl⟩, h.sent, h.slab, h.prefixed,
    h.routes, h.whole, h.preferred⟩

theorem foreign {call : ForeignCall} (hcall : call.Foreign s.sessionId) :
    { s with registry := call.apply s.registry }.Inv noted :=
  ⟨fun hu => (h.udp hu).frame rfl rfl rfl,
    fun hp => (h.probe hp).frame rfl rfl rfl, h.sent, h.slab,
    h.prefixed, h.routes.foreign hcall, h.whole, h.preferred⟩

theorem changeSlab {g : List Message → List Message}
    (hg : s.activeTransport = .tcp → ∀ slab, (∀ packet, .data packet ∉ slab) →
      ∀ packet, .data packet ∉ g slab) :
    (s.mapUdp fun session => { session with slab := g session.slab }).Inv noted := by
  have hroutedBy : (s.mapUdp fun session => { session with slab := g session.slab }).routePrefix =
      s.routePrefix := by
    unfold routePrefix mapUdp
    cases s.udpSession <;> rfl
  have husable : s.UdpUsable noted →
      (s.mapUdp fun session => { session with slab := g session.slab }).UdpUsable noted := by
    intro hu
    refine ⟨?_, hu.peer, hu.activity⟩
    rw [mapUdp, Option.isSome_map]
    exact hu.session
  constructor
  case udp => exact fun hu => husable (h.udp hu)
  case probe => exact fun hp => husable (h.probe hp)
  case sent => exact h.sent
  case slab =>
    intro htcp session hs
    obtain ⟨before, hbefore, rfl⟩ := Option.map_eq_some_iff.mp hs
    exact hg htcp before.slab (h.slab htcp before hbefore)
  case prefixed =>
    intro hs
    rw [mapUdp, Option.isSome_map] at hs
    rw [hroutedBy]
    exact h.prefixed hs
  case routes =>
    rw [hroutedBy]
    exact h.routes
  case whole => exact h.whole
  case preferred => exact h.preferred

theorem cleared : (clearSendSlab s).Inv noted :=
  h.changeSlab (g := fun _ => []) fun _ _ _ _ hmem => nomatch hmem

theorem appended {message : Message}
    (hdata : ∀ packet, message = .data packet → s.activeTransport = .udpQsp) :
    (appendToSlab message s).Inv noted := by
  refine h.changeSlab (g := (· ++ [message])) fun htcp slab hslab packet hmem => ?_
  rcases List.mem_append.mp hmem with hold | hnew
  · exact hslab packet hold
  · rw [hdata packet (List.mem_singleton.mp hnew).symm] at htcp
    cases htcp

theorem toTcp (halive : s.tcpAlive = true) :
    { clearSendSlab s with activeTransport := .tcp }.Inv noted := by
  have hcleared := h.cleared
  refine ⟨fun hu => (nomatch hu), fun hp => (hcleared.probe hp).frame rfl rfl rfl, hcleared.sent,
    ?_, hcleared.prefixed, hcleared.routes, h.whole,
    fun hclosed => nomatch halive.symm.trans hclosed⟩
  intro _ session hs
  obtain ⟨before, -, rfl⟩ := Option.map_eq_some_iff.mp hs
  exact fun _ hmem => nomatch hmem

theorem retire (halive : s.tcpAlive = true) :
    { s.retireUdp with activeTransport := .tcp }.Inv noted where
  udp hu := nomatch hu
  probe hp := nomatch hp
  sent hs := nomatch hs
  slab _ _ hs := nomatch hs
  prefixed hs := nomatch hs
  routes := by
    refine ⟨h.routes.issued, h.routes.client, fun p route hroute hid => ?_, fun _ hp => nomatch hp⟩
    exact (h.routes.removeCidsForSession.own p route hroute hid).elim
  whole := h.whole
  preferred hclosed := nomatch halive.symm.trans hclosed

theorem upgrade {u : UdpUpgradeState} (hprobe : u.probeSeen = true → s.UdpUsable noted)
    (hsent : u.switchToUdpSent = true →
      u.upgradeId.isSome ∧ u.probeSeen = true ∧ u.readySeen = true) :
    { s with udpUpgrade := u }.Inv noted :=
  ⟨fun hu => (h.udp hu).frame rfl rfl rfl,
    fun hp => (hprobe hp).frame rfl rfl rfl, hsent, h.slab, h.prefixed,
    h.routes, h.whole, h.preferred⟩

theorem toUdp (husable : s.UdpUsable noted) :
    { s with activeTransport := .udpQsp }.Inv noted :=
  ⟨fun _ => husable.frame rfl rfl rfl,
    fun hp => (h.probe hp).frame rfl rfl rfl, h.sent,
    fun ht => (nomatch ht), h.prefixed, h.routes, h.whole, fun _ => rfl⟩

end

theorem registered (h : s.Inv noted) (htcp : s.activeTransport = .tcp) {params : QspSessionParams}
    {peer : SocketAddr} {registry : SessionRegistry} {dcidPrefix : CidPrefix}
    (hroutedBy : params.scid.prefixOf = .ok dcidPrefix)
    (hroutes : registry.Serves s.sessionId s.clientId (· = dcidPrefix) (some dcidPrefix)) :
    { s with registry := registry, udpSession := some ⟨params, peer, []⟩,
             udpPeerPacketNumber := none, lastAuthenticatedUdpActivity := none,
             udpUpgrade := .default }.Inv noted where
  udp hu := nomatch htcp.symm.trans hu
  probe hp := nomatch hp
  sent hs := nomatch hs
  slab _ session hs := by
    cases hs
    exact fun _ hmem => nomatch hmem
  prefixed _ := by simp [routePrefix, hroutedBy, Except.toOption]
  routes := by
    have hroute : routePrefix { s with
        registry := registry, udpSession := some ⟨params, peer, []⟩, udpPeerPacketNumber := none,
        lastAuthenticatedUdpActivity := none, udpUpgrade := .default } = some dcidPrefix := by
      simp [routePrefix, hroutedBy, Except.toOption]
    rw [hroute]
    refine ⟨hroutes.issued, hroutes.client, fun p route hp hid => ?_, hroutes.active⟩
    rw [hroutes.own p route hp hid]
  whole := h.whole
  preferred := h.preferred

theorem adopt (h : s.Inv noted) (claim : UdpClaim) :
    (adoptUdpPeerIfNewer claim.peer claim.packetNumber s).Inv noted := by
  unfold adoptUdpPeerIfNewer
  cases hs : s.udpSession with
  | none => exact h
  | some session =>
    dsimp only
    split
    · exact h
    have hroutedBy : routePrefix { s with
        udpSession := some { session with peer := claim.peer }
        udpPeerPacketNumber := some claim.packetNumber } = s.routePrefix := by
      unfold routePrefix
      rw [hs]
      rfl
    refine ⟨fun hu => ⟨rfl, rfl, (h.udp hu).3⟩, fun hp => ⟨rfl, rfl, (h.probe hp).3⟩, h.sent, ?_,
      ?_, ?_, h.whole, h.preferred⟩
    · intro htcp session' hs'
      cases hs'
      exact h.slab htcp session hs
    · intro _
      rw [hroutedBy]
      exact h.prefixed (by rw [hs]; rfl)
    · rw [hroutedBy]
      exact h.routes

end Inv

end ServerSession

end Slt.Server
