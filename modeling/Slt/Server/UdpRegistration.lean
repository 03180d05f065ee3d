import Slt.Proto.Payload
import Slt.Server.Run
import Slt.Server.UdpOpen

/-!
# Registering a connection id

The handling of a REGISTER_CID from its bytes on, with the keys and the socket
that it creates. A registration is refused before anything is changed: the
checks come first, the last of them by the registry itself, and only then is the
route set and the UDP session replaced.
-/

namespace Slt

open Lib Lib.Handler Proto

def Crypto.UdpQspKeys.fromRegister (boring : Crypto.Boring) (register : RegisterCidPayload) :
    Crypto.CryptoM Crypto.UdpQspKeys :=
  UdpQspKeys.new boring register.cipher register.secretTx.val register.secretRx.val

namespace Server

open Crypto (Boring QspTape UdpQspKeys)

variable {ι : Type}

def failure? {ε α : Type} : Except ε α → Option ε
  | .error e => some e
  | .ok _ => none

def newUdpSession (register : RegisterCidPayload) (io : ι) (keys : UdpQspKeys) :
    Crypto.Session ι :=
  .new io register.clientToServerCid register.serverToClientCid keys register.pnStart
    register.pnStartRx register.keyPhase

/-- `create` is the factory of the sockets. What it and the key derivation return
is what the handler is told of them. -/
def UdpIngress.handleRegisterCid (st : UdpIngress ι) (env : Env) (boring : Boring)
    (create : SocketAddr → Except IoError ι) (payload : Bytes) (t : QspTape) :
    Except (Stop SessionError) SessionControl × UdpIngress ι × List ServerEffect :=
  match RegisterCidPayload.decode payload with
  | .error err =>
    let (result, session, out) := (Server.handleRegisterCid env (.error err)).run st.session
    (result, { st with session }, out)
  | .ok register =>
    let keys := ((UdpQspKeys.fromRegister boring register).run t).1
    let io := create placeholderPeer
    let env := { env with keysFailure := failure? keys, udpIoFailure := failure? io }
    let (result, session, out) := (Server.handleRegisterCid env (.ok register)).run st.session
    let udpSession :=
      match keys, io with
      | .ok keys, .ok io =>
        if .registered register ∈ out then some (newUdpSession register io keys) else st.udpSession
      | _, _ => st.udpSession
    (result, { st with session, udpSession }, out)

/-! ## What the handler does -/

def WritesOnly (message : Message) (out : List ServerEffect) : Prop :=
  ∀ x ∈ out, x = .tcp message ∨ ∃ written, x = .tcpCut message written

theorem sendTcpMessage_writes (env : Env) (message : Message) (s : ServerSession) :
    (sendTcpMessage env message).Triple s fun _ s' out =>
      (∃ interrupted, s' = { s with tcpWriteInterrupted := interrupted }) ∧
        WritesOnly message out := by
  unfold sendTcpMessage writeFrame setTcpWriteInterrupted
  rw [triple_get_bind]
  split
  · exact ⟨⟨_, rfl⟩, fun _ h => nomatch h⟩
  rw [triple_modify_bind]
  split
  · exact ⟨⟨_, rfl⟩, fun _ h => .inl (List.mem_singleton.mp h)⟩
  · exact ⟨⟨_, rfl⟩, fun _ h => .inr ⟨_, List.mem_singleton.mp h⟩⟩
  · exact ⟨⟨_, rfl⟩, fun _ h => .inr ⟨_, List.mem_singleton.mp h⟩⟩

inductive RegisterOutcome (env : Env) (decoded : Except PayloadError RegisterCidPayload)
    (s : ServerSession) : ServerSession → List ServerEffect → Prop where
  | refused (code : RegisterFailCode) (interrupted : Bool) {out : List ServerEffect} :
      WritesOnly (.registerFail code) out →
      RegisterOutcome env decoded s { s with tcpWriteInterrupted := interrupted } out
  | withoutSocket {register : RegisterCidPayload} {registry : SessionRegistry} :
      decoded = .ok register → admitRegistration env s register = .ok registry →
      RegisterOutcome env decoded s { s with registry := registry } []
  | accepted {register : RegisterCidPayload} {registry : SessionRegistry} (interrupted : Bool)
      {out : List ServerEffect} :
      decoded = .ok register → admitRegistration env s register = .ok registry →
      env.udpIoFailure = none → WritesOnly (.registerOk register.clientToServerCid) out →
      RegisterOutcome env decoded s
        { s with registry := registry, tcpWriteInterrupted := interrupted,
                 udpSession := some ⟨register.serverSession, placeholderPeer, []⟩,
                 udpPeerPacketNumber := none, lastAuthenticatedUdpActivity := none,
                 udpUpgrade := .default }
        (.registered register :: out)

theorem handleRegisterCid_outcome (env : Env) (decoded : Except PayloadError RegisterCidPayload)
    (s : ServerSession) :
    (handleRegisterCid env decoded).Triple s fun _ s' out =>
      RegisterOutcome env decoded s s' out := by
  have hfail (code : RegisterFailCode) :
      (sendRegisterFail env code).Triple s fun _ s' out =>
        RegisterOutcome env decoded s s' out := by
    refine (sendTcpMessage_writes env _ s).bind ?_ ?_
    · rintro _ _ out ⟨⟨interrupted, rfl⟩, hout⟩
      rw [triple_pure, List.append_nil]
      exact .refused code interrupted hout
    · rintro _ _ out ⟨⟨interrupted, rfl⟩, hout⟩
      exact .refused code interrupted hout
  cases decoded with
  | error err => exact hfail _
  | ok register =>
    unfold handleRegisterCid
    rw [triple_get_bind]
    split
    · exact hfail _
    rename_i registry hadmitted
    rw [triple_modify_bind]
    split
    · exact .withoutSocket rfl hadmitted
    rename_i hsocket
    have hinstall : (installUdpSession register).Triple { s with registry := registry }
        fun r s' out => r = .ok () ∧ out = [.registered register] ∧
          s' = { s with
            registry := registry, udpSession := some ⟨register.serverSession, placeholderPeer, []⟩,
            udpPeerPacketNumber := none, lastAuthenticatedUdpActivity := none,
            udpUpgrade := .default } :=
      ⟨rfl, rfl, rfl⟩
    refine hinstall.bind ?_ (fun _ _ _ h => nomatch h.1)
    rintro _ _ _ ⟨-, rfl, rfl⟩
    refine (sendTcpMessage_writes env _ _).bind ?_ ?_
    · rintro _ _ out ⟨⟨interrupted, rfl⟩, hout⟩
      rw [triple_pure, List.append_nil]
      exact .accepted interrupted rfl hadmitted hsocket hout
    · rintro _ _ out ⟨⟨interrupted, rfl⟩, hout⟩
      exact .accepted interrupted rfl hadmitted hsocket hout

theorem WritesOnly.not_registered {message : Message} {out : List ServerEffect}
    (h : WritesOnly message out) (register : RegisterCidPayload) : .registered register ∉ out := by
  intro hmem
  rcases h _ hmem with heq | ⟨_, heq⟩ <;> cases heq

/-- A registration is reported only when there are keys and a socket for it. -/
theorem RegisterOutcome.registered {env : Env} {decoded : Except PayloadError RegisterCidPayload}
    {s s' : ServerSession} {out : List ServerEffect} (h : RegisterOutcome env decoded s s' out)
    {register : RegisterCidPayload} (hmem : .registered register ∈ out) :
    (decoded = .ok register ∧ env.keysFailure = none ∧ env.udpIoFailure = none) ∧
      s'.udpSession = some ⟨register.serverSession, placeholderPeer, []⟩ ∧
      s'.udpPeerPacketNumber = none := by
  cases h with
  | refused code interrupted hout => exact (hout.not_registered _ hmem).elim
  | withoutSocket hdecoded hadmitted => cases hmem
  | accepted interrupted hdecoded hadmitted hsocket hout =>
    rcases List.mem_cons.mp hmem with heq | hmem
    · cases heq
      exact ⟨⟨hdecoded, (admitRegistration_eq_ok hadmitted).1, hsocket⟩, rfl, rfl⟩
    · exact (hout.not_registered _ hmem).elim

theorem failure?_eq_none {ε α : Type} {x : Except ε α} (h : failure? x = none) :
    ∃ a, x = .ok a := by
  cases x with
  | error e => cases h
  | ok a => exact ⟨a, rfl⟩

/-! ## The routes -/

/-- With no one else at work, a registration that is let in moves the route of its
session and no other entry. -/
theorem admitRegistration_routes {env : Env} {s : ServerSession} {register : RegisterCidPayload}
    {registry : SessionRegistry} (hforeign : env.foreign = [])
    (h : admitRegistration env s register = .ok registry) :
    ∃ dcidPrefix, register.clientToServerCid.prefixOf = .ok dcidPrefix ∧
      registry.cidRoutes dcidPrefix = some ⟨s.sessionId, s.tx⟩ ∧
      (∀ other route, registry.cidRoutes other = some route → route.sessionId = s.sessionId →
        other = dcidPrefix) ∧
      (∀ other route, route.sessionId ≠ s.sessionId →
        (registry.cidRoutes other = some route ↔ s.registry.cidRoutes other = some route)) ∧
      registry.sessions = s.registry.sessions ∧ registry.ipRoutes = s.registry.ipRoutes := by
  obtain ⟨-, dcidPrefix, inserted, hprefixOf, hinsert, rfl⟩ := admitRegistration_eq_ok h
  obtain ⟨-, howner, rfl⟩ := SessionRegistry.insertCid_ok hinsert
  rw [hforeign]
  refine ⟨dcidPrefix, hprefixOf, ?_, ?_, ?_, rfl, rfl⟩
  · refine SessionRegistry.retainCids_eq_some.mpr ⟨Function.update_self .., ?_⟩
    simp
  · intro other route hroute hmine
    have hkeep := (SessionRegistry.retainCids_eq_some.mp hroute).2
    simpa [hmine] using hkeep
  · intro other route hother
    refine SessionRegistry.retainCids_eq_some.trans ?_
    by_cases heq : other = dcidPrefix
    · -- The prefix was free, or the session's own.
      subst heq
      constructor
      · rintro ⟨hroute, -⟩
        rw [List.foldl_nil] at hroute
        cases (Function.update_self ..).symm.trans hroute
        exact (hother rfl).elim
      · exact fun hroute => (hother (howner _ hroute)).elim
    · simp [Function.update_of_ne heq, hother]

/-! ## Refused and accepted registrations -/

/-- The frame is written, or a part of it is. -/
def Answers (out : List ServerEffect) (message : Message) : Prop :=
  .tcp message ∈ out ∨ ∃ written, .tcpCut message written ∈ out

theorem Answers.of_registered {register : RegisterCidPayload} {out : List ServerEffect}
    {message : Message} (h : Answers (.registered register :: out) message) :
    Answers out message := by
  simpa [Answers] using h

theorem WritesOnly.eq_of_answers {message message' : Message} {out : List ServerEffect}
    (h : WritesOnly message out) (hanswers : Answers out message') : message' = message := by
  rcases hanswers with hmem | ⟨written, hmem⟩
  all_goals
    rcases h _ hmem with heq | ⟨_, heq⟩ <;> cases heq
    rfl

/-- The handler on the session's own state, with what it is told of the keys and
the socket; the UDP session changes only where it says so. -/
theorem UdpIngress.handleRegisterCid_outcome {st after : UdpIngress ι} {env : Env} {boring : Boring}
    {create : SocketAddr → Except IoError ι} {payload : Bytes} {t : QspTape}
    {result : Except (Stop SessionError) SessionControl} {out : List ServerEffect}
    (h : st.handleRegisterCid env boring create payload t = (result, after, out)) :
    (∃ told : Env, told.foreign = env.foreign ∧
      RegisterOutcome told (RegisterCidPayload.decode payload) st.session after.session out) ∧
      after.lastActivity = st.lastActivity ∧
      ((∀ register, .registered register ∉ out) → after.udpSession = st.udpSession) ∧
      ∀ register, .registered register ∈ out → ∃ keys io, create placeholderPeer = .ok io ∧
        after.udpSession = some (newUdpSession register io keys) := by
  unfold UdpIngress.handleRegisterCid at h
  cases hdecoded : RegisterCidPayload.decode payload with
  | error err =>
    rw [hdecoded] at h
    cases h
    have houtcome := Server.handleRegisterCid_outcome env (.error err) st.session
    refine ⟨⟨env, rfl, houtcome⟩, rfl, fun _ => rfl, fun register hmem => ?_⟩
    cases (houtcome.registered hmem).1.1
  | ok register =>
    rw [hdecoded] at h
    dsimp only at h
    generalize ((UdpQspKeys.fromRegister boring register).run t).1 = keys at h
    let told : Env :=
      { env with keysFailure := failure? keys, udpIoFailure := failure? (create placeholderPeer) }
    have houtcome := Server.handleRegisterCid_outcome told (.ok register) st.session
    cases h
    refine ⟨⟨told, rfl, houtcome⟩, rfl, fun hnone => ?_, fun register' hmem => ?_⟩
    · split
      · exact if_neg (hnone register)
      · rfl
    · obtain ⟨⟨hsame, hkeys, hio⟩, -⟩ := houtcome.registered hmem
      cases hsame
      obtain ⟨keys, rfl⟩ := failure?_eq_none hkeys
      obtain ⟨io, hio⟩ := failure?_eq_none hio
      refine ⟨keys, io, hio, ?_⟩
      simp only [hio] at hmem ⊢
      exact if_pos hmem

/-- A registration that is refused leaves the session and the registry as they
were, but for the mark of a frame write. One that is accepted leaves the session
with the one route of the new prefix, and every other entry as it was. -/
theorem refused_registration_changes_nothing (st : UdpIngress ι) (env : Env)
    (hforeign : env.foreign = []) (boring : Boring) (create : SocketAddr → Except IoError ι)
    (payload : Bytes) (t : QspTape) :
    let (_, after, out) := st.handleRegisterCid env boring create payload t
    (∀ code, Answers out (.registerFail code) →
      ∃ interrupted, after =
        { st with session := { st.session with tcpWriteInterrupted := interrupted } }) ∧
      ∀ cid, Answers out (.registerOk cid) →
        ∃ register dcidPrefix, RegisterCidPayload.decode payload = .ok register ∧
          register.clientToServerCid = cid ∧ cid.prefixOf = .ok dcidPrefix ∧
          (∀ other, (∃ route, after.session.registry.cidRoutes other = some route ∧
            route.sessionId = st.session.sessionId) ↔ other = dcidPrefix) ∧
          (∀ other route, route.sessionId ≠ st.session.sessionId →
            (after.session.registry.cidRoutes other = some route ↔
              st.session.registry.cidRoutes other = some route)) ∧
          after.session.registry.sessions = st.session.registry.sessions ∧
          after.session.registry.ipRoutes = st.session.registry.ipRoutes := by
  rcases hrun : st.handleRegisterCid env boring create payload t with
    ⟨result, ⟨session, lastActivity, udpSession⟩, out⟩
  obtain ⟨⟨told, htold, houtcome⟩, hactivity, hkept, -⟩ :=
    UdpIngress.handleRegisterCid_outcome hrun
  rw [hforeign] at htold
  dsimp only at houtcome hactivity hkept ⊢
  subst hactivity
  cases houtcome with
  | refused code interrupted hout =>
    cases hkept hout.not_registered
    refine ⟨fun _ _ => ⟨interrupted, rfl⟩, fun cid hanswers => ?_⟩
    cases hout.eq_of_answers hanswers
  | withoutSocket hdecoded hadmitted =>
    constructor
    · rintro _ (hmem | ⟨_, hmem⟩) <;> cases hmem
    · rintro _ (hmem | ⟨_, hmem⟩) <;> cases hmem
  | accepted interrupted hdecoded hadmitted hsocket hout =>
    refine ⟨fun code hanswers => ?_, fun cid hanswers => ?_⟩
    · cases hout.eq_of_answers hanswers.of_registered
    · cases hout.eq_of_answers hanswers.of_registered
      obtain ⟨dcidPrefix, hprefixOf, hroute, hmine, hothers⟩ :=
        admitRegistration_routes htold hadmitted
      refine ⟨_, dcidPrefix, hdecoded, rfl, hprefixOf, fun other => ⟨?_, ?_⟩, hothers⟩
      · rintro ⟨route, hother, howned⟩
        exact hmine other route hother howned
      · rintro rfl
        exact ⟨_, hroute, rfl⟩

def registrationBytes (c : UInt8) : Bytes :=
  20 :: List.replicate 20 c ++ [0, 2] ++ List.replicate 64 0 ++ List.replicate 17 0

/-- Another session, to which a prefix is routed. -/
def contested : SessionRegistry :=
  let other := firstConnection.2.registerSession (.replicate 16 2) ⟨[10, 0, 0, 3], rfl⟩ 1
  { other.2 with
    cidRoutes := fun p =>
      if p = FixedBytes.replicate _ 8 then some ⟨other.1.sessionId, other.1.tx⟩ else none }

def attemptRegistration (st : UdpIngress Unit) (c : UInt8) :
    Except (Stop SessionError) SessionControl × UdpIngress Unit × List ServerEffect :=
  st.handleRegisterCid .quiet Crypto.counterBoring (fun _ => .ok ()) (registrationBytes c) ⟨[], []⟩

def registeredIngress : UdpIngress Unit :=
  (attemptRegistration ⟨.new firstConnection.1 [.chaCha20Poly1305] 1400 contested, 0, none⟩ 7).2.1

/-- A registered session asks for the prefix of the other one. -/
theorem refused_registration_changes_nothing_collision :
    (registeredIngress.udpSession.isSome ∧ (registeredIngress.session.registry.cidRoutes
      (.replicate _ 7)).map (·.sessionId) = some firstConnection.1.sessionId) ∧
      let run := attemptRegistration registeredIngress 8
      Answers run.2.2 (.registerFail .invalidCid) ∧
        ∃ interrupted, run.2.1 = { registeredIngress with
          session := { registeredIngress.session with tcpWriteInterrupted := interrupted } } := by
  refine ⟨by decide +kernel, ?_⟩
  intro run
  have hanswers : Answers run.2.2 (.registerFail .invalidCid) := .inl (by decide +kernel)
  refine ⟨hanswers, ?_⟩
  exact (refused_registration_changes_nothing registeredIngress .quiet rfl Crypto.counterBoring
    (fun _ => .ok ()) (registrationBytes 8) ⟨[], []⟩).1 _ hanswers

end Server

end Slt
