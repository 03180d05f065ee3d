import Slt.Lib.Handler
import Slt.Proto.Payload
import Slt.Server.Config

/-!
# The authentication phase

A connection starts with the client's AUTH. The server checks it against its
configuration and the challenge that the TLS connection exports, answers, and
hands the connection with what is left in its read buffer to a session. Until
then only keep-alive messages are answered; all else ends the connection.
-/

namespace Slt.Server

open Lib Lib.Handler Proto

/-! ## The authenticator -/

structure ClientEntry extends ServerClient where
  enabled : Bool
  pubkeyEd25519 : FixedBytes 32
  deriving DecidableEq

structure Authenticator where
  clientsConfig : List ClientEntry
  tunMtu : UInt16

/-- A later entry replaces an earlier one with the same id. -/
def Authenticator.get (authenticator : Authenticator) (clientId : ClientId) : Option ClientEntry :=
  authenticator.clientsConfig.reverse.find? (·.clientId = clientId)

/-- The signature library: which keys it takes and what verifies under them. -/
structure Ed25519 where
  fromBytes : FixedBytes 32 → Bool
  verifyStrict : FixedBytes 32 → Bytes → FixedBytes authSignatureLen → Bool

def authSignatureContext (clientId : ClientId) (assignedIpv4 : Ipv4Addr) (tunMtu : UInt16)
    (challenge : FixedBytes authChallengeLen) : Bytes :=
  "slt-auth-v2".toUTF8.toList ++ clientId.val ++ assignedIpv4.val ++ beBytes 2 tunMtu.toNat ++
    challenge.val

def verifyAuthPayload (ed25519 : Ed25519) (authenticator : Authenticator) (payload : AuthPayload)
    (challenge : FixedBytes authChallengeLen) : Except AuthFailCode Ipv4Addr :=
  match authenticator.get payload.clientId with
  | none => .error .unknownClient
  | some client =>
    if !client.enabled then .error .disabled
    else if client.assignedIpv4 ≠ payload.assignedIpv4 then .error .ipMismatch
    else if authenticator.tunMtu ≠ payload.tunMtu then .error .mtuMismatch
    else if payload.challenge ≠ challenge then .error .challengeInvalid
    else
      let context :=
        authSignatureContext payload.clientId payload.assignedIpv4 payload.tunMtu challenge
      if !ed25519.fromBytes client.pubkeyEd25519 then .error .badSignature
      else if !ed25519.verifyStrict client.pubkeyEd25519 context payload.signature then
        .error .badSignature
      else .ok client.assignedIpv4

/-! ## Messages -/

inductive AuthError where
  | connectionClosed
  | connection (source : IoError)
  | protocolViolation (type : MessageType)
  | message (err : MessageError)
  | payload (err : PayloadError)
  deriving DecidableEq

def AuthError.requiresProtocolClose : AuthError → Bool
  | .protocolViolation _ => true
  | .message _ => true
  | .payload _ => true
  | _ => false

inductive AuthPhaseResult where
  | authenticated
  | rejected (code : AuthFailCode)
  | completed
  deriving DecidableEq

inductive AuthStep where
  | continue
  | done (result : AuthPhaseResult)
  deriving DecidableEq

/-- `created` is a session that takes the connection over. -/
inductive AuthEffect where
  | tcp (message : Message)
  | tcpCut (message : Message) (written : Nat)
  | created (clientId : ClientId) (assignedIpv4 : Ipv4Addr)
  deriving DecidableEq

structure AuthEnv where
  tcpWrite : Message → TcpWrite
  createSession : Option IoError

abbrev AuthM := Handler Unit AuthEffect AuthError

structure AuthHandler where
  ed25519 : Ed25519
  authenticator : Authenticator
  limits : MessageLimits
  challenge : FixedBytes authChallengeLen

namespace AuthHandler

variable (self : AuthHandler) (env : AuthEnv)

def sendMessage (env : AuthEnv) (message : Message) : AuthM Unit :=
  match env.tcpWrite message with
  | .done => emit (.tcp message)
  | .failed source written => do
    emit (.tcpCut message written)
    throw (.connection source)
  | .dropped written => do
    emit (.tcpCut message written)
    drop

def sendProtocolErrorCloseBestEffort (env : AuthEnv) : AuthM Unit := do
  let _ ← attempt (sendMessage env (.close .protocolError))
  pure ()

def createSession (env : AuthEnv) (clientId : ClientId) (assignedIp : Ipv4Addr) : AuthM Unit :=
  match env.createSession with
  | some source => throw (.connection source)
  | none => emit (.created clientId assignedIp)

def handleAuth (payload : Bytes) : AuthM AuthStep :=
  match AuthPayload.decode payload with
  | .error err => throw (.payload err)
  | .ok auth =>
    match verifyAuthPayload self.ed25519 self.authenticator auth self.challenge with
    | .ok assignedIp => do
      sendMessage env (.authOk [])
      createSession env auth.clientId assignedIp
      pure (.done .authenticated)
    | .error code => do
      sendMessage env (.authFail [code.toByte])
      pure (.done (.rejected code))

def validateMessage (frame : Frame) : AuthM Message :=
  match validateMessageType frame.ty ⟨.client, .authentication, .tcp⟩ with
  | .error _ => throw (.protocolViolation frame.ty)
  | .ok () =>
    match frame.decode with
    | .error err => throw (.payload err)
    | .ok message => pure message

def handleAuthMessage (frame : Frame) : AuthM AuthStep := do
  match ← validateMessage frame with
  | .auth payload => self.handleAuth env payload
  | .ping nonce => do
    sendMessage env (.pong nonce)
    pure .continue
  | .pong _ => pure .continue
  | .close _ => pure (.done .completed)
  -- rejected by the validation
  | _ => pure .continue

/-! ## The loop -/

/-- A turn of the inner loop: an error that is the peer's fault is told to it. -/
def answer (frame : Frame) : AuthM AuthStep := do
  match ← attempt (self.handleAuthMessage env frame) with
  | .ok step => pure step
  | .error err => do
    if err.requiresProtocolClose then sendProtocolErrorCloseBestEffort env
    throw err

def rejectStream (env : AuthEnv) (err : MessageError) : AuthM AuthStep := do
  sendProtocolErrorCloseBestEffort env
  throw (.message err)

end AuthHandler

/-- Where `run_auth_loop` is: before a read, before a pop, at its end, or dropped
at the deadline. -/
inductive AuthPc where
  | reading
  | popping
  | returned (result : Except AuthError AuthPhaseResult)
  | expired
  deriving DecidableEq

inductive AuthRead where
  | bytes (chunk : Bytes)
  | failed (source : IoError)
  | expired

/-- `stream` is all that was read, `frames` what was popped from it. -/
structure AuthPhase where
  pc : AuthPc
  stream : Bytes
  frames : List OwnedMessageBuf
  readBuf : Bytes
  log : List AuthEffect

namespace AuthPhase

variable (handler : AuthHandler)

def initial : AuthPhase := ⟨.reading, [], [], [], []⟩

/-- `read_more`. No bytes mean that the peer has closed the stream. -/
def afterRead (a : AuthPhase) : AuthRead → AuthPhase
  | .bytes chunk =>
    if chunk.isEmpty then { a with pc := .returned (.error .connectionClosed) }
    else { a with pc := .popping, stream := a.stream ++ chunk, readBuf := a.readBuf ++ chunk }
  | .failed source => { a with pc := .returned (.error (.connection source)) }
  | .expired => { a with pc := .expired }

def pcAfter : Except (Stop AuthError) AuthStep → AuthPc
  | .ok .continue => .popping
  | .ok (.done result) => .returned (.ok result)
  | .error (.error err) => .returned (.error err)
  | .error .dropped => .expired

def afterPop (a : AuthPhase) (env : AuthEnv) : AuthPhase :=
  match popMessageBuf handler.limits a.readBuf with
  | (.error err, readBuf) =>
    let (result, _, out) := (AuthHandler.rejectStream env err).run ()
    { a with pc := pcAfter result, readBuf := readBuf, log := a.log ++ out }
  | (.ok none, readBuf) => { a with pc := .reading, readBuf := readBuf }
  | (.ok (some owned), readBuf) =>
    let (result, _, out) := (handler.answer env owned.message).run ()
    { a with pc := pcAfter result
             frames := a.frames ++ [owned]
             readBuf := readBuf
             log := a.log ++ out }

inductive Reachable : AuthPhase → Prop where
  | initial : Reachable initial
  | read {a : AuthPhase} (read : AuthRead) :
      Reachable a → a.pc = .reading → Reachable (a.afterRead read)
  | pop {a : AuthPhase} (env : AuthEnv) :
      Reachable a → a.pc = .popping → Reachable (a.afterPop handler env)

end AuthPhase

/-! ## What a session is created for -/

/-- The frame is an AUTH that the client's entry and the connection's challenge
verify. -/
structure AuthHandler.Verifies (handler : AuthHandler) (frame : Frame) (client : ClientEntry)
    (payload : AuthPayload) : Prop where
  auth : frame.ty = .auth
  decoded : AuthPayload.decode frame.payload = .ok payload
  configured : client ∈ handler.authenticator.clientsConfig
  enabled : client.enabled = true
  clientId : payload.clientId = client.clientId
  address : payload.assignedIpv4 = client.assignedIpv4
  mtu : payload.tunMtu = handler.authenticator.tunMtu
  challenge : payload.challenge = handler.challenge
  signature : handler.ed25519.verifyStrict client.pubkeyEd25519
    (authSignatureContext client.clientId client.assignedIpv4 handler.authenticator.tunMtu
      handler.challenge) payload.signature = true

theorem verifyAuthPayload_ok {handler : AuthHandler} {frame : Frame} {payload : AuthPayload}
    {assignedIp : Ipv4Addr} (hauth : frame.ty = .auth)
    (hdecoded : AuthPayload.decode frame.payload = .ok payload)
    (h : verifyAuthPayload handler.ed25519 handler.authenticator payload handler.challenge =
      .ok assignedIp) :
    ∃ client, handler.Verifies frame client payload ∧ client.assignedIpv4 = assignedIp := by
  unfold verifyAuthPayload at h
  split at h
  · cases h
  rename_i client hget
  split at h
  · cases h
  rename_i henabled
  split at h
  · cases h
  rename_i haddress
  split at h
  · cases h
  rename_i hmtu
  split at h
  · cases h
  rename_i hchallenge
  dsimp only at h
  split at h
  · cases h
  split at h
  · cases h
  rename_i hsignature
  cases h
  unfold Authenticator.get at hget
  have hid : client.clientId = payload.clientId := by simpa using List.find?_some hget
  have haddress := Decidable.not_not.mp haddress
  have hmtu := Decidable.not_not.mp hmtu
  refine ⟨client, ?_, rfl⟩
  refine
    { auth := hauth
      decoded := hdecoded
      configured := List.mem_reverse.mp (List.mem_of_find?_eq_some hget)
      enabled := by simpa using henabled
      clientId := hid.symm
      address := haddress.symm
      mtu := hmtu.symm
      challenge := Decidable.not_not.mp hchallenge
      signature := ?_ }
  rw [hid, haddress, hmtu]
  simpa using hsignature

namespace AuthHandler

def NotCreated : AuthEffect → Prop
  | .created _ _ => False
  | _ => True

/-- A session is created only when the step is the last one, and for a client
that the frame authenticates. -/
def Creates (handler : AuthHandler) (frame : Frame) (r : Except (Stop AuthError) AuthStep)
    (out : List AuthEffect) : Prop :=
  ∀ clientId assignedIp, .created clientId assignedIp ∈ out →
    r = .ok (.done .authenticated) ∧
      ∃ client payload, handler.Verifies frame client payload ∧ client.clientId = clientId ∧
        client.assignedIpv4 = assignedIp

section Creates

variable {handler : AuthHandler} {env : AuthEnv} {frame : Frame}

theorem creates_of_not {r : Except (Stop AuthError) AuthStep} {out : List AuthEffect}
    (h : ∀ x ∈ out, NotCreated x) : handler.Creates frame r out :=
  fun _ _ hmem => (h _ hmem).elim

theorem quiet_sendMessage (message : Message) :
    Keeps (fun _ => True) (.all NotCreated) () (sendMessage env message) := by
  unfold sendMessage
  split
  · exact .emit trivial trivial
  · exact .emit_bind trivial (.throw _ trivial)
  · exact .emit_bind trivial (.drop trivial)

theorem quiet_sendMessage_then {α : Type} (message : Message) (a : α) :
    Keeps (fun _ => True) (.all NotCreated) () (do sendMessage env message; pure a) :=
  (quiet_sendMessage message).bind fun _ _ _ => .pure _ trivial

theorem quiet_sendProtocolErrorCloseBestEffort :
    Keeps (fun _ => True) (.all NotCreated) () (sendProtocolErrorCloseBestEffort env) :=
  (quiet_sendMessage _).attempt.bind fun _ _ _ => .pure _ trivial

theorem creates_handleAuth (hauth : frame.ty = .auth) :
    Triple (handler.handleAuth env frame.payload) () fun r _ out =>
      handler.Creates frame r out := by
  unfold handleAuth
  split
  · exact creates_of_not fun _ hx => nomatch hx
  rename_i auth hdecoded
  split
  · rename_i assignedIp hverified
    refine Triple.bind (quiet_sendMessage _) (fun _ _ out hquiet => ?_)
      fun _ _ out hquiet => creates_of_not hquiet.2
    unfold createSession
    split
    · rw [triple_throw_bind, List.append_nil]
      exact creates_of_not hquiet.2
    · rw [triple_emit_bind, triple_pure]
      intro clientId ip hmem
      rcases List.mem_append.mp hmem with hmem | hmem
      · exact (hquiet.2 _ hmem).elim
      · cases List.mem_singleton.mp hmem
        obtain ⟨client, hclient, hip⟩ := verifyAuthPayload_ok hauth hdecoded hverified
        exact ⟨rfl, client, auth, hclient, hclient.clientId.symm, hip⟩
  · exact (quiet_sendMessage_then _ _).weaken fun _ _ _ h => creates_of_not h.2

theorem creates_handleAuthMessage :
    Triple (handler.handleAuthMessage env frame) () fun r _ out => handler.Creates frame r out := by
  have hnone {r : Except (Stop AuthError) AuthStep} : handler.Creates frame r [] :=
    creates_of_not fun _ hx => nomatch hx
  have hvalid : Triple (validateMessage frame) () fun r _ out =>
      out = [] ∧ ∀ message, r = .ok message → frame.decode = .ok message := by
    unfold validateMessage
    split
    · exact ⟨rfl, fun _ h => nomatch h⟩
    · split
      · exact ⟨rfl, fun _ h => nomatch h⟩
      · rename_i hdecoded
        refine ⟨rfl, fun _ h => ?_⟩
        cases h
        exact hdecoded
  refine hvalid.bind (fun message _ out hmessage => ?_) fun _ _ out hstop => hstop.1 ▸ hnone
  obtain ⟨rfl, hdecoded⟩ := hmessage
  have hdecoded := hdecoded message rfl
  simp only [List.nil_append]
  cases message with
  | auth payload =>
    obtain ⟨hauth, rfl⟩ := Frame.eq_of_decode_auth hdecoded
    exact creates_handleAuth hauth
  | ping nonce => exact (quiet_sendMessage_then _ _).weaken fun _ _ _ h => creates_of_not h.2
  | _ => exact hnone

theorem creates_answer :
    Triple (handler.answer env frame) () fun r _ out => handler.Creates frame r out := by
  refine Triple.attempt_bind creates_handleAuthMessage (fun step _ out h => ?_)
    (fun err _ out h => ?_) fun _ out h => ?_
  · rw [triple_pure, List.append_nil]
    intro clientId ip hmem
    obtain ⟨hr, hclient⟩ := h clientId ip hmem
    cases hr
    exact ⟨rfl, hclient⟩
  · -- an error means that no session was created, and the CLOSE creates none
    have hquiet : ∀ x ∈ out, NotCreated x := fun x hx => by
      cases x with
      | created clientId ip => exact nomatch (h clientId ip hx).1
      | _ => trivial
    have hrest : Keeps (fun _ => True) (.all NotCreated) () (do
        if err.requiresProtocolClose then sendProtocolErrorCloseBestEffort env
        Handler.throw err : AuthM AuthStep) := by
      split
      · exact quiet_sendProtocolErrorCloseBestEffort.bind fun _ _ _ => .throw _ trivial
      · exact .throw _ trivial
    exact Triple.weaken hrest fun _ _ out' h' => creates_of_not
      (List.forall_mem_append.mpr ⟨hquiet, h'.2⟩)
  · intro clientId ip hmem
    exact nomatch (h clientId ip hmem).1

theorem quiet_rejectStream (err : MessageError) :
    Keeps (fun _ => True) (.all NotCreated) () (rejectStream env err) :=
  quiet_sendProtocolErrorCloseBestEffort.bind fun _ _ _ => .throw _ trivial

end Creates

end AuthHandler

/-! ## Runs -/

namespace AuthPhase

/-- All bytes are in a popped frame or in the buffer, in order; and a session was
created for the last of the frames, if at all. -/
structure Inv (handler : AuthHandler) (a : AuthPhase) : Prop where
  bytes : a.stream = a.frames.flatMap (·.buf) ++ a.readBuf
  created : ∀ clientId assignedIp, .created clientId assignedIp ∈ a.log →
    a.pc = .returned (.ok .authenticated) ∧
      ∃ owned client payload, a.frames.getLast? = some owned ∧
        handler.Verifies owned.message client payload ∧ client.clientId = clientId ∧
        client.assignedIpv4 = assignedIp

section

variable {handler : AuthHandler} {a : AuthPhase} (h : a.Inv handler)
include h

theorem Inv.not_created (hpc : ∀ result, a.pc ≠ .returned result) :
    ∀ clientId assignedIp, .created clientId assignedIp ∉ a.log :=
  fun clientId assignedIp hmem => hpc _ (h.created clientId assignedIp hmem).1

theorem Inv.afterRead (hpc : a.pc = .reading) (read : AuthRead) :
    (a.afterRead read).Inv handler := by
  have hnone := h.not_created (by rw [hpc]; exact fun _ => AuthPc.noConfusion)
  cases read with
  | bytes chunk =>
    cases hchunk : chunk.isEmpty with
    | true =>
      simp only [AuthPhase.afterRead, hchunk, if_true]
      exact ⟨h.bytes, fun _ _ hmem => absurd hmem (hnone _ _)⟩
    | false =>
      simp only [AuthPhase.afterRead, hchunk, Bool.false_eq_true, if_false]
      refine ⟨?_, fun _ _ hmem => absurd hmem (hnone _ _)⟩
      dsimp only
      rw [h.bytes, List.append_assoc]
  | failed source => exact ⟨h.bytes, fun _ _ hmem => absurd hmem (hnone _ _)⟩
  | expired => exact ⟨h.bytes, fun _ _ hmem => absurd hmem (hnone _ _)⟩

theorem Inv.afterPop (hpc : a.pc = .popping) (env : AuthEnv) :
    (a.afterPop handler env).Inv handler := by
  have hnone := h.not_created (by rw [hpc]; exact fun _ => AuthPc.noConfusion)
  rcases hpop : popMessageBuf handler.limits a.readBuf with ⟨err | popped, readBuf⟩
  · obtain rfl := popMessageBuf_other hpop nofun
    simp only [AuthPhase.afterPop, hpop]
    refine ⟨h.bytes, fun clientId ip hmem => ?_⟩
    rcases List.mem_append.mp hmem with hmem | hmem
    · exact absurd hmem (hnone _ _)
    · exact ((AuthHandler.quiet_rejectStream err).2 _ hmem).elim
  cases popped with
  | none =>
    obtain rfl := popMessageBuf_other hpop nofun
    simp only [AuthPhase.afterPop, hpop]
    exact ⟨h.bytes, fun _ _ hmem => absurd hmem (hnone _ _)⟩
  | some owned =>
    obtain ⟨hbuf, -⟩ := popMessageBuf_some hpop
    simp only [AuthPhase.afterPop, hpop]
    refine ⟨?_, fun clientId ip hmem => ?_⟩
    · dsimp only
      rw [h.bytes, hbuf, List.flatMap_append, List.flatMap_singleton, List.append_assoc]
    · rcases List.mem_append.mp hmem with hmem | hmem
      · exact absurd hmem (hnone _ _)
      have hcreates : Triple (handler.answer env owned.message) () fun r _ out =>
          handler.Creates owned.message r out := AuthHandler.creates_answer
      obtain ⟨hr, client, payload, hverifies, hclient⟩ := hcreates clientId ip hmem
      refine ⟨?_, owned, client, payload, List.getLast?_concat, hverifies, hclient⟩
      dsimp only
      rw [hr]
      rfl

end

theorem reachable_inv {handler : AuthHandler} {a : AuthPhase} (ha : Reachable handler a) :
    a.Inv handler := by
  induction ha with
  | initial => exact ⟨rfl, fun _ _ hmem => nomatch hmem⟩
  | read read _ hpc ih => exact ih.afterRead hpc read
  | pop env _ hpc ih => exact ih.afterPop hpc env

end AuthPhase

end Slt.Server
