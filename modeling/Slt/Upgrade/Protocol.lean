import Mathlib.Data.List.Basic
import Mathlib.Logic.Relation

/-!
# The upgrade and fallback protocol

What the two sessions do to each other, without the code around it. A client
registers keys, proves a UDP path with probes, and switches over a handshake
on a FIFO stream; either side can call the switch off with a fallback
request. Registrations, connection ids and identifiers are arbitrary types:
`R` with the connection id `cid r` of a registration, `C` and `I`.

Each party is a relation between the states before and after one input and
the actions it takes on the way. Actions are the only output: the streams,
the packets on the UDP path and the record of what happened all grow by them.
-/

namespace Slt.Upgrade

variable {R C I : Type}

/-! ## Messages and actions -/

inductive ClientMessage (R I : Type) where
  | register (r : R)
  | ready (u : I)
  | ack (u : I)
  | fallback (f : I)
  | fallbackOk (f : I)

inductive ServerMessage (C I : Type) where
  | registerOk (c : C)
  | registerFail
  | switchTo (u : I)
  | switchOk (u : I)
  | fallback (f : I)
  | fallbackOk (f : I)

/-- A probe or its echo, protected with the keys of a registration. -/
structure Probe (R I : Type) where
  registration : R
  upgradeId : I
  nonce : I

inductive ClientAction (R I : Type) where
  | write (m : ClientMessage R I)
  | probe (p : Probe R I)
  | start (u : I)

inductive ServerAction (R C I : Type) where
  | write (m : ServerMessage C I)
  | echo (p : Probe R I)
  | install (r : R)
  | retire (r : R)
  | prefer (udp : Bool)
  | silence

/-- What wakes a party: its own timers and sockets, the head of the stream, or
a packet. -/
inductive Input (M R I : Type) where
  | tick
  | message (m : M)
  | packet (p : Probe R I)

/-- The input can be taken: a message is the head of the stream, of which `rest`
remains, and a packet has been sent. -/
def Input.Taken {M : Type} (stream rest : List M) (sent : Probe R I → Prop) : Input M R I → Prop
  | .tick => stream = rest
  | .message m => stream = m :: rest
  | .packet p => stream = rest ∧ sent p

/-! ## The client -/

inductive Registration (R : Type) where
  | none
  | inFlight (r : R)
  | active (r : R)

namespace Registration

def current : Registration R → Option R
  | .none => Option.none
  | .inFlight r => some r
  | .active r => some r

@[simp] theorem current_none : (Registration.none : Registration R).current = Option.none := rfl
@[simp] theorem current_inFlight (r : R) : (inFlight r).current = some r := rfl
@[simp] theorem current_active (r : R) : (active r).current = some r := rfl

end Registration

/-- The upgrade attempt of the client: sending probes, having announced that
its probe was echoed, or having accepted the switch. -/
inductive Attempt (I : Type) where
  | idle
  | probing (u n : I)
  | ready (u n : I)
  | awaiting (u : I)

structure Client (R I : Type) where
  udp : Bool
  registration : Registration R
  attempt : Attempt I
  pending : Option I
  lastPeer : Option I

namespace Client

def initial : Client R I := ⟨false, .none, .idle, none, none⟩

/-- Falling back asks the peer once: a request on its way is not repeated. -/
def request (c : Client R I) (f : I) : Client R I :=
  { c with udp := false, pending := some (c.pending.getD f) }

def requests (c : Client R I) (f : I) : List (ClientAction R I) :=
  match c.pending with
  | none => [.write (.fallback f)]
  | some _ => []

end Client

/-- Inputs that the client may pass over: every one that its state has no use
for. A fallback request is always answered. -/
def Client.Ignores (c : Client R I) : Input (ServerMessage C I) R I → Prop
  | .message (.switchOk u) => c.attempt ≠ .awaiting u
  | .message (.fallbackOk f) => c.pending ≠ some f
  | .message (.fallback _) => False
  | _ => True

inductive ClientStep (cid : R → C) (c : Client R I) :
    Input (ServerMessage C I) R I → Client R I → List (ClientAction R I) → Prop where
  | skip (input : Input (ServerMessage C I) R I) (ignored : c.Ignores input) :
      ClientStep cid c input c []
  | register (r : R) (idle : c.registration = .none) :
      ClientStep cid c .tick { c with registration := .inFlight r } [.write (.register r)]
  | expire (r : R) (pending : c.registration = .inFlight r) :
      ClientStep cid c .tick { c with registration := .none } []
  | refused (r : R) (pending : c.registration = .inFlight r) :
      ClientStep cid c (.message .registerFail) { c with registration := .none } []
  | probe (r : R) (u n : I) (probing : c.attempt = .probing u n)
      (active : c.registration = .active r) :
      ClientStep cid c .tick c [.probe ⟨r, u, n⟩]
  | giveUp (quiet : ∀ u, c.attempt ≠ .awaiting u) :
      ClientStep cid c .tick { c with attempt := .idle } []
  | retry (r : R) (u n : I) (idle : c.attempt = .idle) (active : c.registration = .active r)
      (tcp : c.udp = false) :
      ClientStep cid c .tick { c with attempt := .probing u n } [.start u]
  /-- The confirmation of the switch does not come. -/
  | abandon (u f : I) (awaiting : c.attempt = .awaiting u) :
      ClientStep cid c .tick { c.request f with attempt := .idle } (c.requests f)
  /-- The UDP path failed: back to the stream, and to a new registration. -/
  | fallBack (f : I) :
      ClientStep cid c .tick { c.request f with registration := .none, attempt := .idle }
        (c.requests f)
  /-- The probe itself could not be sent. -/
  | unsent (r : R) (u n f : I) (probing : c.attempt = .probing u n)
      (active : c.registration = .active r) :
      ClientStep cid c .tick { c.request f with registration := .none, attempt := .idle }
        (.probe ⟨r, u, n⟩ :: c.requests f)
  | registered (r : R) (u n : I) (pending : c.registration = .inFlight r) :
      ClientStep cid c (.message (.registerOk (cid r)))
        { c with registration := .active r, attempt := .probing u n } [.start u]
  | echoed (r : R) (u n : I) (probing : c.attempt = .probing u n)
      (active : c.registration = .active r) :
      ClientStep cid c (.packet ⟨r, u, n⟩) { c with attempt := .ready u n } [.write (.ready u)]
  | accept (u n : I) (ready : c.attempt = .ready u n) :
      ClientStep cid c (.message (.switchTo u)) { c with attempt := .awaiting u } [.write (.ack u)]
  | commit (u : I) (awaiting : c.attempt = .awaiting u) :
      ClientStep cid c (.message (.switchOk u))
        { c with udp := true, attempt := .idle, pending := none } []
  | yield (f : I) (fresh : c.lastPeer ≠ some f) :
      ClientStep cid c (.message (.fallback f))
        { c with udp := false, registration := .none, attempt := .idle, lastPeer := some f }
        [.write (.fallbackOk f)]
  | yielded (f : I) (seen : c.lastPeer = some f) :
      ClientStep cid c (.message (.fallback f)) c [.write (.fallbackOk f)]
  | settled (f : I) (asked : c.pending = some f) :
      ClientStep cid c (.message (.fallbackOk f)) { c with pending := none } []

/-! ## The server -/

structure Server (R I : Type) where
  udp : Bool
  session : Option R
  upgradeId : Option I
  probeSeen : Bool
  readySeen : Bool
  switchSent : Bool
  pending : Option I
  lastPeer : Option I

namespace Server

def initial : Server R I := ⟨false, none, none, false, false, false, none, none⟩

def clear (v : Server R I) : Server R I :=
  { v with upgradeId := none, probeSeen := false, readySeen := false, switchSent := false }

/-- The UDP session is gone, and the attempt on it. -/
def retire (v : Server R I) : Server R I := { v.clear with udp := false, session := none }

def retires (v : Server R I) : List (ServerAction R C I) := v.session.toList.map .retire

def request (v : Server R I) (f : I) : Server R I :=
  { v with pending := some (v.pending.getD f) }

def requests (v : Server R I) (f : I) : List (ServerAction R C I) :=
  match v.pending with
  | none => [.write (.fallback f)]
  | some _ => []

/-- The switch is requested once the probe and the announcement are both in. -/
def offer (v : Server R I) : Server R I :=
  { v with switchSent := v.switchSent || (v.probeSeen && v.readySeen) }

def offers (v : Server R I) (u : I) : List (ServerAction R C I) :=
  if v.probeSeen && v.readySeen && !v.switchSent then [.write (.switchTo u)] else []

/-- A send that fails or is cut off may come before or after the packet is out. -/
def echoes (sent : Bool) (p : Probe R I) : List (ServerAction R C I) :=
  if sent then [.echo p] else []

/-- The attempt that the client announced and the server still follows. -/
def Follows (v : Server R I) (u : I) : Prop := v.upgradeId = some u ∧ v.readySeen = true

def Ignores (v : Server R I) : Input (ClientMessage R I) R I → Prop
  | .message (.ack u) => v.upgradeId = some u → v.switchSent = false
  | .message (.fallbackOk f) => v.pending ≠ some f
  | .message (.fallback _) => False
  | _ => True

end Server

inductive ServerStep (cid : R → C) (v : Server R I) :
    Input (ClientMessage R I) R I → Server R I → List (ServerAction R C I) → Prop where
  | skip (input : Input (ClientMessage R I) R I) (ignored : v.Ignores input) :
      ServerStep cid v input v []
  | install (r : R) (tcp : v.udp = false) :
      ServerStep cid v (.message (.register r)) { v.clear with session := some r }
        [.install r, .write (.registerOk (cid r))]
  | refuse (r : R) : ServerStep cid v (.message (.register r)) v [.write .registerFail]
  | probed (p : Probe R I) (keys : v.session = some p.registration)
      (same : v.upgradeId = some p.upgradeId) :
      ServerStep cid v (.packet p) { v with probeSeen := true }.offer
        (.echo p :: { v with probeSeen := true }.offers p.upgradeId)
  /-- The server is shut down while it sends the echo. -/
  | interrupted (p : Probe R I) (sent : Bool) (keys : v.session = some p.registration)
      (same : v.upgradeId = some p.upgradeId) :
      ServerStep cid v (.packet p) { v with probeSeen := true } (Server.echoes sent p)
  /-- A probe of another attempt takes the place of the one before it. -/
  | superseded (p : Probe R I) (sent : Bool) (keys : v.session = some p.registration)
      (other : v.upgradeId ≠ some p.upgradeId) :
      ServerStep cid v (.packet p)
        { v.clear with upgradeId := some p.upgradeId, probeSeen := true } (Server.echoes sent p)
  /-- The echo could not be sent: the server drops its UDP session and does not
  tell the client. -/
  | dropped (p : Probe R I) (sent : Bool) (keys : v.session = some p.registration) :
      ServerStep cid v (.packet p) v.retire
        (Server.echoes sent p ++ [.retire p.registration, .silence])
  | announced (u : I) (free : v.upgradeId = none ∨ v.upgradeId = some u) :
      ServerStep cid v (.message (.ready u))
        { v with upgradeId := some u, readySeen := true }.offer
        ({ v with upgradeId := some u, readySeen := true }.offers u)
  | switched (u : I) (same : v.upgradeId = some u) (offered : v.switchSent = true) :
      ServerStep cid v (.message (.ack u)) { v.clear with udp := true }
        [.prefer true, .write (.switchOk u)]
  /-- The UDP path failed, and the client is told. -/
  | failed (f : I) :
      ServerStep cid v .tick (v.retire.request f) (v.retires ++ v.requests f)
  | yield (f : I) (fresh : v.lastPeer ≠ some f) :
      ServerStep cid v (.message (.fallback f))
        { v.clear with udp := false, lastPeer := some f } [.write (.fallbackOk f)]
  | yielded (f : I) (seen : v.lastPeer = some f) :
      ServerStep cid v (.message (.fallback f)) v [.write (.fallbackOk f)]
  | settled (f : I) (asked : v.pending = some f) :
      ServerStep cid v (.message (.fallbackOk f)) { v with pending := none } []

/-! ## Both parties -/

inductive Event (R C I : Type) where
  | clientGot (input : Input (ServerMessage C I) R I)
  | clientDid (a : ClientAction R I)
  | serverGot (input : Input (ClientMessage R I) R I)
  | serverDid (a : ServerAction R C I)

/-- Both parties, the streams between them and all that happened so far. The
packets on the UDP path are the ones of the record: any of them may arrive, any
number of times, or never. -/
structure State (R C I : Type) where
  client : Client R I
  server : Server R I
  c2s : List (ClientMessage R I)
  s2c : List (ServerMessage C I)
  log : List (Event R C I)

@[simp] def ClientAction.message : ClientAction R I → Option (ClientMessage R I)
  | .write m => some m
  | .probe _ => none
  | .start _ => none

@[simp] def ServerAction.message : ServerAction R C I → Option (ServerMessage C I)
  | .write m => some m
  | .echo _ => none
  | .install _ => none
  | .retire _ => none
  | .prefer _ => none
  | .silence => none

namespace State

def initial : State R C I := ⟨.initial, .initial, [], [], []⟩

/-- Identifiers and registrations are drawn once. -/
def FreshClient (s : State R C I) : ClientAction R I → Prop
  | .start u => .clientDid (.start u) ∉ s.log
  | .write (.fallback f) => .clientDid (.write (.fallback f)) ∉ s.log
  | .write (.register r) => .clientDid (.write (.register r)) ∉ s.log
  | _ => True

def FreshServer (s : State R C I) : ServerAction R C I → Prop
  | .write (.fallback f) => .serverDid (.write (.fallback f)) ∉ s.log
  | _ => True

def afterClient (s : State R C I) (input : Input (ServerMessage C I) R I)
    (rest : List (ServerMessage C I)) (c : Client R I) (acts : List (ClientAction R I)) :
    State R C I :=
  { s with client := c, c2s := s.c2s ++ acts.filterMap ClientAction.message, s2c := rest,
           log := s.log ++ .clientGot input :: acts.map .clientDid }

def afterServer (s : State R C I) (input : Input (ClientMessage R I) R I)
    (rest : List (ClientMessage R I)) (v : Server R I) (acts : List (ServerAction R C I)) :
    State R C I :=
  { s with server := v, c2s := rest, s2c := s.s2c ++ acts.filterMap ServerAction.message,
           log := s.log ++ .serverGot input :: acts.map .serverDid }

end State

inductive Step (cid : R → C) (s : State R C I) : State R C I → Prop where
  | client (input : Input (ServerMessage C I) R I) (rest : List (ServerMessage C I))
      (c : Client R I) (acts : List (ClientAction R I))
      (offered : input.Taken s.s2c rest fun p => .serverDid (.echo p) ∈ s.log)
      (taken : ClientStep cid s.client input c acts) (fresh : ∀ a ∈ acts, s.FreshClient a) :
      Step cid s (s.afterClient input rest c acts)
  | server (input : Input (ClientMessage R I) R I) (rest : List (ClientMessage R I))
      (v : Server R I) (acts : List (ServerAction R C I))
      (offered : input.Taken s.c2s rest fun p => .clientDid (.probe p) ∈ s.log)
      (taken : ServerStep cid s.server input v acts) (fresh : ∀ a ∈ acts, s.FreshServer a) :
      Step cid s (s.afterServer input rest v acts)

def Reachable (cid : R → C) : State R C I → Prop :=
  Relation.ReflTransGen (Step cid) State.initial

end Slt.Upgrade
