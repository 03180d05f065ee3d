import Slt.Client.Refinement
import Slt.Client.Run
import Slt.Server.Refinement
import Slt.Server.Run

/-!
# A client and a server

A run of a client session and a run of a server session, joined by a stream in
each direction and a UDP path. The streams are reliable and stay open. The UDP
path delivers packets that were sent, in any order, any number of times or
never, to the other end of the registration that they were protected with.
Timers fire and sockets fail at any time; identifiers and registrations are
drawn once. Other sessions use the server's registry in between.
-/

namespace Slt.Tunnel

open Lib Lib.Handler Proto

/-! ## The world -/

inductive Event where
  | clientGot (event : Client.SessionEvent)
  | clientDid (effect : Client.ClientEffect)
  | clientClosed
  | serverGot (event : Server.SessionEvent)
  | serverDid (effect : Server.ServerEffect)
  | serverClosed
  deriving DecidableEq

structure World where
  client : Client.ClientRun
  server : Server.ServerRun
  c2s : List Message
  s2c : List Message
  log : List Event

structure Setup where
  config : Client.ClientConfig
  handle : Server.SessionHandle
  allowedCiphers : List CipherSuite
  maxDataLen : Nat
  registry : Server.SessionRegistry

def Setup.initial (setup : Setup) : World where
  client := .initial setup.config
  server := .initial (.new setup.handle setup.allowedCiphers setup.maxDataLen setup.registry)
  c2s := []
  s2c := []
  log := []

def clientFrame : Client.ClientEffect → Option Message
  | .tcp message => some message
  | _ => none

def serverFrame : Server.ServerEffect → Option Message
  | .tcp message => some message
  | _ => none

/-! ## Moves -/

inductive Move where
  | client (env : Client.Env) (event : Client.SessionEvent)
  | clientClose (env : Client.Env)
  | server (env : Server.Env) (event : Server.SessionEvent)
  | serverClose (env : Server.Env)
  | registry (call : Server.ForeignCall)

def clientRest (s2c : List Message) : Client.SessionEvent → List Message
  | .tcpMessage _ => s2c.tail
  | _ => s2c

def serverRest (c2s : List Message) : Server.SessionEvent → List Message
  | .tcpMessage _ => c2s.tail
  | _ => c2s

namespace World

def clientOut (w : World) (env : Client.Env) (event : Client.SessionEvent) :
    List Client.ClientEffect :=
  ((Client.handleEvent env event).run w.client.session).2.2

def clientCloseOut (w : World) (env : Client.Env) (exit : Client.SessionExit) :
    List Client.ClientEffect :=
  ((Client.closeSession env exit).run w.client.session).2.2

def serverOut (w : World) (env : Server.Env) (event : Server.SessionEvent) :
    List Server.ServerEffect :=
  ((Server.handleEvent env event).run w.server.session).2.2

def serverCloseOut (w : World) (env : Server.Env) (outcome : Server.RunOutcome) :
    List Server.ServerEffect :=
  ((Server.closeSession env outcome).run w.server.session).2.2

def afterClient (w : World) (client : Client.ClientRun) (rest : List Message) (got : Event)
    (out : List Client.ClientEffect) : World :=
  { w with client := client
           c2s := w.c2s ++ out.filterMap clientFrame
           s2c := rest
           log := w.log ++ got :: out.map .clientDid }

def afterServer (w : World) (server : Server.ServerRun) (rest : List Message) (got : Event)
    (out : List Server.ServerEffect) : World :=
  { w with server := server
           c2s := rest
           s2c := w.s2c ++ out.filterMap serverFrame
           log := w.log ++ got :: out.map .serverDid }

def after (w : World) : Move → World
  | .client env event =>
    w.afterClient (w.client.afterEvent env event) (clientRest w.s2c event) (.clientGot event)
      (w.clientOut env event)
  | .clientClose env =>
    match w.client.phase with
    | .ended outcome =>
      w.afterClient (w.client.afterClose env outcome) w.s2c .clientClosed
        (w.clientCloseOut env outcome.exit)
    | _ => w
  | .server env event =>
    w.afterServer (w.server.afterEvent env event) (serverRest w.c2s event) (.serverGot event)
      (w.serverOut env event)
  | .serverClose env =>
    match w.server.phase with
    | .ended outcome =>
      w.afterServer (w.server.afterClose env outcome) w.c2s .serverClosed
        (w.serverCloseOut env outcome)
    | _ => w
  | .registry call => { w with server := w.server.afterForeign call }

/-! ## When a move can be made -/

/-- The streams and the UDP path have the event for the client. -/
def OffersClient (w : World) : Client.SessionEvent → Prop
  | .tcpMessage message => w.s2c.head? = some message
  | .tcpMalformed _ _ => False
  | .tcpUnframed _ => False
  | .tcpClosed => False
  | .tcpFailed _ => False
  | .udpMalformed _ _ => False
  | .udpResult (.ok packet) =>
    .serverDid (.udp packet.sender packet.message) ∈ w.log ∧
      ∃ transport ∈ w.client.session.udpReceiveTransport,
        transport.ofClient = packet.sender.ofServer
  | _ => True

def OffersServer (w : World) : Server.SessionEvent → Prop
  | .tcpMessage message => w.c2s.head? = some message
  | .tcpMalformed _ _ => False
  | .tcpUnframed _ => False
  | .tcpClosed => False
  | .tcpFailed _ => False
  | .udp ⟨_, _, sender, .message message⟩ =>
    .clientDid (.udp sender message) ∈ w.log ∧
      ∃ session ∈ w.server.session.udpSession, session.params.ofServer = sender.ofClient
  | .udp _ => False
  | _ => True

/-- Upgrade ids, fallback ids and registrations are drawn once. -/
def FreshClient (w : World) : Client.ClientEffect → Prop
  | .observe (.udpUpgradeStarted upgradeId) =>
    .clientDid (.observe (.udpUpgradeStarted upgradeId)) ∉ w.log
  | .tcp (.fallbackToTcp fallbackId) => .clientDid (.tcp (.fallbackToTcp fallbackId)) ∉ w.log
  | .tcp (.registerCid payload) => .clientDid (.tcp (.registerCid payload)) ∉ w.log
  | _ => True

def FreshServer (w : World) : Server.ServerEffect → Prop
  | .tcp (.fallbackToTcp fallbackId) => .serverDid (.tcp (.fallbackToTcp fallbackId)) ∉ w.log
  | _ => True

/-- The move is one that the parties and the network can make next. -/
def Admits (w : World) : Move → Prop
  | .client env event =>
    w.client.phase = .running ∧ w.client.session.polls event = true ∧ w.OffersClient event ∧
      ∀ effect ∈ w.clientOut env event, w.FreshClient effect
  | .clientClose env =>
    match w.client.phase with
    | .ended outcome => ∀ effect ∈ w.clientCloseOut env outcome.exit, w.FreshClient effect
    | _ => False
  | .server env event =>
    w.server.phase = .running ∧ w.server.session.polls event = true ∧ w.OffersServer event ∧
      ∀ effect ∈ w.serverOut env event, w.FreshServer effect
  | .serverClose env =>
    match w.server.phase with
    | .ended outcome => ∀ effect ∈ w.serverCloseOut env outcome, w.FreshServer effect
    | _ => False
  | .registry _ => True

end World

def Move.TcpOpen : Move → Prop
  | .client env _ => env.TcpOpen
  | .clientClose env => env.TcpOpen
  | .server env _ => env.TcpOpen
  | .serverClose env => env.TcpOpen
  | .registry _ => True

/-- `allowed` restricts the moves, for properties of runs without certain
failures. -/
inductive Reachable (allowed : World → Move → Prop) (setup : Setup) : World → Prop where
  | initial : Reachable allowed setup setup.initial
  | move {w : World} (move : Move) : Reachable allowed setup w → w.Admits move → move.TcpOpen →
      allowed w move → Reachable allowed setup (w.after move)

/-! ## Moves in a row -/

instance (phase : Server.Phase) : Decidable (phase = .running) :=
  match phase with
  | .running => isTrue rfl
  | .ended _ => isFalse nofun
  | .closed _ => isFalse nofun

namespace World

variable {w : World}

instance (event : Client.SessionEvent) : Decidable (w.OffersClient event) := by
  unfold OffersClient
  split <;> infer_instance

instance (event : Server.SessionEvent) : Decidable (w.OffersServer event) := by
  unfold OffersServer
  split <;> infer_instance

instance (effect : Client.ClientEffect) : Decidable (w.FreshClient effect) := by
  unfold FreshClient
  split <;> infer_instance

instance (effect : Server.ServerEffect) : Decidable (w.FreshServer effect) := by
  unfold FreshServer
  split <;> infer_instance

instance (move : Move) : Decidable (w.Admits move) := by
  unfold Admits
  split
  · infer_instance
  · split <;> infer_instance
  · infer_instance
  · split <;> infer_instance
  · infer_instance

/-- Every move meets the condition in the world that it is made in. -/
def All (p : World → Move → Prop) (w : World) : List Move → Prop
  | [] => True
  | move :: moves => p w move ∧ (w.after move).All p moves

theorem All.of_forall {p : World → Move → Prop} {moves : List Move}
    (h : ∀ w, ∀ move ∈ moves, p w move) : w.All p moves := by
  induction moves generalizing w with
  | nil => trivial
  | cons move moves ih =>
    exact ⟨h w move List.mem_cons_self, ih fun w m hm => h w m (List.mem_cons_of_mem _ hm)⟩

theorem All.mono {p q : World → Move → Prop} (h : ∀ w move, p w move → q w move)
    {moves : List Move} (hall : w.All p moves) : w.All q moves := by
  induction moves generalizing w with
  | nil => trivial
  | cons move moves ih => exact ⟨h w move hall.1, ih hall.2⟩

instance decidableAll {p : World → Move → Prop} [∀ w move, Decidable (p w move)] :
    (w : World) → (moves : List Move) → Decidable (w.All p moves)
  | _, [] => isTrue trivial
  | w, move :: moves =>
    have := decidableAll (p := p) (w.after move) moves
    inferInstanceAs (Decidable (_ ∧ _))

end World

theorem Reachable.moves {allowed : World → Move → Prop} {setup : Setup} {w : World}
    (h : Reachable allowed setup w) {moves : List Move} (hadmits : w.All World.Admits moves)
    (hopen : ∀ move ∈ moves, move.TcpOpen) (hallowed : w.All allowed moves) :
    Reachable allowed setup (moves.foldl World.after w) := by
  induction moves generalizing w with
  | nil => exact h
  | cons move moves ih =>
    rw [List.forall_mem_cons] at hopen
    exact ih (h.move move hadmits.1 hopen.1 hallowed.1) hadmits.2 hopen.2 hallowed.2

end Slt.Tunnel
