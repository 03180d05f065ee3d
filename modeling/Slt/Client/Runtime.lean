import Slt.Client.Config
import Slt.Client.Session
import Slt.Lib.Machine

/-!
# The client runtime

The task that connects, runs one session after another and waits in between,
under the supervision of the two TUN tasks. The task is polled; each poll takes it
past at most one `await`, with the results that the futures of the outside have
ready. Between polls anything may happen: the token is cancelled, commands
arrive, a TUN task ends. A session is seen from outside: the events it emits, the
commands it takes and how it ends.

Errors are carried as values where the source renders them to text.
-/

namespace Slt.Client

open Lib (Machine U64.saturatingAdd)
open Proto

/-! ## Errors of the connect and auth sequence -/

inductive TlsErrorCode where
  | syscall
  | zeroReturn
  | other (code : Nat)
  deriving DecidableEq

inductive TlsError where
  | setup
  | handshake (code : TlsErrorCode) (verifyError : Option Nat) (ioErrorKind : Option IoErrorKind)
  deriving DecidableEq

/-- A failed verification is never transient. -/
def TlsError.isTransientIo : TlsError → Bool
  | .setup => false
  | .handshake code verifyError ioErrorKind =>
    if verifyError.isSome then false
    else ioErrorKind.isSome || code = .syscall || code = .zeroReturn

inductive ConnectError where
  | cancelled
  | emptyHostname
  | tcpSocketCreate (source : IoError)
  | socketProtect (source : IoError)
  | tcpConnectTimeout
  | tcpConnect (source : IoError)
  | tlsHandshakeTimeout
  | tlsHandshake (source : TlsError)
  | authRejected (code : AuthFailCode)
  | authTimeout
  | authDisconnected
  | authProtocolError
  | authUnexpectedMessage
  | authTlsExport
  | dnsResolution (source : IoError)
  | io (source : IoError)
  | frame (e : FrameError)
  | message (e : MessageError)
  | payload (e : PayloadError)
  deriving DecidableEq

/-- The system's code for an unreachable network. -/
def IoErrorKind.networkUnreachable : IoErrorKind := .other 101

def ConnectError.isRetriable : ConnectError → Bool
  | .cancelled => false
  | .emptyHostname => false
  | .tcpSocketCreate _ => false
  | .authRejected _ => false
  | .authProtocolError => false
  | .authUnexpectedMessage => false
  | .authTlsExport => false
  | .frame _ => false
  | .message _ => false
  | .payload _ => false
  | .tcpConnectTimeout => true
  | .authTimeout => true
  | .authDisconnected => true
  | .tlsHandshakeTimeout => true
  | .dnsResolution _ => true
  | .socketProtect source =>
    source.kind = .notConnected || source.kind = IoErrorKind.networkUnreachable
  | .tcpConnect source => source.kind ≠ .permissionDenied
  | .tlsHandshake source => source.isTransientIo
  | .io source => source.kind ≠ .permissionDenied

/-! ## The TUN tasks -/

inductive TunTaskResult where
  | returned
  | failed (source : IoError)
  | panicked
  | cancelled
  deriving DecidableEq

inductive TunTaskError where
  | io (task : TunTask) (source : IoError)
  | panic (task : TunTask)
  | cancelled (task : TunTask)
  | unexpectedExit (task : TunTask)
  | channelClosed (task : TunTask)
  | faultSignalled
  deriving DecidableEq

def classifyTaskExit (task : TunTask) : TunTaskResult → TunTaskError
  | .returned => .unexpectedExit task
  | .failed source => .io task source
  | .panicked => .panic task
  | .cancelled => .cancelled task

/-- The handle of a task, until its output has been taken. -/
inductive TaskHandle where
  | running
  | finished (result : TunTaskResult)
  | taken
  deriving DecidableEq

structure TunHandles where
  reader : TaskHandle
  writer : TaskHandle
  deriving DecidableEq

namespace TunHandles

def get (self : TunHandles) : TunTask → TaskHandle
  | .reader => self.reader
  | .writer => self.writer

def set (self : TunHandles) (task : TunTask) (handle : TaskHandle) : TunHandles :=
  match task with
  | .reader => { self with reader := handle }
  | .writer => { self with writer := handle }

/-- `wait_for_task`, when the handle is there. -/
def pollTask (self : TunHandles) (task : TunTask) : Option (TunTaskError × TunHandles) :=
  match self.get task with
  | .finished result => some (classifyTaskExit task result, self.set task .taken)
  | _ => none

/-- `wait_for_exit`: the select polls the two handles in either order. -/
def pollExit (self : TunHandles) (first : TunTask) : Option (TunTaskError × TunHandles) :=
  match first with
  | .reader => (self.pollTask .reader).or (self.pollTask .writer)
  | .writer => (self.pollTask .writer).or (self.pollTask .reader)

/-- `shutdown` has nothing left to wait for. -/
def joined (self : TunHandles) : Bool := self.reader ≠ .running && self.writer ≠ .running

end TunHandles

/-! ## Errors and events of the runtime -/

inductive RuntimeError where
  | connect (e : ConnectError)
  | session (e : SessionError)
  | tun (e : TunTaskError)
  deriving DecidableEq

def SessionExit.isTransient : SessionExit → Bool
  | .tcpClosed => true
  | .idleTimeout => true
  | .remoteClose _ => true
  | .connectionError => true
  | .networkChanged => true
  | _ => false

def RuntimeError.isRestartRetriable : RuntimeError → Bool
  | .connect e => e.isRetriable
  | .session e => e.exit.isTransient
  | .tun _ => false

/-- The events of the runtime, and those that a session has emitted through it. -/
inductive RuntimeEventKind where
  | starting
  | tunReady
  | stopping
  | stopped
  | error (e : RuntimeError) (retryable : Bool)
  | connecting (attempt : Nat)
  | connectedTcp (peer : Option SocketAddr)
  | authenticating
  | authenticated
  | reconnectScheduled (attempt delayMs : Nat)
  | reconnectFailed (attempt : Nat) (e : ConnectError)
  | session (kind : ClientEventKind)
  deriving DecidableEq

structure ClientEvent where
  handle : UInt64
  seq : UInt64
  transport : ActiveTransport
  kind : RuntimeEventKind
  deriving DecidableEq

structure ObserverSink where
  handle : UInt64
  seq : UInt64 := 1
  transport : ActiveTransport := .tcp
  deriving DecidableEq

namespace ObserverSink

def setTransport (self : ObserverSink) (transport : ActiveTransport) : ObserverSink :=
  { self with transport }

def event (self : ObserverSink) (kind : RuntimeEventKind) : ClientEvent :=
  { handle := self.handle, seq := self.seq, transport := self.transport, kind }

def emit (self : ObserverSink) : List RuntimeEventKind → ObserverSink × List ClientEvent
  | [] => (self, [])
  | kind :: kinds =>
    (emit { self with seq := self.seq + 1 } kinds).map id (self.event kind :: ·)

end ObserverSink

/-! ## Backoff -/

/-- The longest duration that the standard library has. -/
def maxDuration : Nat := 2 ^ 64 * 1000000000 - 1

/-- Whole milliseconds, as far as a `u64` goes. -/
def asMillis (duration : Nat) : Nat := min (duration / 1000000) (2 ^ 64 - 1)

structure ReconnectBackoff where
  base : Nat
  max : Nat
  current : Nat
  deriving DecidableEq

namespace ReconnectBackoff

def new (base max : Nat) : ReconnectBackoff := ⟨base, max, base⟩

def reset (self : ReconnectBackoff) : ReconnectBackoff := { self with current := self.base }

/-- The delay in milliseconds. `random` is what the generator is asked to bring
into the range of the jitter. -/
def nextDelay (self : ReconnectBackoff) (random : Nat) : Nat × ReconnectBackoff :=
  let next := if 2 * self.current ≤ maxDuration then 2 * self.current else self.max
  let capMs := asMillis self.current
  let half := capMs / 2
  let jitter := random % (half + 1)
  (U64.saturatingAdd (capMs - half) jitter, { self with current := min next self.max })

end ReconnectBackoff

/-! ## State -/

structure CommandChannel where
  queue : List ClientCommand
  closed : Bool
  deriving DecidableEq

/-- What the outer select has made of the TUN tasks. -/
inductive Supervision where
  | watching
  /-- A task ended after the cancellation. -/
  | draining
  /-- A task ended before the cancellation. -/
  | failing (e : TunTaskError)
  deriving DecidableEq

/-- The `await` that the task is at. -/
inductive RuntimePhase where
  | fresh
  | looping
  | connecting
  | authenticating
  | session
  | closing (outcome : SessionOutcome)
  | waiting
  | resolving (task : TunTask)
  | stopping (result : Except RuntimeError Unit)
  | ended (result : Except RuntimeError Unit)
  | panicked

namespace RuntimePhase

/-- `run_sessions` has begun and has not returned. -/
def inLoop : RuntimePhase → Bool
  | .looping => true
  | .connecting => true
  | .authenticating => true
  | .session => true
  | .closing _ => true
  | .waiting => true
  | _ => false

def active : RuntimePhase → Bool
  | .fresh => true
  | phase => phase.inLoop

end RuntimePhase

structure ClientRuntime where
  cancelled : Bool
  tunFault : Bool
  handles : TunHandles
  supervision : Supervision
  control : Option CommandChannel
  backoff : ReconnectBackoff
  attempt : Nat
  observer : ObserverSink
  phase : RuntimePhase

/-- What the futures of the outside give when the task is polled, and the choices
that a poll makes. -/
structure Ready where
  /-- The TUN handle that is polled first. -/
  firstTask : TunTask := .reader
  /-- The cancellation is polled before the connection is. -/
  cancelFirst : Bool := false
  connect : Option (Except ConnectError (Option SocketAddr)) := none
  auth : Option (Except ConnectError Unit) := none
  session : Option (Except SessionError SessionExit) := none
  /-- The closing steps of the session are over. -/
  closed : Bool := false
  slept : Bool := false
  random : Nat := 0

inductive RuntimeInput where
  | cancel
  | taskExits (task : TunTask) (result : TunTaskResult)
  | send (command : ClientCommand)
  | closeControl
  | sessionEmits (kind : ClientEventKind) (transport : Option ActiveTransport)
  | sessionTakesCommand
  | poll (io : Ready)

/-! ## Ends of a session -/

def SessionOutcome.ofResult : Except SessionError SessionExit → SessionOutcome
  | .ok exit => ⟨exit, none⟩
  | .error err => ⟨err.exit, some err⟩

inductive SessionAction where
  | break
  | fatal (e : SessionError)
  | tunChannelClosed (task : TunTask)
  | tunFault
  | reconnect
  | reconnectNow
  deriving DecidableEq

/-- An exit that stands for an error may come without one. -/
def handleSessionExit (outcome : SessionOutcome) (cancelled : Bool) : SessionAction :=
  if cancelled then .break
  else
    match outcome.exit with
    | .shutdown => .break
    | .tunClosed task => .tunChannelClosed task
    | .tunFault => .tunFault
    | .protocolError => .fatal (outcome.error.getD (.protocolViolation "protocol error"))
    | .permissionDenied =>
      .fatal (outcome.error.getD (.permissionDenied ⟨.other 0, "permission denied"⟩))
    | .udpUpgradeRequired => .fatal (outcome.error.getD .udpUpgradeRequired)
    | .tcpClosed => .reconnect
    | .idleTimeout => .reconnect
    | .remoteClose _ => .reconnect
    | .connectionError => .reconnect
    | .networkChanged => .reconnectNow

/-! ## Steps -/

def networkChangedEvent : RuntimeEventKind :=
  .session (.networkChanged "underlying network changed")

namespace ClientRuntime

abbrev Outcome := ClientRuntime × List ClientEvent

def initial (config : StaticClientConfig) (handle : UInt64) (control : Option CommandChannel) :
    ClientRuntime where
  cancelled := false
  tunFault := false
  handles := ⟨.running, .running⟩
  supervision := .watching
  control := control
  backoff := .new config.timing.reconnectMin config.timing.reconnectMax
  attempt := 0
  observer := { handle }
  phase := .fresh

def goto (self : ClientRuntime) (phase : RuntimePhase) (kinds : List RuntimeEventKind) :
    Outcome :=
  let (observer, events) := self.observer.emit kinds
  ({ self with observer, phase }, events)

/-- `recv_control`: a command, the end of the channel, or neither yet. -/
def recvControl (self : ClientRuntime) : Option (Option ClientCommand × ClientRuntime) :=
  match self.control with
  | none => none
  | some ⟨command :: queue, closed⟩ =>
    some (some command, { self with control := some ⟨queue, closed⟩ })
  | some ⟨[], true⟩ => some (none, { self with control := none })
  | some ⟨[], false⟩ => none

/-- The token is cancelled and what is left of the runtime waits for its tasks. -/
def stopWith (self : ClientRuntime) (result : Except RuntimeError Unit) : Outcome :=
  goto { self with cancelled := true } (.stopping result) []

/-- `resolve_tun_channel_failure`. The source panics when the handle is gone. -/
def resolveTunChannelFailure (self : ClientRuntime) (result : Except RuntimeError Unit) : Outcome :=
  match result with
  | .error (.tun (.channelClosed task)) =>
    self.goto (if self.handles.get task = .taken then .panicked else .resolving task) []
  | result => self.stopWith result

/-- `run_sessions` has returned. -/
def finish (self : ClientRuntime) (result : Except RuntimeError Unit) : Outcome :=
  match self.supervision with
  | .failing e => self.resolveTunChannelFailure (.error (.tun e))
  | _ => self.resolveTunChannelFailure result

def faulted (self : ClientRuntime) : Outcome := self.finish (.error (.tun .faultSignalled))

/-- Up to the select of `schedule_reconnect`, after other events. -/
def scheduleReconnect (self : ClientRuntime) (random : Nat) (before : List RuntimeEventKind) :
    Outcome :=
  let (delay, backoff) := self.backoff.nextDelay random
  goto { self with backoff } .waiting
    (before ++ [.reconnectScheduled ((self.attempt + 1) % 2 ^ 64) delay])

/-- Up to the select of `try_connect`. -/
def tryConnect (self : ClientRuntime) : Outcome :=
  if self.tunFault then self.faulted
  else if self.cancelled then self.finish (.ok ())
  else
    let attempt := U64.saturatingAdd self.attempt 1
    goto { self with attempt, observer := self.observer.setTransport .tcp } .connecting
      [.connecting attempt]

/-- `connect_authenticated` has failed. -/
def connectFailed (self : ClientRuntime) (random : Nat) (e : ConnectError) : Outcome :=
  if self.tunFault then self.faulted
  else if self.cancelled then self.finish (.ok ())
  else if !e.isRetriable then self.finish (.error (.connect e))
  else self.scheduleReconnect random [.reconnectFailed self.attempt e]

/-- A select of the token and a future, in an order that is drawn. -/
def raceCancel {α : Type} (self : ClientRuntime) (cancelFirst : Bool)
    (ready : Option (Except ConnectError α)) : Option (Except ConnectError α) :=
  if self.cancelled && cancelFirst then some (.error .cancelled)
  else ready.or (if self.cancelled then some (.error .cancelled) else none)

/-- The control branch of the select of `try_connect`. -/
def handleConnectCommand (self : ClientRuntime) : Outcome :=
  match self.recvControl with
  | none => (self, [])
  | some (some .networkChanged, self) => self.goto .looping [networkChangedEvent]
  | some (_, self) => finish { self with cancelled := true } (.ok ())

def pollConnecting (self : ClientRuntime) (io : Ready) : Outcome :=
  if self.tunFault then self.faulted
  else
    match self.raceCancel io.cancelFirst io.connect with
    | some (.ok peer) => self.goto .authenticating [.connectedTcp peer, .authenticating]
    | some (.error e) => self.connectFailed io.random e
    | none => self.handleConnectCommand

def pollAuthenticating (self : ClientRuntime) (io : Ready) : Outcome :=
  if self.tunFault then self.faulted
  else
    match self.raceCancel io.cancelFirst io.auth with
    | some (.ok ()) =>
      goto { self with backoff := self.backoff.reset } .session [.authenticated]
    | some (.error e) => self.connectFailed io.random e
    | none => self.handleConnectCommand

/-- The select of `ClientSession::run`. -/
def pollSession (self : ClientRuntime) (io : Ready) : Outcome :=
  if self.tunFault then self.goto (.closing ⟨.tunFault, none⟩) []
  else if self.cancelled then self.goto (.closing ⟨.shutdown, none⟩) []
  else
    match io.session with
    | none => (self, [])
    | some result => self.goto (.closing (SessionOutcome.ofResult result)) []

def afterSession (self : ClientRuntime) (random : Nat) : SessionAction → Outcome
  | .break => self.finish (.ok ())
  | .fatal e => self.finish (.error (.session e))
  | .tunChannelClosed task => self.finish (.error (.tun (.channelClosed task)))
  | .tunFault => self.faulted
  | .reconnect => self.scheduleReconnect random []
  | .reconnectNow => self.goto .looping []

def pollClosing (self : ClientRuntime) (outcome : SessionOutcome) (io : Ready) : Outcome :=
  if io.closed then self.afterSession io.random (handleSessionExit outcome self.cancelled)
  else (self, [])

/-- The select of `schedule_reconnect`. -/
def pollWaiting (self : ClientRuntime) (io : Ready) : Outcome :=
  if self.tunFault || self.cancelled || io.slept then self.goto .looping []
  else
    match self.recvControl with
    | none => (self, [])
    | some (some .networkChanged, self) => self.goto .looping [networkChangedEvent]
    | some (_, self) => goto { self with cancelled := true } .looping []

/-- The TUN branch of the outer select, which is polled before the sessions are. -/
def supervise (self : ClientRuntime) (first : TunTask) : ClientRuntime :=
  match self.supervision with
  | .watching =>
    match self.handles.pollExit first with
    | none => self
    | some (e, handles) =>
      if self.cancelled then { self with handles, supervision := .draining }
      else { self with handles, tunFault := true, supervision := .failing e }
  | _ => self

def pollResolving (self : ClientRuntime) (task : TunTask) : Outcome :=
  match self.handles.pollTask task with
  | none => (self, [])
  | some (e, handles) => stopWith { self with handles } (.error (.tun e))

def terminalEvents : Except RuntimeError Unit → List RuntimeEventKind
  | .ok () => [.stopping, .stopped]
  | .error e => [.error e e.isRestartRetriable]

def pollStopping (self : ClientRuntime) (result : Except RuntimeError Unit) : Outcome :=
  if self.handles.joined then self.goto (.ended result) (terminalEvents result) else (self, [])

def poll (self : ClientRuntime) (io : Ready) : Outcome :=
  match self.phase with
  | .fresh => self.goto .looping [.starting, .tunReady]
  | .looping => (self.supervise io.firstTask).tryConnect
  | .connecting => (self.supervise io.firstTask).pollConnecting io
  | .authenticating => (self.supervise io.firstTask).pollAuthenticating io
  | .session => (self.supervise io.firstTask).pollSession io
  | .closing outcome => (self.supervise io.firstTask).pollClosing outcome io
  | .waiting => (self.supervise io.firstTask).pollWaiting io
  | .resolving task => self.pollResolving task
  | .stopping result => self.pollStopping result
  | .ended _ => (self, [])
  | .panicked => (self, [])

def inSession (self : ClientRuntime) : Bool :=
  match self.phase with
  | .session => true
  | .closing _ => true
  | _ => false

def sessionEmits (self : ClientRuntime) (kind : ClientEventKind)
    (transport : Option ActiveTransport) : Outcome :=
  if self.inSession then
    goto { self with observer := self.observer.setTransport (transport.getD self.observer.transport) }
      self.phase [.session kind]
  else (self, [])

/-- The session takes a command from the channel, and a stop cancels the token. -/
def sessionTakesCommand (self : ClientRuntime) : ClientRuntime :=
  match self.phase, self.control with
  | .session, some ⟨command :: queue, closed⟩ =>
    { self with
      control := some ⟨queue, closed⟩
      cancelled := self.cancelled || command = .stop }
  | _, _ => self

def onControl (self : ClientRuntime) (f : CommandChannel → CommandChannel) : ClientRuntime :=
  { self with control := self.control.map f }

def step (self : ClientRuntime) : RuntimeInput → Outcome
  | .cancel => ({ self with cancelled := true }, [])
  | .taskExits task result =>
    if self.handles.get task = .running then
      ({ self with handles := self.handles.set task (.finished result) }, [])
    else (self, [])
  | .send command => (self.onControl fun c => { c with queue := c.queue ++ [command] }, [])
  | .closeControl => (self.onControl fun c => { c with closed := true }, [])
  | .sessionEmits kind transport => self.sessionEmits kind transport
  | .sessionTakesCommand => (self.sessionTakesCommand, [])
  | .poll io => self.poll io

/-- Every list of inputs is a run: an input that finds nothing to do changes nothing. -/
def machine : Machine ClientRuntime RuntimeInput ClientEvent where
  step := step
  Enabled _ _ := True

end ClientRuntime

end Slt.Client
