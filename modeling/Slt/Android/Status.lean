/-!
# The UI state of the VPN

The state that native events are reduced to, and what the reduction reports of
terminal events.
-/

namespace Slt.Android

inductive VpnStatus where
  | idle
  | permissionRequired
  | starting
  | running
  | reconnecting
  | handoff
  | stopped
  | error
  deriving DecidableEq, Repr

inductive VpnPhase where
  | idle
  | starting
  | connectingTcp
  | authenticating
  | connected
  | udpDiscovering
  | udpRegistering
  | udpUpgrading
  | reconnecting
  | networkHandoff
  | stopping
  | stopped
  | error
  deriving DecidableEq, Repr

inductive EventTransport where
  | tcp
  | udpQsp
  deriving DecidableEq, Repr

structure VpnUiState where
  status : VpnStatus := .idle
  phase : VpnPhase := .idle
  transport : Option EventTransport := none
  reconnectAttempt : Option Nat := none
  reconnectDelayMs : Option Nat := none
  lastError : Option String := none
  deriving DecidableEq, Repr

/-- The data of an event that the reduction does not look at is left out. -/
inductive ClientEventKind where
  | starting
  | tunReady
  | stopping
  | stopped
  | error (detail : String) (retryable : Bool)
  | connecting
  | connectedTcp
  | authenticating
  | authenticated
  | reconnectScheduled (attempt delayMs : Nat)
  | reconnectFailed (attempt : Nat) (detail : String)
  | udpDiscoveryStarted
  | udpDiscoveryFailed (detail : String)
  | udpRegisterStarted
  | udpRegistered
  | udpRegisterFailed (detail : String)
  | udpUpgradeStarted
  | udpPathValidated
  | udpSwitchCommitted
  | transportChanged
  | networkChanged
  | udpPathRefreshStarted
  | udpPathRefreshSucceeded
  | udpPathRefreshFailed (detail : String)
  deriving DecidableEq, Repr

structure ClientEvent where
  handle : Nat
  transport : Option EventTransport
  kind : ClientEventKind
  deriving DecidableEq, Repr

inductive NativeTerminal where
  | none
  | stopped
  | errored (retryable : Bool)
  deriving DecidableEq, Repr

namespace VpnUiState

def withStatusHeld (s : VpnUiState) : VpnUiState :=
  if s.status = .idle then { s with status := .starting } else s

def recoveredStatus (s : VpnUiState) : VpnStatus :=
  if s.status = .handoff then .running else s.status

/-- The new state for an event, when the status is not terminal. -/
def reduce (current : VpnUiState) (event : ClientEvent) : VpnUiState :=
  match event.kind with
  | .starting => { status := .starting, phase := .starting }
  | .tunReady => { current.withStatusHeld with phase := .starting }
  | .connecting => { current.withStatusHeld with phase := .connectingTcp, reconnectDelayMs := none }
  | .connectedTcp => { current.withStatusHeld with phase := .connectingTcp }
  | .authenticating => { current.withStatusHeld with phase := .authenticating }
  | .authenticated =>
    { current with
      status := .running, phase := .connected, transport := event.transport
      reconnectAttempt := none, reconnectDelayMs := none }
  | .reconnectScheduled attempt delayMs =>
    { current with
      status := .reconnecting, phase := .reconnecting
      reconnectAttempt := some attempt, reconnectDelayMs := some delayMs }
  | .reconnectFailed attempt detail =>
    { current with
      status := .reconnecting, phase := .reconnecting
      reconnectAttempt := some attempt, lastError := some detail }
  | .transportChanged =>
    { current with status := current.recoveredStatus, transport := event.transport }
  | .networkChanged => { current with status := .handoff, phase := .networkHandoff }
  | .udpDiscoveryStarted =>
    { current with status := current.recoveredStatus, phase := .udpDiscovering }
  | .udpDiscoveryFailed detail =>
    { current with
      status := current.recoveredStatus, phase := .connected, lastError := some detail }
  | .udpRegisterStarted =>
    { current with status := current.recoveredStatus, phase := .udpRegistering }
  | .udpRegistered => { current with status := current.recoveredStatus, phase := .udpUpgrading }
  | .udpRegisterFailed detail =>
    { current with
      status := current.recoveredStatus, phase := .connected, lastError := some detail }
  | .udpUpgradeStarted => { current with status := current.recoveredStatus, phase := .udpUpgrading }
  | .udpPathValidated => { current with status := current.recoveredStatus, phase := .udpUpgrading }
  | .udpSwitchCommitted =>
    { current with
      status := current.recoveredStatus, phase := .connected, transport := event.transport }
  | .udpPathRefreshStarted => { current with status := .handoff, phase := .networkHandoff }
  | .udpPathRefreshSucceeded => { current with status := .running, phase := .connected }
  | .udpPathRefreshFailed detail =>
    { current with status := .handoff, phase := .networkHandoff, lastError := some detail }
  | .stopping => { current with phase := .stopping }
  | .stopped => { status := .stopped, phase := .stopped }
  | .error detail retryable =>
    if retryable then
      { current with status := .reconnecting, phase := .reconnecting, lastError := some detail }
    else { current with status := .error, phase := .error, lastError := some detail }

def markError (detail : String) : VpnUiState :=
  { status := .error, phase := .error, lastError := some detail }

def markNativeRestartScheduled (s : VpnUiState) (detail : String) (attempt delayMs : Nat) :
    VpnUiState :=
  { s with
    status := .reconnecting, phase := .reconnecting
    reconnectAttempt := some attempt, reconnectDelayMs := some delayMs, lastError := some detail }

end VpnUiState

def ClientEventKind.terminal : ClientEventKind → NativeTerminal
  | .stopped => .stopped
  | .error _ retryable => .errored retryable
  | _ => .none

/-- A terminal status is kept, whatever event comes. -/
def applyEvent (current : VpnUiState) (event : ClientEvent) : VpnUiState × NativeTerminal :=
  if current.status = .stopped ∨ current.status = .error then (current, .none)
  else (current.reduce event, event.kind.terminal)

theorem applyEvent_errored {current : VpnUiState} {event : ClientEvent} {retryable : Bool}
    (h : (applyEvent current event).2 = .errored retryable) :
    ∃ detail, event.kind = .error detail retryable := by
  unfold applyEvent at h
  split at h
  · exact nomatch h
  · cases hkind : event.kind with
    | error detail retryable' =>
      rw [hkind] at h
      obtain rfl : retryable' = retryable := NativeTerminal.errored.inj h
      exact ⟨detail, rfl⟩
    | _ =>
      rw [hkind] at h
      exact nomatch h

end Slt.Android
