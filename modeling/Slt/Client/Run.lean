import Slt.Client.Consistency

/-!
# Runs of a client session

A run takes events as long as its loop is in progress, and then does the
closing steps. It keeps the effects of all it has done. Which events with
which environments may occur is a parameter, so that a property can be stated
for runs without certain failures.
-/

namespace Slt.Client

open Lib Lib.Handler Proto

inductive Phase where
  | running
  | ended (outcome : SessionOutcome)
  | closed (outcome : SessionOutcome)
  deriving DecidableEq

structure ClientRun where
  session : ClientSession
  phase : Phase
  log : List ClientEffect

namespace ClientRun

def initial (config : ClientConfig) : ClientRun := ⟨.new config, .running, []⟩

def afterEvent (w : ClientRun) (env : Env) (event : SessionEvent) : ClientRun :=
  let (result, session, out) := (handleEvent env event).run w.session
  { session := session
    phase :=
      match outcomeOf env result with
      | none => .running
      | some outcome => .ended outcome
    log := w.log ++ out }

def afterClose (w : ClientRun) (env : Env) (outcome : SessionOutcome) : ClientRun :=
  let (_, session, out) := (closeSession env outcome.exit).run w.session
  { session := session, phase := .closed outcome, log := w.log ++ out }

inductive Reachable (allowed : Env → SessionEvent → Prop) (config : ClientConfig) :
    ClientRun → Prop where
  | initial : Reachable allowed config (initial config)
  | event {w : ClientRun} (env : Env) (event : SessionEvent) :
      Reachable allowed config w → w.phase = .running → w.session.polls event = true →
      allowed env event → Reachable allowed config (w.afterEvent env event)
  | close {w : ClientRun} (env : Env) (outcome : SessionOutcome) :
      Reachable allowed config w → w.phase = .ended outcome →
      Reachable allowed config (w.afterClose env outcome)

/-! ## The invariant over a run -/

structure Sound (w : ClientRun) : Prop where
  session : w.session.AtLoop
  log : ∀ e ∈ w.log, Consistent e

theorem Sound.afterEvent {w : ClientRun} (h : w.Sound) (env : Env) {event : SessionEvent}
    (hpolls : w.session.polls event = true) : (w.afterEvent env event).Sound := by
  obtain ⟨hsession, hout⟩ := consistent_handleEvent h.session env hpolls
  exact ⟨hsession, List.forall_mem_append.mpr ⟨h.log, hout⟩⟩

theorem Sound.afterClose {w : ClientRun} (h : w.Sound) (env : Env) (outcome : SessionOutcome) :
    (w.afterClose env outcome).Sound := by
  obtain ⟨hsession, hout⟩ := consistent_closeSession h.session env outcome.exit
  exact ⟨hsession.atLoop, List.forall_mem_append.mpr ⟨h.log, hout⟩⟩

theorem Reachable.sound {allowed : Env → SessionEvent → Prop} {config : ClientConfig}
    {w : ClientRun} (h : Reachable allowed config w) : w.Sound := by
  induction h with
  | initial => exact ⟨(ClientSession.calm_new config).atLoop, fun _ he => (nomatch he)⟩
  | event env event _ _ hpolls _ ih => exact ih.afterEvent env hpolls
  | close env outcome _ _ ih => exact ih.afterClose env outcome

/-- Whatever happens to a session, at every point of its loop the preferred
transport, the UDP path, the upgrade attempt, the retained transport, the
discovery task and the stream fit together; no inconsistency is ever reported,
and a discovery result comes only while one is waited for. -/
theorem client_session_consistent {config : ClientConfig} {w : ClientRun}
    (h : Reachable (fun _ _ => True) config w) :
    ((w.session.activeTransport = .udpQsp → w.session.udpState.IsActive ∧
        w.session.udpUpgrade = .idle ∧ w.session.lastAuthenticatedUdpActivity.isSome) ∧
      (w.session.udpUpgrade.IsAttempt →
        w.session.udpState.IsActive ∧ w.session.activeTransport = .tcp) ∧
      (w.session.retainedUdpTransport.isSome → w.session.udpState.IsReplacing) ∧
      (w.session.discoveryTask = true → w.session.udpState = .needDiscovery) ∧
      (w.session.tcpAlive = false → w.session.activeTransport = .udpQsp)) ∧
    (∀ detail, .inconsistent detail ∉ w.log) ∧
    ∀ ids, w.session.polls (.discoveryResult ids) = true → w.session.udpState = .needDiscovery := by
  have hsound := h.sound
  have hinv := hsound.session.inv
  refine ⟨⟨hinv.udp, hinv.attempt, hinv.retained, hinv.discovery, hinv.alive⟩, ?_, ?_⟩
  · intro detail hmem
    cases hsound.log _ hmem
  · intro ids hpolls
    refine hinv.discovery ?_
    cases hr : w.session.refresh <;> simp [ClientSession.polls, hr] at hpolls
    exact hpolls

end ClientRun

/-! ## An environment without failures -/

def RegistrationDraw.zero : RegistrationDraw :=
  ⟨.replicate _ 0, .replicate _ 0, 0, 0⟩

def Env.quiet : Env where
  now := 0
  fallbackId := 1
  upgradeId := 2
  probeNonce := 3
  pingNonce := 4
  replacedPingNonce := 5
  probeDelay := 1
  upgradeDelay := 1
  aesAccelerated := true
  registration := .zero
  randomFailure := false
  keysFailure := none
  socketFailure := none
  tcpWrite := fun _ => .done
  udpWrite := fun _ => .done
  udpFlush := fun _ => .done
  replacedWrite := fun _ => .done
  replacedFlush := fun _ => .done
  replaceIoDropped := false
  tunSend := .accepted
  closeExpires := false
  cancellation := .shutdown

def ClientConfig.upgrading : ClientConfig := ⟨true, false, .auto, 1400, 10⟩

namespace ClientRun

def someIds : QuicIds :=
  ⟨.filled 1, .filled 2, ⟨[127, 0, 0, 1], 443⟩⟩

def discovering : ClientRun := (initial .upgrading).afterEvent .quiet .udpReconnectTick

def discovered : ClientRun := discovering.afterEvent .quiet (.discoveryResult (some someIds))

def registering : ClientRun := discovered.afterEvent .quiet .udpReconnectTick

def registered : ClientRun := registering.afterEvent .quiet (.tcpMessage (.registerOk someIds.dcid))

def probing : ClientRun := registered.afterEvent .quiet .udpUpgradeTick

theorem reachable_probing : Reachable (fun _ _ => True) .upgrading probing := by
  have hdiscovering : Reachable (fun _ _ => True) .upgrading discovering :=
    .event _ _ .initial rfl rfl trivial
  have hdiscovered : Reachable _ _ discovered := .event _ _ hdiscovering rfl rfl trivial
  have hregistering : Reachable _ _ registering := .event _ _ hdiscovered rfl rfl trivial
  have hregistered : Reachable _ _ registered := .event _ _ hregistering rfl rfl trivial
  exact .event _ _ hregistered rfl rfl trivial

def someServer : QspSessionParams where
  scid := someIds.dcid
  dcid := someIds.scid
  cipher := .aes128Gcm
  secretTx := RegistrationDraw.zero.secretS2c
  secretRx := RegistrationDraw.zero.secretC2s
  sendPn := 0
  recvExpectedPn := 0
  keyPhase := false

def validated : ClientRun :=
  probing.afterEvent .quiet (.udpResult (.ok ⟨someServer, .upgradeProbeAck 2 3⟩))

def acknowledged : ClientRun := validated.afterEvent .quiet (.tcpMessage (.switchToUdp 2))

def switched : ClientRun := acknowledged.afterEvent .quiet (.tcpMessage (.switchOk 2))

/-- A session that has switched to UDP. -/
theorem client_session_consistent_switched :
    switched.session.activeTransport = .udpQsp ∧ switched.session.udpState.IsActive ∧
      switched.session.udpUpgrade = .idle ∧
      switched.session.lastAuthenticatedUdpActivity.isSome := by
  have hvalidated : Reachable _ _ validated := .event _ _ reachable_probing rfl rfl trivial
  have hacknowledged : Reachable _ _ acknowledged := .event _ _ hvalidated rfl rfl trivial
  have hswitched : Reachable _ _ switched := .event _ _ hacknowledged rfl rfl trivial
  exact ⟨rfl, (client_session_consistent hswitched).1.1 rfl⟩

end ClientRun

end Slt.Client
