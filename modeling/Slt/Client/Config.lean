import Slt.Cli.ServerConfig
import Slt.Client.State
import Slt.Proto.Codec

/-!
# Client configurations

A client configuration and its validation. The runtime validates it before
anything else, so what the checks ask for holds in every run.
-/

namespace Slt.Client

open Lib (FixedBytes)
open Server (Ipv4Addr ClientId ConfigError)
open Cli (TunSettings validateInterval validateTimeout validatePingInterval)
open Proto

structure ClientNetworkConfig where
  hostname : String
  port : UInt16
  deriving DecidableEq

structure ClientIdentity where
  clientId : ClientId
  sharedSecret : FixedBytes 32
  assignedIpv4 : Ipv4Addr
  privkeyEd25519 : FixedBytes 32
  deriving DecidableEq

/-- Durations are in nanoseconds. -/
structure ClientTimingConfig where
  pingMin : Nat
  pingMax : Nat
  authTimeout : Nat
  tcpWriteTimeout : Nat
  registerTimeout : Nat
  quicDiscoveryTimeout : Nat
  udpLivenessTimeout : Nat
  idleTimeout : Nat
  metricsInterval : Nat
  reconnectMin : Nat
  reconnectMax : Nat
  deriving DecidableEq

def ClientTimingConfig.default : ClientTimingConfig where
  pingMin := 10 * 1000000000
  pingMax := 30 * 1000000000
  authTimeout := 10 * 1000000000
  tcpWriteTimeout := 10 * 1000000000
  registerTimeout := 10 * 1000000000
  quicDiscoveryTimeout := 15 * 1000000000
  udpLivenessTimeout := 90 * 1000000000
  idleTimeout := 300 * 1000000000
  metricsInterval := 300 * 1000000000
  reconnectMin := 200 * 1000000
  reconnectMax := 5 * 1000000000

/-- The configuration as it is loaded. `ClientConfig` is what a session reads of it. -/
structure StaticClientConfig where
  network : ClientNetworkConfig
  identity : ClientIdentity
  tun : TunSettings
  cipher : ClientUdpQspCipher
  enableUpgrade : Bool
  requireUdp : Bool
  timing : ClientTimingConfig
  deriving DecidableEq

/-- What only the validation of a client configuration can find wrong, and what it
shares with that of a server. -/
inductive ClientConfigError where
  | common (e : ConfigError)
  | emptyHostname
  | clientTunIpMismatch (tunIpv4 assignedIpv4 : Ipv4Addr)
  | invalidReconnectInterval (reconnectMin reconnectMax : Nat)
  | requireUdpNeedsUpgrade
  deriving DecidableEq

abbrev ClientCheck := Except ClientConfigError Unit

def commonCheck (check : Except ConfigError Unit) : ClientCheck := check.mapError .common

def refuseIf (bad : Prop) [Decidable bad] (e : ClientConfigError) : ClientCheck :=
  if bad then .error e else .ok ()

def ClientNetworkConfig.validate (self : ClientNetworkConfig) : ClientCheck := do
  refuseIf (self.hostname = "") .emptyHostname
  refuseIf (self.port = 0) (.common (.zeroPort "network.port"))

def ClientTimingConfig.validate (self : ClientTimingConfig) : ClientCheck := do
  commonCheck (validatePingInterval self.pingMin self.pingMax)
  commonCheck (validateInterval "reconnect_min" self.reconnectMin)
  commonCheck (validateInterval "reconnect_max" self.reconnectMax)
  refuseIf (self.reconnectMin > self.reconnectMax)
    (.invalidReconnectInterval self.reconnectMin self.reconnectMax)
  commonCheck (validateTimeout "auth_timeout" self.authTimeout)
  commonCheck (validateTimeout "tcp_write_timeout" self.tcpWriteTimeout)
  commonCheck (validateTimeout "register_timeout" self.registerTimeout)
  commonCheck (validateTimeout "quic_discovery_timeout" self.quicDiscoveryTimeout)
  commonCheck (validateTimeout "udp_liveness_timeout" self.udpLivenessTimeout)
  commonCheck (validateTimeout "idle_timeout" self.idleTimeout)
  commonCheck (validateTimeout "metrics_interval" self.metricsInterval)

def StaticClientConfig.validate (self : StaticClientConfig) : ClientCheck := do
  self.network.validate
  commonCheck self.tun.validate
  refuseIf (self.tun.tunIpv4 ≠ self.identity.assignedIpv4)
    (.clientTunIpMismatch self.tun.tunIpv4 self.identity.assignedIpv4)
  self.timing.validate
  refuseIf (self.requireUdp ∧ ¬self.enableUpgrade) .requireUdpNeedsUpgrade

/-! ## What the checks ask for -/

theorem check_bind {check : ClientCheck} {rest : Unit → ClientCheck} :
    check >>= rest = .ok () ↔ check = .ok () ∧ rest () = .ok () := by
  cases check <;> simp [bind, Except.bind]

@[simp] theorem refuseIf_ok {bad : Prop} [Decidable bad] {e : ClientConfigError} :
    refuseIf bad e = .ok () ↔ ¬bad := by
  unfold refuseIf
  split <;> simp [*]

@[simp] theorem commonCheck_ok {check : Except ConfigError Unit} :
    commonCheck check = .ok () ↔ check = .ok () := by
  cases check <;> simp [commonCheck, Except.mapError]

@[simp] theorem validateInterval_ok {field : String} {value : Nat} :
    validateInterval field value = .ok () ↔ Cli.minInterval ≤ value := by
  unfold validateInterval Cli.rejectIf
  split <;> simp <;> omega

/-- The bounds that the timers of a session and of the reconnect loop rely on. -/
theorem ClientTimingConfig.reconnect_of_validate {timing : ClientTimingConfig}
    (h : timing.validate = .ok ()) :
    Cli.minInterval ≤ timing.reconnectMin ∧ timing.reconnectMin ≤ timing.reconnectMax := by
  simp only [validate, check_bind, commonCheck_ok, validateInterval_ok, refuseIf_ok] at h
  obtain ⟨-, hmin, -, hle, -⟩ := h
  exact ⟨hmin, Nat.not_lt.mp hle⟩

theorem StaticClientConfig.timing_of_validate (config : StaticClientConfig)
    (h : config.validate = .ok ()) : config.timing.validate = .ok () := by
  simp only [validate, check_bind] at h
  obtain ⟨-, -, -, htiming, -⟩ := h
  exact htiming

/-! ## A configuration -/

def StaticClientConfig.plain : StaticClientConfig where
  network := ⟨"vpn.example", 443⟩
  identity := ⟨.self (List.replicate 16 0), .self (List.replicate 32 0), .self [10, 10, 0, 2],
    .self (List.replicate 32 0)⟩
  tun := ⟨⟨.self [10, 10, 0, 2], 24⟩, "tun0", 1186⟩
  cipher := .auto
  enableUpgrade := true
  requireUdp := false
  timing := .default

theorem StaticClientConfig.validate_plain : StaticClientConfig.plain.validate = .ok () := by
  decide

end Slt.Client
