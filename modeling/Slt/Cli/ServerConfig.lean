import Slt.Server.Config
import Mathlib.Data.List.Nodup

/-!
# Server configurations

A server configuration as the command line tools load, change and save it. Its
validation looks at the settings and at the clients separately, so that a change
of the clients alone keeps a configuration valid if the clients still pass.
-/

namespace Slt.Cli

open Lib (Bytes FixedBytes)
open Server

structure Path where
  absolute : Bool
  parts : List String
  deriving DecidableEq

inductive TlsMaterial where
  | pem (pem : Bytes)
  | file (file : Path)
  deriving DecidableEq

structure ServerNetworkConfig where
  listenTcp : SocketAddr
  listenUdp : SocketAddr
  nginxTcpUpstream : SocketAddr
  nginxUdpUpstream : SocketAddr
  deriving DecidableEq

structure ServerTlsConfig where
  tlsCert : TlsMaterial
  tlsKey : TlsMaterial
  deriving DecidableEq

/-- The TUN settings, with those that the checks of the clients read. -/
structure TunSettings extends TunConfig where
  tunName : String
  tunMtu : UInt16
  deriving DecidableEq

/-- Durations are in nanoseconds. -/
structure ServerTimingConfig where
  pingMin : Nat
  pingMax : Nat
  authTimeout : Nat
  tcpWriteTimeout : Nat
  udpLivenessTimeout : Nat
  idleTimeout : Nat
  metricsInterval : Nat
  tcpClassificationTimeout : Nat
  deriving DecidableEq

structure ServerUdpQspConfig where
  allowedCiphers : List CipherSuite
  deriving DecidableEq

structure ServerTransportConfig where
  udpQsp : ServerUdpQspConfig
  deriving DecidableEq

/-- An entry of the clients, with what their checks do not read. -/
structure ConfiguredClient extends ServerClient where
  pubkeyEd25519 : FixedBytes 32
  enabled : Bool
  deriving DecidableEq

structure ServerConfig where
  serverSecret : FixedBytes 32
  network : ServerNetworkConfig
  tls : ServerTlsConfig
  tun : TunSettings
  timing : ServerTimingConfig
  transport : ServerTransportConfig
  udpNatMaxEntries : Nat
  sessionQueueSize : Nat
  maxAuthInflight : Nat
  tcpConnectionCap : Nat
  clients : List ConfiguredClient
  deriving DecidableEq

/-! ## Validation -/

def maxTunMtu : UInt16 := 1406

def minInterval : Nat := 1000000

def maxTimeout : Nat := 3600 * 1000000000

def rejectIf (bad : Prop) [Decidable bad] (e : ConfigError) : Except ConfigError Unit :=
  if bad then .error e else .ok ()

def validatePort (field : String) (addr : SocketAddr) : Except ConfigError Unit :=
  rejectIf (addr.port = 0) (.zeroPort field)

def ServerNetworkConfig.validate (self : ServerNetworkConfig) : Except ConfigError Unit := do
  validatePort "network.listen_tcp" self.listenTcp
  validatePort "network.listen_udp" self.listenUdp
  validatePort "network.nginx_tcp_upstream" self.nginxTcpUpstream
  validatePort "network.nginx_udp_upstream" self.nginxUdpUpstream

def TunSettings.validate (self : TunSettings) : Except ConfigError Unit := do
  rejectIf (self.tunName = "") .emptyTunName
  rejectIf (self.tunMtu = 0 ∨ self.tunMtu > maxTunMtu) (.invalidTunMtu self.tunMtu maxTunMtu)
  rejectIf (self.tunPrefix = 0 ∨ self.tunPrefix > 32) (.invalidTunPrefix self.tunPrefix)

def validateInterval (field : String) (value : Nat) : Except ConfigError Unit :=
  rejectIf (value < minInterval) (.intervalTooSmall field value minInterval)

def validateTimeout (field : String) (value : Nat) : Except ConfigError Unit := do
  rejectIf (value = 0) (.zeroTimeout field)
  rejectIf (value > maxTimeout) (.timeoutTooLarge field value maxTimeout)

def validatePingInterval (pingMin pingMax : Nat) : Except ConfigError Unit := do
  validateInterval "ping_min" pingMin
  validateInterval "ping_max" pingMax
  rejectIf (pingMin > pingMax) (.invalidPingInterval pingMin pingMax)

def ServerTimingConfig.validate (self : ServerTimingConfig) : Except ConfigError Unit := do
  validatePingInterval self.pingMin self.pingMax
  validateTimeout "auth_timeout" self.authTimeout
  validateTimeout "tcp_write_timeout" self.tcpWriteTimeout
  validateTimeout "udp_liveness_timeout" self.udpLivenessTimeout
  validateTimeout "idle_timeout" self.idleTimeout
  validateTimeout "metrics_interval" self.metricsInterval
  validateTimeout "tcp_classification_timeout" self.tcpClassificationTimeout

def ServerUdpQspConfig.validate (self : ServerUdpQspConfig) : Except ConfigError Unit :=
  rejectIf (self.allowedCiphers = []) .emptyUdpQspAllowedCiphers

def ServerTransportConfig.validate (self : ServerTransportConfig) : Except ConfigError Unit :=
  self.udpQsp.validate

namespace ServerConfig

def entries (self : ServerConfig) : List ServerClient :=
  self.clients.map ConfiguredClient.toServerClient

def validate (self : ServerConfig) : Except ConfigError Unit := do
  self.network.validate
  self.tun.validate
  validateClients self.tun.toTunConfig self.entries
  self.timing.validate
  self.transport.validate
  rejectIf (self.sessionQueueSize = 0) .zeroSessionQueueSize
  rejectIf (self.maxAuthInflight = 0) .zeroMaxAuthInflight
  rejectIf (self.tcpConnectionCap = 0) .zeroTcpConnectionCap
  rejectIf (self.udpNatMaxEntries = 0) .zeroUdpNatMaxEntries

/-- The clients are checked, and apart from them only the settings are. -/
theorem validate_setClients {config : ServerConfig} (h : config.validate = .ok ()) :
    validateClients config.tun.toTunConfig config.entries = .ok () ∧
      ∀ clients : List ConfiguredClient,
        validateClients config.tun.toTunConfig (clients.map (·.toServerClient)) = .ok () →
        validate { config with clients := clients } = .ok () := by
  unfold validate at h
  cases hnetwork : config.network.validate with
  | error e =>
    rw [hnetwork] at h
    cases h
  | ok =>
    cases htun : config.tun.validate with
    | error e =>
      rw [hnetwork, htun] at h
      cases h
    | ok =>
      cases hclients : validateClients config.tun.toTunConfig config.entries with
      | error e =>
        rw [hnetwork, htun, hclients] at h
        cases h
      | ok =>
        rw [hnetwork, htun, hclients] at h
        refine ⟨rfl, fun clients hnew => ?_⟩
        simp only [validate, entries]
        rw [hnetwork, htun, hnew]
        exact h

/-! ## Changes of the clients -/

def withClient (self : ServerConfig) (client : ConfiguredClient) : ServerConfig :=
  { self with clients := self.clients ++ [client] }

def withoutClient (self : ServerConfig) (clientId : ClientId) : ServerConfig :=
  { self with clients := self.clients.filter (·.clientId ≠ clientId) }

variable {config : ServerConfig}

theorem take_withClient (config : ServerConfig) (client : ConfiguredClient) :
    { config.withClient client with
      clients := (config.withClient client).clients.take config.clients.length } = config := by
  simp [withClient]

theorem pairwise_of_validate (h : config.validate = .ok ()) :
    config.entries.Pairwise ServerClient.Distinct :=
  (validateClients_eq_ok.mp (validate_setClients h).1).2

theorem validate_withClient (h : config.validate = .ok ()) {client : ConfiguredClient}
    (haddr : config.tun.Assignable client.assignedIpv4)
    (hid : ∀ other ∈ config.clients, other.clientId ≠ client.clientId)
    (hnew : ∀ other ∈ config.clients, other.assignedIpv4 ≠ client.assignedIpv4) :
    (config.withClient client).validate = .ok () := by
  obtain ⟨hclients, hchange⟩ := validate_setClients h
  obtain ⟨hfits, hpairs⟩ := validateClients_eq_ok.mp hclients
  refine hchange _ (validateClients_eq_ok.mpr ?_)
  rw [List.map_append, List.map_singleton]
  constructor
  · intro other hother
    obtain hother | hother := List.mem_append.mp hother
    · exact hfits other hother
    · rw [List.mem_singleton.mp hother]
      exact haddr
  · rw [List.pairwise_append]
    refine ⟨hpairs, List.pairwise_singleton _ _, ?_⟩
    simp only [List.mem_map, List.mem_singleton]
    rintro _ ⟨other, hother, rfl⟩ _ rfl
    exact ⟨hid other hother, hnew other hother⟩

theorem validate_withoutClient (h : config.validate = .ok ()) (clientId : ClientId) :
    (config.withoutClient clientId).validate = .ok () := by
  obtain ⟨hclients, hchange⟩ := validate_setClients h
  obtain ⟨hfits, hpairs⟩ := validateClients_eq_ok.mp hclients
  have hsub : (config.withoutClient clientId).entries.Sublist config.entries :=
    List.filter_sublist.map _
  refine hchange _ (validateClients_eq_ok.mpr ⟨fun other hother => ?_, hpairs.sublist hsub⟩)
  exact hfits other (hsub.subset hother)

end ServerConfig

/-! ## Configuration files -/

/-- The TOML library: what it writes it reads back. It may refuse to write. -/
structure Toml (α : Type) where
  toStringPretty : α → Option Bytes
  fromStr : Bytes → Option α
  reads : ∀ {a text}, toStringPretty a = some text → fromStr text = some a

/-- A library that knows the texts of a few values, all different. -/
def Toml.ofTable {α : Type} [DecidableEq α] (table : List (α × Bytes))
    (h : (table.map Prod.snd).Nodup) : Toml α where
  toStringPretty a := (table.find? (·.1 = a)).map Prod.snd
  fromStr text := (table.find? (·.2 = text)).map Prod.fst
  reads := by
    intro a text ha
    obtain ⟨⟨a', text'⟩, hfound, rfl⟩ := Option.map_eq_some_iff.mp ha
    have hmem := List.mem_of_find?_eq_some hfound
    obtain rfl : a' = a := by simpa using List.find?_some hfound
    cases hback : table.find? (·.2 = text') with
    | none => exact absurd (List.find?_eq_none.mp hback _ hmem) (by simp)
    | some other =>
      have hsame : other.2 = text' := by simpa using List.find?_some hback
      have heq := List.inj_on_of_nodup_map h (List.mem_of_find?_eq_some hback) hmem hsame
      rw [heq]
      rfl

inductive ConfigLoadError where
  | parseToml
  | validate (e : ConfigError)
  deriving DecidableEq

def ServerConfig.fromTomlStr (toml : Toml ServerConfig) (raw : Bytes) :
    Except ConfigLoadError ServerConfig :=
  match toml.fromStr raw with
  | none => .error .parseToml
  | some config =>
    match config.validate with
    | .error e => .error (.validate e)
    | .ok () => .ok config

theorem ServerConfig.fromTomlStr_eq_ok {toml : Toml ServerConfig} {raw : Bytes}
    {config : ServerConfig} :
    fromTomlStr toml raw = .ok config ↔
      toml.fromStr raw = some config ∧ config.validate = .ok () := by
  unfold fromTomlStr
  cases toml.fromStr raw with
  | none => simp
  | some read =>
    constructor
    · intro h
      dsimp only at h
      split at h
      · cases h
      · rename_i hvalid
        cases h
        exact ⟨rfl, hvalid⟩
    · rintro ⟨hread, hvalid⟩
      cases hread
      simp only [hvalid]

/-- A configuration that is valid loads from the text that it is written as. -/
theorem ServerConfig.fromTomlStr_of_write {toml : Toml ServerConfig} {text : Bytes}
    {config : ServerConfig} (h : toml.toStringPretty config = some text)
    (hvalid : config.validate = .ok ()) : fromTomlStr toml text = .ok config :=
  fromTomlStr_eq_ok.mpr ⟨toml.reads h, hvalid⟩

end Slt.Cli
