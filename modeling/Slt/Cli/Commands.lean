import Slt.Cli.ServerConfig
import Slt.Lib.Files

/-!
# Adding and removing clients

The commands that change the clients of a server configuration, as programs on
files. Adding a client locks the configuration file and rewrites it in place; then
it writes the client's own file, through a temporary one that it renames, and takes
the change back if that fails. Removing a client takes no lock, and replaces the
configuration file by renaming.
-/

namespace Slt.Cli

open Lib (Bytes FixedBytes Inode FileError FileOp Prog Transformer)
open Server

inductive CliError where
  | openForLocking (path : Path) (e : FileError)
  | lock (path : Path) (e : FileError)
  | seek (path : Path) (e : FileError)
  | read (path : Path) (e : FileError)
  | load (path : Path) (e : ConfigLoadError)
  | serializeServerConfig
  | serializeClientConfig
  | restrictPermissions (path : Path) (e : FileError)
  | truncate (path : Path) (e : FileError)
  | write (path : Path) (e : FileError)
  | flush (path : Path) (e : FileError)
  | invalidIp (ip : String)
  | alreadyAssigned (assignedIpv4 : Ipv4Addr)
  | reservedForTun (assignedIpv4 : Ipv4Addr)
  | outsideTunSubnet (assignedIpv4 tunIpv4 : Ipv4Addr) (tunPrefix : Nat)
  | readCertificate (path : Path) (e : FileError)
  | noDomain
  | clientIdCollision
  | createOutputDir (path : Path) (e : FileError)
  | writeRestricted (label : String) (path : Path) (e : FileError)
  | writeClientConfig (path : Path) (cause : CliError)
  | rollBack (path : Path) (restore : CliError)
  | invalidClientId
  | clientNotFound (clientId : String)
  deriving DecidableEq

/-- A command may end with an error between any two file operations. -/
abbrev Command := ExceptT CliError (Prog Path)

namespace Command

def outcome {α : Type} (x : Except CliError α) : Command α := .mk (.pure x)

def orFail {α : Type} (e : CliError) : Option α → Command α
  | some a => pure a
  | none => throw e

variable {α β σ : Type} (t : Transformer Path σ) (f : α → Command β)
  (post : Except CliError β → σ → Prop) (s : σ)

theorem wp_run_outcome_bind (x : Except CliError α) :
    (outcome x >>= f).run.wp t post s =
      match x with
      | .ok a => (f a).run.wp t post s
      | .error e => post (.error e) s := by
  cases x <;> rfl

theorem wp_run_orFail_bind (e : CliError) (x : Option α) :
    (orFail e x >>= f).run.wp t post s =
      match x with
      | some a => (f a).run.wp t post s
      | none => post (.error e) s := by
  cases x <;> rfl

end Command

open Command
open Lib.Prog (attempt)

/-! ## Paths and names -/

namespace Path

def join (dir : Path) (name : String) : Path := { dir with parts := dir.parts ++ [name] }

def parent (path : Path) : Path :=
  match path.parts with
  | [] => ⟨false, ["."]⟩
  | parts => { path with parts := parts.dropLast }

end Path

def resolvePath (configPath filePath : Path) : Path :=
  if filePath.absolute then filePath
  else { configPath.parent with parts := configPath.parent.parts ++ filePath.parts }

def tmpPathFor (path : Path) : Path :=
  { path with parts := path.parts.dropLast ++ [path.parts.getLastD "" ++ ".tmp"] }

theorem tmpPathFor_ne (path : Path) : tmpPathFor path ≠ path := by
  intro h
  have hparts := congrArg Path.parts h
  have hlast := congrArg (fun parts => (parts.getLastD "").length) hparts
  simp [tmpPathFor] at hlast

def displayClientId (clientId : ClientId) : String :=
  String.ofList (clientId.val.flatMap fun b =>
    [Nat.digitChar (b.toNat / 16), Nat.digitChar (b.toNat % 16)])

def hexValue (c : Char) : Option Nat :=
  if '0' ≤ c ∧ c ≤ '9' then some (c.toNat - '0'.toNat)
  else if 'a' ≤ c ∧ c ≤ 'f' then some (c.toNat - 'a'.toNat + 10)
  else if 'A' ≤ c ∧ c ≤ 'F' then some (c.toNat - 'A'.toNat + 10)
  else none

def hexDecode : List Char → Option Bytes
  | [] => some []
  | [_] => none
  | a :: b :: rest => do
    let high ← hexValue a
    let low ← hexValue b
    let bytes ← hexDecode rest
    return UInt8.ofNat (16 * high + low) :: bytes

def parseClientId (s : String) : Option ClientId :=
  let digits := match s.toList with
    | '0' :: 'x' :: digits => digits
    | digits => digits
  (hexDecode digits).bind (FixedBytes.ofBytes? 16)

/-! ## Client configurations -/

structure ClientIdentity where
  clientId : ClientId
  sharedSecret : FixedBytes 32
  assignedIpv4 : Ipv4Addr
  privkeyEd25519 : FixedBytes 32
  deriving DecidableEq

/-- The part of a client configuration that is not left at its default. -/
structure ClientConfig where
  hostname : String
  port : Nat
  tlsCa : TlsMaterial
  identity : ClientIdentity
  tun : TunSettings
  deriving DecidableEq

def buildClientConfig (serverSecret : FixedBytes 32) (clientId : ClientId)
    (privkey : FixedBytes 32) (assignedIpv4 : Ipv4Addr) (hostname : String) (port : Nat)
    (tlsServerCertPem : Bytes) (tunConfig : TunSettings) : ClientConfig where
  hostname := hostname
  port := port
  tlsCa := .pem tlsServerCertPem
  identity := ⟨clientId, serverSecret, assignedIpv4, privkey⟩
  tun := { tunConfig with tunIpv4 := assignedIpv4 }

/-- What the commands call for: the TOML library for both kinds of file, the parser of
addresses, the key pairs of Ed25519 and the reader of certificates. -/
structure Libraries where
  serverToml : Toml ServerConfig
  clientToml : ClientConfig → Option Bytes
  parseIpv4 : String → Option Ipv4Addr
  verifyingKey : FixedBytes 32 → FixedBytes 32
  extractDomainFromCert : Bytes → Option String

/-! ## Files of configurations -/

def loadServerConfig (toml : Toml ServerConfig) (path : Path) : Command ServerConfig := do
  let file ← attempt (.openFile path) (.read path)
  let contents ← attempt (.readToEnd file 0) (.read path)
  outcome ((ServerConfig.fromTomlStr toml contents).mapError (.load path))

def readCertContent (configPath : Path) : TlsMaterial → Command Bytes
  | .pem pem => pure pem
  | .file file => do
    let certPath := resolvePath configPath file
    let cert ← attempt (.openFile certPath) (.readCertificate certPath)
    attempt (.readToEnd cert 0) (.readCertificate certPath)

def writeTempAndRename (tmpPath finalPath : Path) (contents : Bytes) :
    ExceptT FileError (Prog Path) Unit := do
  let file ← attempt (.createTruncated tmpPath) id
  attempt (.setPermissions tmpPath 0o600) id
  attempt (.writeAll file 0 contents) id
  attempt (.rename tmpPath finalPath) id

/-- A temporary file is not left behind, if it can be removed. -/
def writeRestricted (path : Path) (contents : Bytes) (label : String) : Command Unit := .mk do
  match ← (writeTempAndRename (tmpPathFor path) path contents).run with
  | .ok () => pure (.ok ())
  | .error e =>
    .op (.removeFile (tmpPathFor path)) fun _ => pure (.error (.writeRestricted label path e))

def saveServerConfig (toml : Toml ServerConfig) (path : Path) (config : ServerConfig) :
    Command Unit := do
  let contents ← orFail .serializeServerConfig (toml.toStringPretty config)
  writeRestricted path contents "server config"

def saveClientConfig (libs : Libraries) (path : Path) (config : ClientConfig) : Command Unit := do
  let contents ← orFail .serializeClientConfig (libs.clientToml config)
  writeRestricted path contents "client config"

structure LockedServerConfigFile where
  file : Inode

namespace LockedServerConfigFile

/-- A call that is interrupted while it waits for the lock is made again: that is one
operation here. -/
def openLocked (path : Path) : Command LockedServerConfigFile := do
  let file ← attempt (.openFile path) (.openForLocking path)
  attempt (.lock file) (.lock path)
  return ⟨file⟩

def load (self : LockedServerConfigFile) (toml : Toml ServerConfig) (path : Path) :
    Command ServerConfig := do
  attempt (.seek self.file 0) (.seek path)
  let contents ← attempt (.readToEnd self.file 0) (.read path)
  outcome ((ServerConfig.fromTomlStr toml contents).mapError (.load path))

def save (self : LockedServerConfigFile) (toml : Toml ServerConfig) (path : Path)
    (config : ServerConfig) : Command Unit := do
  let contents ← orFail .serializeServerConfig (toml.toStringPretty config)
  attempt (.setPermissions path 0o600) (.restrictPermissions path)
  attempt (.seek self.file 0) (.seek path)
  attempt (.setLen self.file 0) (.truncate path)
  attempt (.writeAll self.file 0 contents) (.write path)
  attempt (.flush self.file) (.flush path)

end LockedServerConfigFile

/-! ## Adding a client -/

/-- The arguments, and the random bytes that are drawn for the id and the key. -/
structure AddClient where
  outputDir : Path
  domain : Option String
  ip : String
  clientIdBytes : ClientId
  keyBytes : FixedBytes 32

namespace AddClient

variable (libs : Libraries) (configPath : Path) (args : AddClient)

def clientPath : Path :=
  args.outputDir.join ("client-" ++ displayClientId args.clientIdBytes ++ ".toml")

def checkAddress (config : ServerConfig) (assignedIpv4 : Ipv4Addr) : Except CliError Unit :=
  if config.clients.any (·.assignedIpv4 = assignedIpv4) then .error (.alreadyAssigned assignedIpv4)
  else if assignedIpv4 = config.tun.tunIpv4 then .error (.reservedForTun assignedIpv4)
  else if !config.tun.containsIpv4 assignedIpv4 then
    .error (.outsideTunSubnet assignedIpv4 config.tun.tunIpv4 config.tun.tunPrefix)
  else .ok ()

def checkClientId (config : ServerConfig) (clientId : ClientId) : Except CliError Unit :=
  if config.clients.any (·.clientId = clientId) then .error .clientIdCollision else .ok ()

def serverClient (assignedIpv4 : Ipv4Addr) : ConfiguredClient where
  clientId := args.clientIdBytes
  assignedIpv4 := assignedIpv4
  pubkeyEd25519 := libs.verifyingKey args.keyBytes
  enabled := true

def concreteDomain (certPem : Bytes) : Command String :=
  match args.domain with
  | some domain => pure domain
  | none => orFail .noDomain (libs.extractDomainFromCert certPem)

/-- The checks, and the two configurations' entries of the new client. Nothing is written. -/
def newClient (config : ServerConfig) : Command (ConfiguredClient × ClientConfig) := do
  let assignedIpv4 ← orFail (.invalidIp args.ip) (libs.parseIpv4 args.ip)
  outcome (checkAddress config assignedIpv4)
  let certPem ← readCertContent configPath config.tls.tlsCert
  let domain ← args.concreteDomain libs certPem
  outcome (checkClientId config args.clientIdBytes)
  return (args.serverClient libs assignedIpv4,
    buildClientConfig config.serverSecret args.clientIdBytes args.keyBytes assignedIpv4 domain
      config.network.listenTcp.port certPem config.tun)

structure Accepted (libs : Libraries) (args : AddClient) (config : ServerConfig)
    (client : ConfiguredClient) : Prop where
  isNew : ∃ addr, libs.parseIpv4 args.ip = some addr ∧ client = args.serverClient libs addr
  assignable : config.tun.Assignable client.assignedIpv4
  newId : ∀ other ∈ config.clients, other.clientId ≠ client.clientId
  newAddress : ∀ other ∈ config.clients, other.assignedIpv4 ≠ client.assignedIpv4

variable {libs configPath args}

section Checks

variable {config : ServerConfig}

theorem checkAddress_eq_ok {addr : Ipv4Addr} (h : checkAddress config addr = .ok ()) :
    config.tun.Assignable addr ∧ ∀ other ∈ config.clients, other.assignedIpv4 ≠ addr := by
  unfold checkAddress at h
  split_ifs at h with hassigned htun hsubnet
  refine ⟨⟨htun, by simpa using hsubnet⟩, ?_⟩
  simpa using hassigned

theorem checkClientId_eq_ok {clientId : ClientId} (h : checkClientId config clientId = .ok ()) :
    ∀ other ∈ config.clients, other.clientId ≠ clientId := by
  unfold checkClientId at h
  split_ifs at h with hused
  simpa using hused

theorem Accepted.validate {client : ConfiguredClient} (h : Accepted libs args config client)
    (hvalid : config.validate = .ok ()) : (config.withClient client).validate = .ok () :=
  ServerConfig.validate_withClient hvalid h.assignable h.newId h.newAddress

theorem wp_newClient {σ : Type} {t : Transformer Path σ} (ht : t.Mono) (holds : σ → Prop)
    (hcert : ∀ material s, holds s →
      (readCertContent configPath material).run.wp t (fun _ => holds) s) {s : σ} (h : holds s) :
    (args.newClient libs configPath config).run.wp t
      (fun r s => holds s ∧ ∀ new, r = .ok new → Accepted libs args config new.1) s := by
  unfold newClient
  rw [wp_run_orFail_bind]
  split
  · rename_i addr haddr
    rw [wp_run_outcome_bind]
    split
    · rename_i haddress
      refine Prog.wp_run_bind ht (fun _ => holds) (hcert _ s h) (fun certPem s h => ?_)
        fun e s h => ⟨h, nofun⟩
      refine Prog.wp_run_bind ht (fun _ => holds) ?_ (fun domain s h => ?_)
        fun e s h => ⟨h, nofun⟩
      · unfold concreteDomain
        split
        · exact h
        · cases libs.extractDomainFromCert certPem <;> exact h
      · rw [wp_run_outcome_bind]
        split
        · rename_i hid
          refine ⟨h, ?_⟩
          rintro _ ⟨⟩
          obtain ⟨hassignable, hnew⟩ := checkAddress_eq_ok haddress
          exact ⟨⟨addr, haddr, rfl⟩, hassignable, checkClientId_eq_ok hid, hnew⟩
        · exact ⟨h, nofun⟩
    · exact ⟨h, nofun⟩
  · exact ⟨h, nofun⟩

end Checks

variable (libs configPath args)

/-- A look at the directory that fails counts as that it is missing. -/
def ensureOutputDir : Command Unit := do
  let present : Bool ←
    .mk (.op (.pathExists args.outputDir) fun r => .pure (.ok (r.toOption.getD false)))
  if present then return ()
  attempt (.createDirAll args.outputDir) (.createOutputDir args.outputDir)

/-- Write the client's own file, and take the change of the server's back if that fails. -/
def writeClient (locked : LockedServerConfigFile) (original changed : ServerConfig)
    (clientConfig : ClientConfig) : Command Unit := .mk do
  match ← (saveClientConfig libs args.clientPath clientConfig).run with
  | .ok () => pure (.ok ())
  | .error clientErr =>
    let restored := { changed with clients := changed.clients.take original.clients.length }
    match ← (locked.save libs.serverToml configPath restored).run with
    | .error restoreErr => pure (.error (.rollBack args.clientPath restoreErr))
    | .ok () => pure (.error (.writeClientConfig args.clientPath clientErr))

def whileLocked (locked : LockedServerConfigFile) : Command Unit := do
  let config ← locked.load libs.serverToml configPath
  let (serverClient, clientConfig) ← args.newClient libs configPath config
  args.ensureOutputDir
  locked.save libs.serverToml configPath (config.withClient serverClient)
  args.writeClient libs configPath locked config (config.withClient serverClient) clientConfig

end AddClient

def addClient (libs : Libraries) (configPath : Path) (args : AddClient) : Command Unit := do
  let locked ← LockedServerConfigFile.openLocked configPath
  args.whileLocked libs configPath locked

/-! ## Removing a client -/

def removeClient (libs : Libraries) (configPath : Path) (clientId : String) : Command Unit := do
  let config ← loadServerConfig libs.serverToml configPath
  let targetId ← orFail .invalidClientId (parseClientId clientId)
  let changed := config.withoutClient targetId
  if changed.clients.length = config.clients.length then throw (.clientNotFound clientId)
  saveServerConfig libs.serverToml configPath changed

end Slt.Cli
