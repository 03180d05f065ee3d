import Slt.Cli.Commands

/-!
# A client is added, whatever fails

The file operations of adding a client may fail, and the process may be stopped at
any of them. The configuration file is truncated before it is written anew, so that
a stop or a failure of that write leaves no configuration. If every write to it is
carried out, the file holds the configuration as it was or with the new client at
all times, and the client's own file appears only when the server knows the client.
-/

namespace Slt.Cli

open Lib
open Server (Ipv4Addr)

def configAt {Pid : Type} (toml : Toml ServerConfig) (path : Path) (files : Files Path Pid) :
    Option ServerConfig :=
  (files.contents path).bind fun raw => (ServerConfig.fromTomlStr toml raw).toOption

theorem configAt_eq_some {Pid : Type} {toml : Toml ServerConfig} {path : Path}
    {files : Files Path Pid} {inode : Inode} (hnamed : files.names path = some inode)
    {config : ServerConfig} :
    configAt toml path files = some config ↔
      ServerConfig.fromTomlStr toml (files.data inode) = .ok config := by
  simp only [configAt, Files.contents, hnamed, Option.map_some, Option.bind_some]
  cases ServerConfig.fromTomlStr toml (files.data inode) with
  | error e => simp [Except.toOption]
  | ok read => simp [Except.toOption]

/-- Writes to the inode are carried out to their last byte. Any other operation may fail or be
the last. -/
def Careful (inode : Inode) (o : FileOp Path) (fate : Fate) : Prop :=
  ∀ offset bytes, o = .writeAll inode offset bytes → fate.Writes bytes.length

namespace AddClient

variable {Pid : Type} {pid : Pid} {libs : Libraries} {configPath : Path} {args : AddClient}
  {inode : Inode} {old : Option Inode} {config : ServerConfig} {text : Bytes}
  {stopped : Files Path Pid → Prop} {files : Files Path Pid}

/-- The configuration file holds the text, and the client's path is as it was. -/
structure Held (configPath : Path) (args : AddClient) (inode : Inode) (old : Option Inode)
    (text : Bytes) (files : Files Path Pid) : Prop where
  named : files.names configPath = some inode
  text : files.data inode = text
  client : files.names args.clientPath = old

/-- The operation leaves the configuration file alone, and which file the client's path names. -/
def Elsewhere (configPath : Path) (args : AddClient) (inode : Inode) (o : FileOp Path) : Prop :=
  o.SparesName configPath ∧ o.SparesData inode ∧ o.SparesName args.clientPath

section

variable (h : Held configPath args inode old text files)
include h

theorem Held.exec (pid : Pid) {o : FileOp Path} (ho : Elsewhere configPath args inode o) :
    Held configPath args inode old text (o.exec pid files).2 where
  named := (FileOp.names_exec pid files ho.1).trans h.named
  text := (FileOp.data_exec pid h.named ho.1 ho.2.1).trans h.text
  client := (FileOp.names_exec pid files ho.2.2).trans h.client

theorem Held.cut {o : FileOp Path} (ho : Elsewhere configPath args inode o) (written : Nat) :
    Held configPath args inode old text (o.cut written files) where
  named := by
    rw [FileOp.names_cut]
    exact h.named
  text := (FileOp.data_cut written ho.2.1).trans h.text
  client := by
    rw [FileOp.names_cut]
    exact h.client

theorem Held.op (hstop : ∀ files, Held configPath args inode old text files → stopped files)
    {o : FileOp Path} (ho : Elsewhere configPath args inode o)
    {post : Except FileError o.Result → Files Path Pid → Prop}
    (hpost : ∀ r files, Held configPath args inode old text files → post r files) :
    faulty pid (Careful inode) stopped o post files :=
  faulty_of_kept _ (h.exec pid ho) (h.cut ho) hpost hstop

end

theorem Held.attempt {ε α : Type} (h : Held configPath args inode old text files)
    (hstop : ∀ files, Held configPath args inode old text files → stopped files)
    {o : FileOp Path} (ho : Elsewhere configPath args inode o) {context : FileError → ε}
    {f : o.Result → ExceptT ε (Prog Path) α} {post : Except ε α → Files Path Pid → Prop}
    (hok : ∀ a files, Held configPath args inode old text files →
      (f a).run.wp (faulty pid (Careful inode) stopped) post files)
    (herror : ∀ e files, Held configPath args inode old text files → post (.error e) files) :
    (Prog.attempt o context >>= f).run.wp (faulty pid (Careful inode) stopped) post files := by
  rw [Prog.wp_run_attempt_bind]
  refine h.op hstop ho fun r files h => ?_
  cases r with
  | ok a => exact hok a files h
  | error e => exact herror _ files h

/-! ## Before anything is written -/

theorem wp_openLocked (h : Held configPath args inode old text files)
    (hstop : ∀ files, Held configPath args inode old text files → stopped files) :
    (LockedServerConfigFile.openLocked configPath).run.wp (faulty pid (Careful inode) stopped)
      (fun r files => Held configPath args inode old text files ∧
        ∀ locked, r = .ok locked → locked = ⟨inode⟩) files := by
  unfold LockedServerConfigFile.openLocked
  rw [Prog.wp_run_attempt_bind]
  refine ⟨fun _ => ?_, fun _ _ => ⟨h, by simp⟩, fun _ _ => hstop _ h⟩
  simp only [FileOp.exec, h.named]
  refine h.attempt hstop (by trivial) (fun _ files h => ⟨h, ?_⟩)
    fun e files h => ⟨h, by simp⟩
  rintro _ ⟨⟩
  rfl

theorem wp_load (hload : ServerConfig.fromTomlStr libs.serverToml text = .ok config)
    (h : Held configPath args inode old text files)
    (hstop : ∀ files, Held configPath args inode old text files → stopped files) :
    (LockedServerConfigFile.load ⟨inode⟩ libs.serverToml configPath).run.wp
      (faulty pid (Careful inode) stopped)
      (fun r files => Held configPath args inode old text files ∧
        ∀ loaded, r = .ok loaded → loaded = config) files := by
  unfold LockedServerConfigFile.load
  refine h.attempt hstop (by trivial) (fun _ files h => ?_) fun e files h => ⟨h, nofun⟩
  rw [Prog.wp_run_attempt_bind]
  refine ⟨fun _ => ⟨h, ?_⟩, fun _ _ => ⟨h, nofun⟩, fun _ _ => hstop _ h⟩
  simp only [h.text, List.drop_zero, hload]
  rintro _ ⟨⟩
  rfl

section

variable (h : Held configPath args inode old text files)
include h

theorem wp_readCertContent
    (hstop : ∀ files, Held configPath args inode old text files → stopped files)
    (material : TlsMaterial) :
    (readCertContent configPath material).run.wp (faulty pid (Careful inode) stopped)
      (fun _ => Held configPath args inode old text) files := by
  cases material with
  | pem pem => exact h
  | file file =>
    refine h.attempt hstop (by trivial) (fun _ files h => ?_) fun _ _ => id
    exact h.op hstop (by trivial) fun _ _ => id

theorem wp_ensureOutputDir
    (hstop : ∀ files, Held configPath args inode old text files → stopped files) :
    args.ensureOutputDir.run.wp (faulty pid (Careful inode) stopped)
      (fun _ => Held configPath args inode old text) files := by
  unfold ensureOutputDir
  refine Prog.wp_run_bind mono_faulty (fun _ => Held configPath args inode old text)
    (h.op hstop (by trivial) fun _ _ => id) (fun present files h => ?_) fun _ _ => id
  cases present with
  | true => exact h
  | false => exact h.op hstop (by trivial) fun _ _ => id

/-! ## Writing -/

theorem wp_save {changed : ServerConfig}
    (hstop : ∀ files, Held configPath args inode old text files → stopped files)
    (hstop' : ∀ written files, libs.serverToml.toStringPretty changed = some written →
      Held configPath args inode old written files → stopped files) :
    (LockedServerConfigFile.save ⟨inode⟩ libs.serverToml configPath changed).run.wp
      (faulty pid (Careful inode) stopped)
      (fun r files => (r ≠ .ok () ∧ Held configPath args inode old text files) ∨
        ∃ written, libs.serverToml.toStringPretty changed = some written ∧
          Held configPath args inode old written files) files := by
  unfold LockedServerConfigFile.save
  rw [Command.wp_run_orFail_bind]
  split
  · rename_i written hwritten
    refine h.attempt hstop (by trivial) (fun _ files h => ?_) fun e files h => .inl ⟨by simp, h⟩
    refine h.attempt hstop (by trivial) (fun _ files h => ?_) fun e files h => .inl ⟨by simp, h⟩
    rw [Prog.wp_run_attempt_bind]
    refine ⟨fun _ => ?_, fun _ _ => .inl ⟨by simp, h⟩, fun _ _ => hstop _ h⟩
    -- the file is empty from here on, and the next operation is the write
    have hempty : Held configPath args inode old [] (files.setData inode []) :=
      ⟨h.named, by simp, h.client⟩
    simp only [FileOp.exec, resize_zero]
    rw [Prog.wp_run_attempt_bind]
    have hdone : Held configPath args inode old written
        ((FileOp.writeAll inode 0 written).exec pid (files.setData inode [])).2 :=
      ⟨hempty.named, by simp [FileOp.exec], hempty.client⟩
    have hcut : ∀ n, written.length ≤ n → (FileOp.writeAll inode 0 written).cut n
        (files.setData inode []) =
          ((FileOp.writeAll inode 0 written).exec pid (files.setData inode [])).2 := by
      intro n hn
      simp only [FileOp.cut, FileOp.exec, List.take_of_length_le hn]
    refine ⟨fun _ => ?_, fun n hcareful => ?_, fun n hcareful => ?_⟩
    · exact hdone.op (fun files => hstop' written files hwritten) (by trivial)
        fun _ files h => .inr ⟨written, hwritten, h⟩
    · rw [hcut n (hcareful _ _ rfl)]
      exact .inr ⟨written, hwritten, hdone⟩
    · rw [hcut n (hcareful _ _ rfl)]
      exact hstop' written _ hwritten hdone
  · exact .inl ⟨by simp, h⟩

end

/-- The configuration file is kept whatever happens, and the client's path unless all goes well. -/
def Spared {ε : Type} (configPath : Path) (args : AddClient) (inode : Inode) (old : Option Inode)
    (text : Bytes) (r : Except ε Unit) (files : Files Path Pid) : Prop :=
  (files.names configPath = some inode ∧ files.data inode = text) ∧
    (r ≠ .ok () → Held configPath args inode old text files)

theorem Held.spared {ε : Type} (h : Held configPath args inode old text files)
    (r : Except ε Unit) : Spared configPath args inode old text r files :=
  ⟨⟨h.named, h.text⟩, fun _ => h⟩

section Client

variable (hclient : args.clientPath ≠ configPath) (htmp : tmpPathFor args.clientPath ≠ configPath)
include hclient htmp

section

variable (h : Held configPath args inode old text files)
  (hstop : ∀ files, Held configPath args inode old text files → stopped files)
include h hstop

theorem wp_writeTempAndRename (contents : Bytes) :
    (writeTempAndRename (tmpPathFor args.clientPath) args.clientPath contents).run.wp
      (faulty pid (Careful inode) stopped) (Spared configPath args inode old text) files := by
  have hown := tmpPathFor_ne args.clientPath
  unfold writeTempAndRename
  rw [Prog.wp_run_attempt_bind]
  refine ⟨fun _ => ?_, fun _ _ => h.spared _, fun _ _ => hstop _ h⟩
  obtain ⟨i, hi, hopened⟩ := FileOp.exec_createTruncated pid h.named htmp
  have h := h.exec pid (o := .createTruncated (tmpPathFor args.clientPath)) ⟨htmp, trivial, hown⟩
  rw [hopened]
  refine h.attempt hstop (by trivial) (fun _ files h => ?_) fun e files h => h.spared _
  refine h.attempt hstop (by exact ⟨trivial, hi, trivial⟩) (fun _ files h => ?_)
    fun e files h => h.spared _
  -- the only operation that changes what the client's path names
  have hrename : (FileOp.rename (tmpPathFor args.clientPath) args.clientPath).SparesName
    configPath := ⟨htmp, hclient⟩
  refine ⟨fun _ => ⟨⟨?_, ?_⟩, ?_⟩, fun _ _ => h.spared _, fun _ _ => hstop _ h⟩
  · exact (FileOp.names_exec pid files hrename).trans h.named
  · exact (FileOp.data_exec pid h.named hrename trivial).trans h.text
  · simp only [FileOp.exec]
    split
    · exact fun hr => absurd rfl hr
    · exact fun _ => h

theorem wp_writeRestricted (contents : Bytes) (label : String) :
    (writeRestricted args.clientPath contents label).run.wp (faulty pid (Careful inode) stopped)
      (Spared configPath args inode old text) files := by
  unfold writeRestricted
  rw [ExceptT.run_mk, Prog.wp_bind]
  refine Prog.wp_mono mono_faulty (fun r files hspared => ?_)
    (wp_writeTempAndRename hclient htmp h hstop contents)
  cases r with
  | ok => exact ⟨hspared.1, fun hr => absurd rfl hr⟩
  | error e =>
    have hown := tmpPathFor_ne args.clientPath
    exact (hspared.2 nofun).op hstop (by exact ⟨htmp, trivial, hown⟩) fun _ _ h => h.spared _

theorem wp_saveClientConfig (clientConfig : ClientConfig) :
    (saveClientConfig libs args.clientPath clientConfig).run.wp
      (faulty pid (Careful inode) stopped) (Spared configPath args inode old text) files := by
  unfold saveClientConfig
  rw [Command.wp_run_orFail_bind]
  split
  · exact wp_writeRestricted hclient htmp h hstop _ _
  · exact h.spared _

end

/-- The configuration file holds the original, with the client's path as it was, or the
configuration with the new client. -/
def Kept (libs : Libraries) (configPath : Path) (args : AddClient) (old : Option Inode)
    (config : ServerConfig) (files : Files Path Pid) : Prop :=
  (configAt libs.serverToml configPath files = some config ∧ files.names args.clientPath = old) ∨
    ∃ addr, libs.parseIpv4 args.ip = some addr ∧
      configAt libs.serverToml configPath files =
        some (config.withClient (args.serverClient libs addr))

omit hclient htmp in
theorem Held.kept (hload : ServerConfig.fromTomlStr libs.serverToml text = .ok config)
    (h : Held configPath args inode old text files) :
    Kept libs configPath args old config files := by
  refine .inl ⟨(configAt_eq_some h.named).mpr ?_, h.client⟩
  rw [h.text]
  exact hload

omit hclient htmp in
theorem Accepted.kept {client : ConfiguredClient} (haccepted : Accepted libs args config client)
    (hload : ServerConfig.fromTomlStr libs.serverToml text = .ok (config.withClient client))
    (hnamed : files.names configPath = some inode) (htext : files.data inode = text) :
    Kept libs configPath args old config files := by
  obtain ⟨addr, haddr, rfl⟩ := haccepted.isNew
  refine .inr ⟨addr, haddr, (configAt_eq_some hnamed).mpr ?_⟩
  rw [htext]
  exact hload

theorem wp_writeClient (hvalid : config.validate = .ok ()) {client : ConfiguredClient}
    (haccepted : Accepted libs args config client)
    (hload : ServerConfig.fromTomlStr libs.serverToml text = .ok (config.withClient client))
    (h : Held configPath args inode old text files) (clientConfig : ClientConfig) :
    (args.writeClient libs configPath ⟨inode⟩ config (config.withClient client) clientConfig).run.wp
      (faulty pid (Careful inode) (Kept libs configPath args old config))
      (fun _ => Kept libs configPath args old config) files := by
  have hstop : ∀ files : Files Path Pid, Held configPath args inode old text files →
      Kept libs configPath args old config files :=
    fun files h => haccepted.kept hload h.named h.text
  unfold writeClient
  rw [ExceptT.run_mk, Prog.wp_bind]
  refine Prog.wp_mono mono_faulty (fun r files hspared => ?_)
    (wp_saveClientConfig hclient htmp h hstop clientConfig)
  cases r with
  | ok => exact haccepted.kept hload hspared.1.1 hspared.1.2
  -- The client file could not be written, so the configuration is written back.
  | error e =>
    dsimp only
    rw [ServerConfig.take_withClient, Prog.wp_bind]
    have hwritten : ∀ written (files : Files Path Pid),
        libs.serverToml.toStringPretty config = some written →
        Held configPath args inode old written files → Kept libs configPath args old config files :=
      fun written files hwritten h =>
        h.kept (ServerConfig.fromTomlStr_of_write hwritten hvalid)
    refine Prog.wp_mono mono_faulty (fun r files hr => ?_)
      (wp_save (hspared.2 nofun) hstop hwritten)
    have hkept : Kept libs configPath args old config files := by
      obtain ⟨-, h⟩ | ⟨written, hw, h⟩ := hr
      · exact hstop files h
      · exact hwritten written files hw h
    cases r <;> exact hkept

theorem wp_addClient (pid : Pid)
    (hload : ServerConfig.fromTomlStr libs.serverToml text = .ok config)
    (h : Held configPath args inode old text files) :
    (addClient libs configPath args).run.wp
      (faulty pid (Careful inode) (Kept libs configPath args old config))
      (fun _ => Kept libs configPath args old config) files := by
  have hvalid := (ServerConfig.fromTomlStr_eq_ok.mp hload).2
  have hstop : ∀ files : Files Path Pid, Held configPath args inode old text files →
      Kept libs configPath args old config files := fun files h => h.kept hload
  refine Prog.wp_run_bind mono_faulty _ (wp_openLocked h hstop) (fun locked files hlocked => ?_)
    fun e files he => hstop _ he.1
  -- Every step before the first save leaves the file alone, wherever it fails.
  obtain rfl := hlocked.2 locked rfl
  refine Prog.wp_run_bind mono_faulty _ (wp_load hload hlocked.1 hstop)
    (fun loaded files hloaded => ?_) fun e files he => hstop _ he.1
  obtain rfl := hloaded.2 loaded rfl
  refine Prog.wp_run_bind mono_faulty _
    (wp_newClient mono_faulty _ (fun material files h => wp_readCertContent h hstop material)
      hloaded.1) (fun new files hnew => ?_) fun e files he => hstop _ he.1
  obtain ⟨client, clientConfig⟩ := new
  have haccepted := hnew.2 _ rfl
  refine Prog.wp_run_bind mono_faulty _ (wp_ensureOutputDir hnew.1 hstop)
    (fun _ files h => ?_) fun e files h => hstop _ h
  have hwritten : ∀ written (files : Files Path Pid),
      libs.serverToml.toStringPretty (loaded.withClient client) = some written →
      Held configPath args inode old written files → Kept libs configPath args old loaded files :=
    fun written files hwritten h => haccepted.kept
      (ServerConfig.fromTomlStr_of_write hwritten (haccepted.validate hvalid)) h.named h.text
  refine Prog.wp_run_bind mono_faulty _ (wp_save h hstop hwritten) (fun _ files hsaved => ?_)
    fun e files hsaved => ?_
  · obtain ⟨hfailed, -⟩ | ⟨written, hw, h⟩ := hsaved
    · exact absurd rfl hfailed
    · exact wp_writeClient hclient htmp hvalid haccepted
        (ServerConfig.fromTomlStr_of_write hw (haccepted.validate hvalid)) h clientConfig
  · obtain ⟨-, h⟩ | ⟨written, hw, h⟩ := hsaved
    · exact hstop files h
    · exact hwritten written files hw h

end Client

end AddClient

/-- Whatever fails or stops the process, if only no write to the configuration file is cut
short: the file holds the configuration as it was, or with the new client, and with the new
client if the client's path names another file than before. -/
theorem add_client_keeps_server_config {Pid : Type} (pid : Pid) (libs : Libraries)
    (configPath : Path) (args : AddClient) (hclient : args.clientPath ≠ configPath)
    (htmp : tmpPathFor args.clientPath ≠ configPath) (files : Files Path Pid) (inode : Inode)
    (hnamed : files.names configPath = some inode) (config : ServerConfig)
    (hconfig : configAt libs.serverToml configPath files = some config)
    (fates : Nat → FileOp Path → Fate)
    (hwrites : ∀ offset bytes fate, (.writeAll inode offset bytes, fate) ∈
      (addClient libs configPath args).run.performed fates pid 0 files →
        fate.Writes bytes.length) :
    let after := ((addClient libs configPath args).run.run fates pid 0 files).2
    let added := ∃ addr, libs.parseIpv4 args.ip = some addr ∧
      configAt libs.serverToml configPath after =
        some (config.withClient (args.serverClient libs addr))
    (configAt libs.serverToml configPath after = some config ∨ added) ∧
      (after.names args.clientPath ≠ files.names args.clientPath → added) := by
  have hload := (configAt_eq_some hnamed).mp hconfig
  have hwp := AddClient.wp_addClient hclient htmp pid hload ⟨hnamed, rfl, rfl⟩
  obtain ⟨hended, hstopped⟩ := Prog.run_of_wp fates hwp 0 <| by
    rintro ⟨o, fate⟩ hperformed offset bytes rfl
    exact hwrites offset bytes fate hperformed
  have hkept : AddClient.Kept libs configPath args (files.names args.clientPath) config
      ((addClient libs configPath args).run.run fates pid 0 files).2 := by
    -- A process that is stopped has no result, but its files are covered too.
    cases hresult : ((addClient libs configPath args).run.run fates pid 0 files).1 with
    | none => exact hstopped hresult
    | some r => exact hended r hresult
  obtain ⟨hsame, hpath⟩ | hadded := hkept
  · exact ⟨.inl hsame, fun hnew => absurd hpath hnew⟩
  · exact ⟨.inr hadded, fun _ => hadded⟩

/-! ## An example -/

namespace Sample

def addr (a b c d : UInt8) : Ipv4Addr := ⟨[a, b, c, d], rfl⟩

def clientId (n : UInt8) : Server.ClientId := FixedBytes.replicate 16 n

def listener : SocketAddr := ⟨[0, 0, 0, 0], 443⟩

def config (clients : List ConfiguredClient) : ServerConfig where
  serverSecret := FixedBytes.replicate 32 0
  network := ⟨listener, listener, listener, listener⟩
  tls := ⟨.pem [], .pem []⟩
  tun := { tunIpv4 := addr 10 10 0 1, tunPrefix := 24, tunName := "tun0", tunMtu := 1280 }
  timing :=
    { pingMin := minInterval, pingMax := minInterval, authTimeout := 1, tcpWriteTimeout := 1,
      udpLivenessTimeout := 1, idleTimeout := 1, metricsInterval := 1,
      tcpClassificationTimeout := 1 }
  transport := ⟨⟨[.aes128Gcm]⟩⟩
  udpNatMaxEntries := 1
  sessionQueueSize := 1
  maxAuthInflight := 1
  tcpConnectionCap := 1
  clients := clients

def path : Path := ⟨true, ["server.toml"]⟩

def client (n : UInt8) : ConfiguredClient where
  clientId := clientId n
  assignedIpv4 := addr 10 10 0 n
  pubkeyEd25519 := FixedBytes.replicate 32 n
  enabled := true

/-- Configurations with up to two clients are written as the numbers of these. -/
def libs : Libraries where
  serverToml := Toml.ofTable
    [(config [], [0]), (config [client 2], [2]), (config [client 3], [3]),
      (config [client 2, client 3], [2, 3])] (by decide)
  clientToml _ := some [1]
  parseIpv4 ip := if ip = "2" then some (addr 10 10 0 2) else if ip = "3" then
    some (addr 10 10 0 3) else none
  verifyingKey := id
  extractDomainFromCert _ := none

def add (n : UInt8) (ip : String) : AddClient where
  outputDir := ⟨true, ["clients"]⟩
  domain := some "vpn"
  ip := ip
  clientIdBytes := clientId n
  keyBytes := FixedBytes.replicate 32 n

def renameFails (_ : Nat) : FileOp Path → Fate
  | .rename _ _ => .fail 0
  | _ => .succeed

/-- The process is stopped when it is about to write the configuration file. -/
def stoppedAtWrite (_ : Nat) : FileOp Path → Fate
  | .writeAll 0 _ _ => .stop 0
  | _ => .succeed

def before : Files Path Unit := Files.single path [0]

def after (fates : Nat → FileOp Path → Fate) : Files Path Unit :=
  ((addClient libs path (add 2 "2")).run.run fates () 0 before).2

end Sample

theorem add_client_keeps_server_config_rolled_back :
    configAt Sample.libs.serverToml Sample.path (Sample.after Sample.renameFails) =
        some (Sample.config []) ∨
      ∃ addr, Sample.libs.parseIpv4 "2" = some addr ∧
        configAt Sample.libs.serverToml Sample.path (Sample.after Sample.renameFails) =
          some ((Sample.config []).withClient ((Sample.add 2 "2").serverClient Sample.libs addr)) :=
  (add_client_keeps_server_config () Sample.libs Sample.path (Sample.add 2 "2")
    (by decide +kernel) (by decide +kernel) Sample.before 0 (by decide +kernel) (Sample.config [])
    (by decide +kernel) Sample.renameFails fun _ _ _ hperformed => by
      obtain ⟨_, rfl⟩ := Prog.exists_step_of_performed hperformed
      exact trivial).1

theorem add_client_loses_server_config :
    configAt Sample.libs.serverToml Sample.path Sample.before = some (Sample.config []) ∧
      configAt Sample.libs.serverToml Sample.path (Sample.after Sample.stoppedAtWrite) = none := by
  decide +kernel

end Slt.Cli
