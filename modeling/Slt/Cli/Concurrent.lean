import Slt.Cli.AddClient
import Slt.Lib.Locking
import Mathlib.Data.Fintype.Basic

/-!
# Clients are added and removed at the same time

Any number of processes add and remove clients of one server configuration, with
their file operations interleaved. Those that add clients wait for each other by
the lock on the configuration's inode. Those that remove clients take no lock and
put another inode in its place, so that a client which is added meanwhile is lost.
If no process is at work on its files between such a process's reading and its
renaming, the configuration ends as if they had run one after the other.
-/

namespace Slt.Cli

open Lib
open Server (ClientId)

inductive Job where
  | add (args : AddClient)
  | remove (clientId : String)

namespace Job

variable (libs : Libraries) (configPath : Path)

def program : Job → Prog Path (Except CliError Unit)
  | add args => (addClient libs configPath args).run
  | remove clientId => (removeClient libs configPath clientId).run

def isRemove : Job → Bool
  | add _ => false
  | remove _ => true

theorem eq_add {job : Job} (h : ¬job.isRemove) : ∃ args, job = add args := by
  cases job with
  | add args => exact ⟨args, rfl⟩
  | remove clientId => exact absurd rfl h

theorem eq_remove {job : Job} (h : job.isRemove) : ∃ clientId, job = remove clientId := by
  cases job with
  | add args => cases h
  | remove clientId => exact ⟨clientId, rfl⟩

def added : Job → Option ConfiguredClient
  | add args => (libs.parseIpv4 args.ip).map (args.serverClient libs)
  | remove _ => none

def removed : Job → Option ClientId
  | add _ => none
  | remove clientId => parseClientId clientId

def FilesApart : Job → Prop
  | add args => args.clientPath ≠ configPath ∧ tmpPathFor args.clientPath ≠ configPath
  | remove _ => True

instance (job : Job) : Decidable (job.FilesApart configPath) :=
  match job with
  | add _ => inferInstanceAs (Decidable (_ ∧ _))
  | remove _ => inferInstanceAs (Decidable True)

instance (tun : Server.TunConfig) (addr : Server.Ipv4Addr) : Decidable (tun.Assignable addr) :=
  inferInstanceAs (Decidable (_ ∧ _))

/-- What the command is for: the configuration after it, if it can be carried out. -/
def apply (job : Job) (config : ServerConfig) : Option ServerConfig :=
  match job with
  | add args => do
    let addr ← libs.parseIpv4 args.ip
    if config.tun.Assignable addr ∧ ∀ other ∈ config.clients,
        other.clientId ≠ args.clientIdBytes ∧ other.assignedIpv4 ≠ addr then
      some (config.withClient (args.serverClient libs addr))
    else none
  | remove clientId => do
    let targetId ← parseClientId clientId
    if ∃ other ∈ config.clients, other.clientId = targetId then some (config.withoutClient targetId)
    else none

variable {libs configPath}

theorem apply_of_accepted {args : AddClient} {config : ServerConfig} {client : ConfiguredClient}
    (h : AddClient.Accepted libs args config client) :
    (add args).apply libs config = some (config.withClient client) := by
  obtain ⟨addr, haddr, rfl⟩ := h.isNew
  have hnew : ∀ other ∈ config.clients,
      other.clientId ≠ args.clientIdBytes ∧ other.assignedIpv4 ≠ addr :=
    fun other hother => ⟨h.newId other hother, h.newAddress other hother⟩
  simp only [apply, haddr]
  exact if_pos ⟨h.assignable, hnew⟩

theorem validate_apply {job : Job} {config after : ServerConfig} (hvalid : config.validate = .ok ())
    (h : job.apply libs config = some after) : after.validate = .ok () := by
  cases job with
  | add args =>
    obtain ⟨addr, -, h⟩ := Option.bind_eq_some_iff.mp h
    split at h
    · rename_i hok
      cases h
      exact ServerConfig.validate_withClient hvalid hok.1
        (fun other hother => (hok.2 other hother).1) fun other hother => (hok.2 other hother).2
    · cases h
  | remove clientId =>
    obtain ⟨targetId, -, h⟩ := Option.bind_eq_some_iff.mp h
    split at h
    · cases h
      exact ServerConfig.validate_withoutClient hvalid targetId
    · cases h

end Job

def Loads (toml : Toml ServerConfig) (text : Bytes) (config : ServerConfig) : Prop :=
  ServerConfig.fromTomlStr toml text = .ok config

/-- A command that succeeds does what it is for; one that fails may also have done nothing. -/
def Effect (libs : Libraries) (job : Job) (before : ServerConfig) (r : Except CliError Unit)
    (after : ServerConfig) : Prop :=
  job.apply libs before = some after ∨ (r ≠ .ok () ∧ after = before)

/-! ## Adding under the lock -/

namespace AddClient

variable {libs : Libraries} {configPath : Path} {args : AddClient} {inode : Inode}
  {config : ServerConfig} {text : Bytes}

theorem owned_load (hload : Loads libs.serverToml text config) :
    (LockedServerConfigFile.load ⟨inode⟩ libs.serverToml configPath).run.wp
      (owning configPath inode) (fun r text' => text' = text ∧ r = .ok config) text := by
  unfold LockedServerConfigFile.load
  rw [Prog.wp_run_attempt_bind]
  refine ⟨trivial, fun _ => ?_⟩
  dsimp only
  rw [Prog.wp_run_attempt_bind]
  simp only [owning, if_true, List.drop_zero]
  refine ⟨rfl, ?_⟩
  rw [hload]
  rfl

theorem owned_readCertContent (material : TlsMaterial) :
    (readCertContent configPath material).run.wp (owning configPath inode)
      (fun _ text' => text' = text) text := by
  cases material with
  | pem pem => rfl
  | file file =>
    unfold readCertContent
    rw [Prog.wp_run_attempt_bind]
    refine ⟨trivial, fun cert => ?_⟩
    dsimp only
    rw [Prog.wp_run_attempt]
    simp [owning]

theorem owned_ensureOutputDir :
    args.ensureOutputDir.run.wp (owning configPath inode) (fun _ text' => text' = text) text := by
  unfold ensureOutputDir
  refine Prog.wp_run_bind (mono_owning _ _) (fun _ text' => text' = text) ⟨trivial, fun _ => rfl⟩
    (fun present text' htext => ?_) fun _ _ => id
  cases present with
  | true => exact htext
  | false => exact ⟨trivial, fun _ => htext⟩

theorem owned_save (changed : ServerConfig) :
    (LockedServerConfigFile.save ⟨inode⟩ libs.serverToml configPath changed).run.wp
      (owning configPath inode)
      (fun r text' => libs.serverToml.toStringPretty changed = some text' ∨
        (r ≠ .ok () ∧ text' = text)) text := by
  unfold LockedServerConfigFile.save
  rw [Command.wp_run_orFail_bind]
  split
  · rename_i written hwritten
    rw [Prog.wp_run_attempt_bind]
    refine ⟨trivial, fun _ => ?_⟩
    dsimp only
    rw [Prog.wp_run_attempt_bind]
    refine ⟨trivial, fun _ => ?_⟩
    dsimp only
    rw [Prog.wp_run_attempt_bind]
    simp only [owning, if_true, resize_zero]
    rw [Prog.wp_run_attempt_bind]
    simp only [owning, if_true, patch_nil]
    exact ⟨trivial, fun _ => .inl hwritten⟩
  · exact .inr ⟨by simp, rfl⟩

variable (hclient : args.clientPath ≠ configPath) (htmp : tmpPathFor args.clientPath ≠ configPath)
include hclient htmp

theorem owned_writeTempAndRename (contents : Bytes) :
    (writeTempAndRename (tmpPathFor args.clientPath) args.clientPath contents).run.wp
      (owning configPath inode) (fun r text' => text' = text ∧ r = .ok ()) text := by
  unfold writeTempAndRename
  rw [Prog.wp_run_attempt_bind]
  refine ⟨htmp, fun file hfile => ?_⟩
  dsimp only
  rw [Prog.wp_run_attempt_bind]
  refine ⟨trivial, fun _ => ?_⟩
  dsimp only
  rw [Prog.wp_run_attempt_bind]
  simp only [owning, if_neg hfile]
  exact ⟨⟨htmp, hclient⟩, fun _ => ⟨rfl, rfl⟩⟩

theorem owned_saveClientConfig (clientConfig : ClientConfig) :
    (saveClientConfig libs args.clientPath clientConfig).run.wp (owning configPath inode)
      (fun _ text' => text' = text) text := by
  unfold saveClientConfig
  rw [Command.wp_run_orFail_bind]
  split
  · unfold writeRestricted
    rw [ExceptT.run_mk, Prog.wp_bind]
    refine Prog.wp_mono (mono_owning _ _) (fun r text' hr => ?_)
      (owned_writeTempAndRename hclient htmp _)
    obtain ⟨htext, rfl⟩ := hr
    exact htext
  · rfl

theorem owned_writeClient (hvalid : config.validate = .ok ()) {client : ConfiguredClient}
    (haccepted : Accepted libs args config client)
    (hload : Loads libs.serverToml text (config.withClient client)) (clientConfig : ClientConfig) :
    (args.writeClient libs configPath ⟨inode⟩ config (config.withClient client) clientConfig).run.wp
      (owning configPath inode)
      (fun r text' => ∃ after, Effect libs (.add args) config r after ∧
        Loads libs.serverToml text' after) text := by
  have hdone : ∀ r : Except CliError Unit, ∃ after, Effect libs (.add args) config r after ∧
      Loads libs.serverToml text after :=
    fun r => ⟨_, .inl (Job.apply_of_accepted haccepted), hload⟩
  have hmono := mono_owning configPath inode
  unfold writeClient
  rw [ExceptT.run_mk, Prog.wp_bind]
  refine Prog.wp_mono hmono (fun r text' htext => ?_)
    (owned_saveClientConfig hclient htmp clientConfig)
  subst htext
  cases r with
  | ok => exact hdone _
  | error e =>
    dsimp only
    rw [ServerConfig.take_withClient, Prog.wp_bind]
    refine Prog.wp_mono hmono (fun r text hr => ?_) (owned_save config)
    -- taken back, or not even that
    have hend : ∀ e : CliError, ∃ after, Effect libs (.add args) config (.error e) after ∧
        Loads libs.serverToml text after := by
      intro e
      obtain hwritten | ⟨-, rfl⟩ := hr
      · exact ⟨config, .inr ⟨nofun, rfl⟩, ServerConfig.fromTomlStr_of_write hwritten hvalid⟩
      · exact hdone _
    cases r <;> exact hend _

theorem owned_whileLocked (hload : Loads libs.serverToml text config) :
    (args.whileLocked libs configPath ⟨inode⟩).run.wp (owning configPath inode)
      (fun r text' => ∃ after, Effect libs (.add args) config r after ∧
        Loads libs.serverToml text' after) text := by
  have hvalid := (ServerConfig.fromTomlStr_eq_ok.mp hload).2
  have hfailed : ∀ (e : CliError) text', text' = text → ∃ after,
      Effect libs (.add args) config (.error e) after ∧ Loads libs.serverToml text' after := by
    rintro e _ rfl
    exact ⟨config, .inr ⟨nofun, rfl⟩, hload⟩
  have hmono := mono_owning configPath inode
  refine Prog.wp_run_bind hmono _ (owned_load hload) (fun loaded text' hloaded => ?_)
    fun e text' he => hfailed e text' he.1
  obtain ⟨rfl, hloaded⟩ := hloaded
  cases hloaded
  refine Prog.wp_run_bind hmono _ (wp_newClient hmono (fun text => text = text')
    (fun material text h => h ▸ owned_readCertContent material) rfl)
    (fun new text hnew => ?_) fun e text he => hfailed e text he.1
  obtain ⟨client, clientConfig⟩ := new
  obtain ⟨rfl, haccepted⟩ := hnew
  have haccepted := haccepted _ rfl
  have hafter := haccepted.validate hvalid
  refine Prog.wp_run_bind hmono _ owned_ensureOutputDir (fun _ text' htext => ?_)
    fun e text' he => hfailed e text' he
  subst htext
  -- Up to here nothing is written to the file; from here on it holds the new client,
  -- unless a later failure puts the old text back.
  refine Prog.wp_run_bind hmono _ (owned_save _) (fun _ text' hsaved => ?_)
    fun e text' hsaved => ?_
  · obtain hwritten | ⟨hr, -⟩ := hsaved
    · exact owned_writeClient hclient htmp hvalid haccepted
        (ServerConfig.fromTomlStr_of_write hwritten hafter) clientConfig
    · exact absurd rfl hr
  · obtain hwritten | ⟨-, htext⟩ := hsaved
    · exact ⟨_, .inl (Job.apply_of_accepted haccepted),
        ServerConfig.fromTomlStr_of_write hwritten hafter⟩
    · exact hfailed e text' htext

end AddClient

theorem locks_add {Pid : Type} {libs : Libraries} {configPath : Path} {jobs : Pid → Job} {pid : Pid}
    (hadd : ¬(jobs pid).isRemove) (hapart : (jobs pid).FilesApart configPath) :
    Locks configPath (Loads libs.serverToml) (fun p => Effect libs (jobs p)) pid
      ((jobs pid).program libs configPath) := by
  obtain ⟨args, hjob⟩ := Job.eq_add hadd
  simp only [hjob] at hapart ⊢
  refine ⟨_, rfl, fun inode => ⟨_, rfl, fun text config hload => ?_⟩⟩
  beta_reduce
  rw [hjob]
  exact AddClient.owned_whileLocked hapart.1 hapart.2 hload

/-! ## Removing, alone -/

section Remove

variable {Pid : Type} {pid : Pid} {libs : Libraries} {configPath : Path} {files : Files Path Pid}
  {inode : Inode} {config : ServerConfig}

theorem alone_writeTempAndRename (contents : Bytes) :
    (writeTempAndRename (tmpPathFor configPath) configPath contents).run.wp (alone pid)
      (fun r files => r = .ok () ∧ ∃ inode, files.names configPath = some inode ∧
        files.data inode = contents) files := by
  unfold writeTempAndRename
  rw [Prog.wp_run_attempt_bind]
  refine ⟨by simp, fun file created hcreate => ?_⟩
  obtain ⟨hnamed, hempty⟩ := FileOp.createTruncated_eq_ok hcreate
  dsimp only
  rw [Prog.wp_run_attempt_bind]
  refine ⟨by simp, fun _ restricted hrestrict => ?_⟩
  simp only [FileOp.exec, hnamed] at hrestrict
  cases hrestrict
  dsimp only
  rw [Prog.wp_run_attempt_bind]
  refine ⟨by simp, fun _ written hwrite => ?_⟩
  cases hwrite
  refine ⟨by simp, fun _ renamed hrename => ⟨rfl, file, ?_⟩⟩
  obtain ⟨htarget, hdata⟩ := FileOp.rename_eq_ok hrename hnamed
  refine ⟨htarget, ?_⟩
  rw [hdata, Files.setData_data, Function.update_self, Files.setMode_data, hempty, patch_nil]

theorem alone_loadServerConfig (hnamed : files.names configPath = some inode)
    (hload : Loads libs.serverToml (files.data inode) config) :
    (loadServerConfig libs.serverToml configPath).run.wp (alone pid)
      (fun r files' => files' = files ∧ r = .ok config) files := by
  unfold loadServerConfig
  rw [Prog.wp_run_attempt_bind]
  refine ⟨by simp, fun file opened hopen => ?_⟩
  simp only [FileOp.exec, hnamed] at hopen
  cases hopen
  dsimp only
  rw [Prog.wp_run_attempt_bind]
  refine ⟨by simp, fun text read hread => ?_⟩
  cases hread
  refine ⟨rfl, ?_⟩
  rw [List.drop_zero, hload]
  rfl

theorem alone_saveServerConfig (changed : ServerConfig) (hvalid : changed.validate = .ok ()) :
    (saveServerConfig libs.serverToml configPath changed).run.wp (alone pid)
      (fun r files' => (r ≠ .ok () ∧ files' = files) ∨ ∃ inode,
        files'.names configPath = some inode ∧ Loads libs.serverToml (files'.data inode) changed)
      files := by
  unfold saveServerConfig
  rw [Command.wp_run_orFail_bind]
  split
  · rename_i written hwritten
    unfold writeRestricted
    rw [ExceptT.run_mk, Prog.wp_bind]
    refine Prog.wp_mono (mono_alone pid) (fun r files' hr => ?_) (alone_writeTempAndRename written)
    obtain ⟨rfl, inode, hnamed, htext⟩ := hr
    refine .inr ⟨inode, hnamed, ?_⟩
    rw [htext]
    exact ServerConfig.fromTomlStr_of_write hwritten hvalid
  · exact .inl ⟨nofun, rfl⟩

theorem replaces_remove {jobs : Pid → Job} (hremove : (jobs pid).isRemove) :
    Replaces configPath (Loads libs.serverToml) (fun p => Effect libs (jobs p)) pid
      ((jobs pid).program libs configPath) := by
  obtain ⟨clientId, hjob⟩ := Job.eq_remove hremove
  refine ⟨?_, fun files inode config hnamed hload => ?_⟩
  · rw [hjob]
    exact ⟨_, _, rfl, fun _ => ⟨_, _, rfl⟩⟩
  have hvalid := (ServerConfig.fromTomlStr_eq_ok.mp hload).2
  -- Every error before the rename leaves the file as it is.
  have hfailed : ∀ e : CliError, Replaced configPath (Loads libs.serverToml)
      (fun p => Effect libs (jobs p)) pid config (.error e) files :=
    fun e => ⟨inode, config, hnamed, .inr ⟨nofun, rfl⟩, hload⟩
  rw [hjob]
  unfold Job.program removeClient
  refine Prog.wp_run_bind (mono_alone pid) _ (alone_loadServerConfig hnamed hload)
    (fun loaded files' hloaded => ?_) fun e files' he => ?_
  · obtain ⟨rfl, hloaded⟩ := hloaded
    cases hloaded
    rw [Command.wp_run_orFail_bind]
    split
    · rename_i targetId htarget
      dsimp only
      split
      · exact hfailed _
      · rename_i hlength
        have hfound : ∃ other ∈ config.clients, other.clientId = targetId := by
          simpa [ServerConfig.withoutClient, List.length_filter_eq_length_iff] using hlength
        have happly : (Job.remove clientId).apply libs config =
            some (config.withoutClient targetId) := by
          simp only [Job.apply, htarget]
          exact if_pos hfound
        refine Prog.wp_mono (mono_alone pid) (fun r files' hr => ?_)
          (alone_saveServerConfig _ (ServerConfig.validate_withoutClient hvalid targetId))
        obtain ⟨hr, rfl⟩ | ⟨inode', hnamed', hload'⟩ := hr
        -- Saving either fails before the rename or puts a new file in place.
        · exact ⟨inode, config, hnamed, .inr ⟨hr, rfl⟩, hload⟩
        · refine ⟨inode', _, hnamed', .inl ?_, hload'⟩
          rw [hjob]
          exact happly
    · exact hfailed _
  · cases he.2

end Remove

/-! ## One after the other -/

section Serial

variable {Pid : Type} {libs : Libraries} {jobs : Pid → Job} {config final : ServerConfig}

def applyAll (libs : Libraries) (jobs : Pid → Job) (order : List Pid) (config : ServerConfig) :
    Option ServerConfig :=
  order.foldlM (fun config pid => (jobs pid).apply libs config) config

theorem applyAll_of_serial {log : List (Pid × Except CliError Unit)}
    (h : Lib.Serial (fun p => Effect libs (jobs p)) config log final)
    (hok : ∀ entry ∈ log, entry.2 = .ok ()) :
    applyAll libs jobs (log.map Prod.fst) config = some final := by
  induction h with
  | start => rfl
  | next _ heffect ih =>
    have hbefore := ih fun entry hentry => hok entry (List.mem_append_left _ hentry)
    obtain happly | ⟨hr, -⟩ := heffect
    · rw [applyAll, List.map_append, List.foldlM_append]
      rw [applyAll] at hbefore
      rw [hbefore]
      simpa using happly
    · exact absurd (hok _ (List.mem_append_right _ (List.mem_singleton_self _))) hr

theorem perm_withoutClient {clients : List ConfiguredClient} {client : ConfiguredClient}
    (hdistinct : (clients.map (·.clientId)).Nodup) (hmem : client ∈ clients) :
    clients.Perm (client :: clients.filter (·.clientId ≠ client.clientId)) := by
  induction clients with
  | nil => cases hmem
  | cons first rest ih =>
    rw [List.map_cons, List.nodup_cons] at hdistinct
    obtain ⟨hfirst, hrest⟩ := hdistinct
    by_cases hid : first.clientId = client.clientId
    · have hother : ∀ other ∈ rest, other.clientId ≠ client.clientId := by
        intro other hother heq
        exact hfirst (List.mem_map.mpr ⟨other, hother, heq.trans hid.symm⟩)
      obtain rfl : client = first := by
        obtain hmem | hmem := List.mem_cons.mp hmem
        · exact hmem
        · exact absurd rfl (hother client hmem)
      rw [List.filter_cons_of_neg (by simp),
        List.filter_eq_self.mpr fun other hmem => decide_eq_true (hother other hmem)]
    · have hmem : client ∈ rest := by
        refine (List.mem_cons.mp hmem).resolve_left ?_
        rintro rfl
        exact hid rfl
      rw [List.filter_cons_of_pos (by simpa using hid)]
      exact ((ih hrest hmem).cons first).trans (.swap _ _ _)

theorem nodup_clientIds (hvalid : config.validate = .ok ()) :
    (config.clients.map (·.clientId)).Nodup := by
  have hpairs := ServerConfig.pairwise_of_validate hvalid
  rw [ServerConfig.entries, List.pairwise_map] at hpairs
  exact List.pairwise_map.mpr (hpairs.imp And.left)

theorem nodup_assignedIpv4 (hvalid : config.validate = .ok ()) :
    (config.clients.map (·.assignedIpv4)).Nodup := by
  have hpairs := ServerConfig.pairwise_of_validate hvalid
  rw [ServerConfig.entries, List.pairwise_map] at hpairs
  exact List.pairwise_map.mpr (hpairs.imp And.right)

/-- The original clients and the added ones are those that are left and the removed ones. -/
theorem perm_applyAll {order : List Pid} (hvalid : config.validate = .ok ())
    (h : applyAll libs jobs order config = some final) :
    final.validate = .ok () ∧ ∃ removed : List ConfiguredClient,
      removed.map (·.clientId) = order.filterMap (fun pid => (jobs pid).removed) ∧
      (final.clients ++ removed).Perm
        (config.clients ++ order.filterMap fun pid => (jobs pid).added libs) := by
  induction order generalizing config with
  | nil =>
    cases h
    exact ⟨hvalid, [], rfl, .refl _⟩
  | cons pid order ih =>
    rw [applyAll, List.foldlM_cons] at h
    obtain ⟨next, happly, h⟩ := Option.bind_eq_some_iff.mp h
    obtain ⟨hfinal, removed, hremoved, hperm⟩ := ih (Job.validate_apply hvalid happly) h
    refine ⟨hfinal, ?_⟩
    cases hjob : jobs pid with
    | add args =>
      rw [hjob] at happly
      obtain ⟨addr, haddr, happly⟩ := Option.bind_eq_some_iff.mp happly
      split at happly
      · cases happly
        refine ⟨removed, ?_, ?_⟩
        · rw [hremoved, List.filterMap_cons_none]
          rw [hjob]
          rfl
        · rw [List.filterMap_cons_some (b := args.serverClient libs addr)]
          · simpa [ServerConfig.withClient] using hperm
          · simp [hjob, Job.added, haddr]
      · cases happly
    | remove clientId =>
      rw [hjob] at happly
      obtain ⟨targetId, htarget, happly⟩ := Option.bind_eq_some_iff.mp happly
      split at happly
      · rename_i hfound
        cases happly
        obtain ⟨client, hclient, rfl⟩ := hfound
        refine ⟨client :: removed, ?_, ?_⟩
        · rw [List.filterMap_cons_some (b := client.clientId), List.map_cons, hremoved]
          rw [hjob]
          exact htarget
        · rw [List.filterMap_cons_none (by rw [hjob]; rfl)]
          -- The removed client moves to the front, where the original list has it.
          calc final.clients ++ client :: removed
            _ |>.Perm (client :: (final.clients ++ removed)) := List.perm_middle
            _ |>.Perm (client :: ((config.withoutClient client.clientId).clients ++ _)) :=
              hperm.cons _
            _ |>.Perm (config.clients ++ _) :=
              ((perm_withoutClient (nodup_clientIds hvalid) hclient).symm.append_right _)
      · cases happly

end Serial

/-- Where no process has begun with its files and has more to do with them while one that removes a
client is between its reading and its renaming: if all report success, the configuration at the path
is what they make of the original one in some order. It has the original clients and the added ones
without the removed ones, and no address twice. -/
theorem client_management_serialisable {Pid : Type} [DecidableEq Pid] (libs : Libraries)
    (configPath : Path) (jobs : Pid → Job) (hpaths : ∀ p, (jobs p).FilesApart configPath)
    (files : Files Path Pid) (hunlocked : ∀ i, files.locks i = none) (config : ServerConfig)
    (hconfig : configAt libs.serverToml configPath files = some config) (schedule : List Pid)
    (s : System Path Pid (Except CliError Unit))
    (hrun : (System.start files).run (fun p => (jobs p).program libs configPath) schedule = some s)
    (halone : (System.start files).Apart (fun p => (jobs p).program libs configPath)
      (fun p => (jobs p).isRemove) schedule)
    (hsuccess : ∀ p, (s.procs p).result = some (.ok ())) :
    ∃ order final, order.Nodup ∧ (∀ p, p ∈ order) ∧
      applyAll libs jobs order config = some final ∧
      configAt libs.serverToml configPath s.files = some final ∧
      (final.clients.map (·.assignedIpv4)).Nodup ∧
      ∃ removed : List ConfiguredClient,
        removed.map (·.clientId) = order.filterMap (fun p => (jobs p).removed) ∧
        (final.clients ++ removed).Perm
          (config.clients ++ order.filterMap fun p => (jobs p).added libs) := by
  obtain ⟨inode, hnamed⟩ : ∃ inode, files.names configPath = some inode := by
    cases hnames : files.names configPath with
    | none => simp [configAt, Files.contents, hnames] at hconfig
    | some inode => exact ⟨inode, rfl⟩
  have hload := (configAt_eq_some hnamed).mp hconfig
  have hjobs : ∀ p, if (jobs p).isRemove then
      Replaces configPath (Loads libs.serverToml) (fun p => Effect libs (jobs p)) p
        ((jobs p).program libs configPath)
      else Locks configPath (Loads libs.serverToml) (fun p => Effect libs (jobs p)) p
        ((jobs p).program libs configPath) := by
    intro p
    split
    · exact replaces_remove ‹_›
    · exact locks_add ‹_› (hpaths p)
  have hfinished : ∀ p, s.procs p = .finished (.ok ()) :=
    fun p => Proc.result_eq_some.mp (hsuccess p)
  have hsettled := (settled_start hunlocked hnamed hload).run hjobs hrun halone
  obtain ⟨log, final, inode', hserial, hnodup, hlog, hnamed', hload'⟩ :=
    hsettled.serial fun p => ⟨_, hfinished p⟩
  have hmem : ∀ p, (p, .ok ()) ∈ log := fun p => hlog p _ (hfinished p)
  -- Each process is in the log once, so its entry is its success.
  have hok : ∀ entry ∈ log, entry.2 = .ok () := by
    rintro ⟨p, r⟩ hentry
    have := List.inj_on_of_nodup_map hnodup hentry (hmem p) rfl
    exact congrArg Prod.snd this
  have happlied := applyAll_of_serial hserial hok
  obtain ⟨hvalid, hperm⟩ := perm_applyAll (ServerConfig.fromTomlStr_eq_ok.mp hload).2 happlied
  exact ⟨log.map Prod.fst, final, hnodup, fun p => List.mem_map.mpr ⟨_, hmem p, rfl⟩, happlied,
    (configAt_eq_some hnamed').mpr hload', nodup_assignedIpv4 hvalid, hperm⟩

namespace Sample

def jobs : Fin 3 → Job
  | 0 => .add (add 2 "2")
  | 1 => .add (add 3 "3")
  | 2 => .remove "02020202020202020202020202020202"

/-- The second process waits for the lock of the first; the third starts when both have ended. -/
def schedule : List (Fin 3) :=
  [0, 1, 0] ++ List.replicate 13 0 ++ List.replicate 13 1 ++ List.replicate 6 2

/-- The third process reads the configuration before the second one, and replaces it after. -/
def overlapping : List (Fin 3) :=
  List.replicate 15 0 ++ List.replicate 2 2 ++ List.replicate 14 1 ++ List.replicate 4 2

def run (schedule : List (Fin 3)) : Option (System Path (Fin 3) (Except CliError Unit)) :=
  (System.start (Files.single path [0])).run (fun p => (jobs p).program libs path) schedule

def inTurn : System Path (Fin 3) (Except CliError Unit) :=
  (run schedule).get (by decide +kernel)

def overlapped : System Path (Fin 3) (Except CliError Unit) :=
  (run overlapping).get (by decide +kernel)

end Sample

theorem client_management_serialisable_in_turn : ∃ order final, order.Nodup ∧ (∀ p, p ∈ order) ∧
    applyAll Sample.libs Sample.jobs order (Sample.config []) = some final ∧
    configAt Sample.libs.serverToml Sample.path Sample.inTurn.files = some final := by
  obtain ⟨order, final, hnodup, hmem, happlied, hfinal, -⟩ :=
    client_management_serialisable Sample.libs Sample.path Sample.jobs (by decide +kernel)
      (Files.single Sample.path [0]) (fun _ => rfl) (Sample.config []) (by decide +kernel)
      Sample.schedule Sample.inTurn (Option.some_get _).symm (by decide +kernel)
      (by decide +kernel)
  exact ⟨order, final, hnodup, hmem, happlied, hfinal⟩

/-- All three report success, but the second client is lost. -/
theorem client_management_loses_client :
    Sample.run Sample.overlapping = some Sample.overlapped ∧
      (∀ p, (Sample.overlapped.procs p).result = some (.ok ())) ∧
      configAt Sample.libs.serverToml Sample.path Sample.overlapped.files =
        some (Sample.config []) ∧
      ∀ order ∈ ([0, 1, 2] : List (Fin 3)).permutations',
        applyAll Sample.libs Sample.jobs order (Sample.config []) ≠ some (Sample.config []) :=
  ⟨(Option.some_get _).symm, by decide +kernel⟩

end Slt.Cli
