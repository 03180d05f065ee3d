import Slt.Types
import Slt.Lib.U64
import Mathlib.Logic.Function.Basic

/-!
# The session registry

The server's routing tables: the session of each client, and the sessions
that packets are delivered to by tunnel address and by connection id prefix.
All sessions share it; each call holds its lock for the whole call.
-/

namespace Slt.Server

open Lib (Bytes FixedBytes U64.saturatingAdd)

abbrev ClientId := FixedBytes 16
abbrev Ipv4Addr := FixedBytes 4

abbrev SessionTx := Nat

inductive CidInsertError where
  | prefixCollision (dcidPrefix : CidPrefix)
  | staleSession (clientId : ClientId) (sessionId : UInt64) (activeSessionId : Option UInt64)
  deriving DecidableEq

structure CidRoute where
  sessionId : UInt64
  tx : SessionTx

structure SessionHandle where
  sessionId : UInt64
  clientId : ClientId
  assignedIpv4 : Ipv4Addr
  tx : SessionTx

structure SessionRegistry where
  nextSessionId : UInt64
  sessions : ClientId → Option SessionHandle
  ipRoutes : Ipv4Addr → Option SessionHandle
  cidRoutes : CidPrefix → Option CidRoute

namespace SessionRegistry

def new : SessionRegistry := ⟨1, fun _ => none, fun _ => none, fun _ => none⟩

def retainCids (registry : SessionRegistry) (keep : CidPrefix → CidRoute → Bool) :
    SessionRegistry :=
  { registry with cidRoutes := fun dcidPrefix =>
      (registry.cidRoutes dcidPrefix).filter (keep dcidPrefix) }

def removeCidsForSession (registry : SessionRegistry) (sessionId : UInt64) : SessionRegistry :=
  registry.retainCids fun _ route => route.sessionId ≠ sessionId

def removeCidsForSessionExcept (registry : SessionRegistry) (sessionId : UInt64)
    (keepPrefix : CidPrefix) : SessionRegistry :=
  registry.retainCids fun dcidPrefix route =>
    route.sessionId ≠ sessionId || dcidPrefix = keepPrefix

def registerSession (registry : SessionRegistry) (clientId : ClientId) (assignedIpv4 : Ipv4Addr)
    (tx : SessionTx) : SessionHandle × SessionRegistry :=
  let handle : SessionHandle := ⟨registry.nextSessionId, clientId, assignedIpv4, tx⟩
  let cleared :=
    match registry.sessions clientId with
    | none => registry
    | some old =>
      { registry.removeCidsForSession old.sessionId with
        ipRoutes :=
          if old.assignedIpv4 ≠ assignedIpv4 then
            Function.update registry.ipRoutes old.assignedIpv4 none
          else registry.ipRoutes }
  (handle,
    { cleared with
      nextSessionId := UInt64.ofNat (U64.saturatingAdd registry.nextSessionId.toNat 1)
      sessions := Function.update registry.sessions clientId (some handle)
      ipRoutes := Function.update cleared.ipRoutes assignedIpv4 (some handle) })

def insertCid (registry : SessionRegistry) (clientId : ClientId) (sessionId : UInt64)
    (dcidPrefix : CidPrefix) (tx : SessionTx) : Except CidInsertError SessionRegistry :=
  let activeSessionId := (registry.sessions clientId).map (·.sessionId)
  if activeSessionId ≠ some sessionId then .error (.staleSession clientId sessionId activeSessionId)
  else if (registry.cidRoutes dcidPrefix).any (·.sessionId ≠ sessionId) then
    .error (.prefixCollision dcidPrefix)
  else
    .ok { registry with
          cidRoutes := Function.update registry.cidRoutes dcidPrefix (some ⟨sessionId, tx⟩) }

/-- A session that has ended takes its own entries with it. -/
def removeSession (registry : SessionRegistry) (sessionId : UInt64) (clientId : ClientId)
    (assignedIpv4 : Ipv4Addr) : SessionRegistry :=
  let owns := fun handle : Option SessionHandle => handle.any (·.sessionId = sessionId)
  { registry.removeCidsForSession sessionId with
    sessions :=
      if owns (registry.sessions clientId) then Function.update registry.sessions clientId none
      else registry.sessions
    ipRoutes :=
      if owns (registry.ipRoutes assignedIpv4) then
        Function.update registry.ipRoutes assignedIpv4 none
      else registry.ipRoutes }

end SessionRegistry

end Slt.Server
