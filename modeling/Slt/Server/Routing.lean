import Slt.Server.Config

/-!
# Routing under takeover

Any number of sessions call the registry, each with its own handle, in any
order: a session that has been replaced or removed may still be at work and
call late. Each client has the address that a validated configuration gives
it, and fewer sessions are registered than there are ids, so that every id
names one session.

The registry then only ever routes to the sessions it has for some client,
and a call of any other session changes nothing.
-/

namespace Slt.Server

open Lib (U64.saturatingAdd U64.saturatingAdd_of_lt)

inductive SessionCall where
  | removeSession
  | insertCid (dcidPrefix : CidPrefix) (tx : SessionTx)
  | removeCids
  | removeCidsExcept (keepPrefix : CidPrefix)

def SessionCall.apply (registry : SessionRegistry) (caller : SessionHandle) :
    SessionCall → SessionRegistry
  | .removeSession => registry.removeSession caller.sessionId caller.clientId caller.assignedIpv4
  | .insertCid dcidPrefix tx =>
    match registry.insertCid caller.clientId caller.sessionId dcidPrefix tx with
    | .ok inserted => inserted
    | .error _ => registry
  | .removeCids => registry.removeCidsForSession caller.sessionId
  | .removeCidsExcept keepPrefix => registry.removeCidsForSessionExcept caller.sessionId keepPrefix

/-- What a run of calls can lead to, with the sessions registered on the way,
newest first. -/
inductive SessionRegistry.Reachable (clients : List ServerClient) :
    SessionRegistry → List SessionHandle → Prop where
  | new : Reachable clients .new []
  | register {registry : SessionRegistry} {issued : List SessionHandle} {clientId : ClientId}
      {addr : Ipv4Addr} (tx : SessionTx) :
      Reachable clients registry issued → Assigned clients clientId addr →
      Reachable clients (registry.registerSession clientId addr tx).2
        ((registry.registerSession clientId addr tx).1 :: issued)
  | call {registry : SessionRegistry} {issued : List SessionHandle} {caller : SessionHandle}
      (call : SessionCall) :
      Reachable clients registry issued → caller ∈ issued →
      Reachable clients (call.apply registry caller) issued

def SessionRegistry.Active (registry : SessionRegistry) (handle : SessionHandle) : Prop :=
  registry.sessions handle.clientId = some handle

/-! ## What the calls do to the three maps -/

namespace SessionRegistry

variable {registry : SessionRegistry}

theorem retainCids_eq_some {keep : CidPrefix → CidRoute → Bool} {dcidPrefix : CidPrefix}
    {route : CidRoute} :
    (registry.retainCids keep).cidRoutes dcidPrefix = some route ↔
      registry.cidRoutes dcidPrefix = some route ∧ keep dcidPrefix route = true := by
  simp [retainCids, Option.filter_eq_some_iff]

theorem retainCids_eq_self {keep : CidPrefix → CidRoute → Bool}
    (h : ∀ dcidPrefix route, registry.cidRoutes dcidPrefix = some route →
      keep dcidPrefix route = true) : registry.retainCids keep = registry := by
  have hroutes : (registry.retainCids keep).cidRoutes = registry.cidRoutes := by
    funext dcidPrefix
    cases hroute : registry.cidRoutes dcidPrefix with
    | none => simp [retainCids, hroute]
    | some route => exact retainCids_eq_some.mpr ⟨hroute, h _ _ hroute⟩
  rw [show registry.retainCids keep =
    { registry with cidRoutes := (registry.retainCids keep).cidRoutes } from rfl, hroutes]

theorem insertCid_ok {clientId : ClientId} {sessionId : UInt64} {dcidPrefix : CidPrefix}
    {tx : SessionTx} {inserted : SessionRegistry}
    (h : registry.insertCid clientId sessionId dcidPrefix tx = .ok inserted) :
    (registry.sessions clientId).map (·.sessionId) = some sessionId ∧
      (∀ route, registry.cidRoutes dcidPrefix = some route → route.sessionId = sessionId) ∧
      inserted = { registry with
        cidRoutes := Function.update registry.cidRoutes dcidPrefix (some ⟨sessionId, tx⟩) } := by
  unfold insertCid at h
  by_cases hstale : (registry.sessions clientId).map (·.sessionId) ≠ some sessionId
  · simp [hstale] at h
  rw [if_neg hstale] at h
  by_cases hother : (registry.cidRoutes dcidPrefix).any (·.sessionId ≠ sessionId)
  · rw [if_pos hother] at h
    cases h
  rw [if_neg hother] at h
  refine ⟨not_not.mp hstale, ?_, (Except.ok.inj h).symm⟩
  intro route hroute
  simpa [hroute] using hother

theorem insertCid_stale {clientId : ClientId} {sessionId : UInt64} {dcidPrefix : CidPrefix}
    {tx : SessionTx} (h : (registry.sessions clientId).map (·.sessionId) ≠ some sessionId) :
    registry.insertCid clientId sessionId dcidPrefix tx =
      .error (.staleSession clientId sessionId ((registry.sessions clientId).map (·.sessionId))) := by
  unfold insertCid
  rw [if_pos h]

end SessionRegistry

/-! ## The invariant -/

/-- The registry and the sessions registered so far agree. -/
structure SessionRegistry.Consistent (clients : List ServerClient) (registry : SessionRegistry)
    (issued : List SessionHandle) : Prop where
  next : registry.nextSessionId.toNat = issued.length + 1
  below : ∀ handle ∈ issued, handle.sessionId.toNat ≤ issued.length
  unique : ∀ handle ∈ issued, ∀ other ∈ issued, handle.sessionId = other.sessionId → handle = other
  assigned : ∀ handle ∈ issued, Assigned clients handle.clientId handle.assignedIpv4
  sessions : ∀ clientId handle, registry.sessions clientId = some handle →
    handle ∈ issued ∧ handle.clientId = clientId
  address : ∀ clientId addr, Assigned clients clientId addr →
    registry.ipRoutes addr = registry.sessions clientId
  routed : ∀ addr handle, registry.ipRoutes addr = some handle →
    Assigned clients handle.clientId addr
  owned : ∀ dcidPrefix route, registry.cidRoutes dcidPrefix = some route →
    ∃ handle, registry.Active handle ∧ handle.sessionId = route.sessionId

namespace SessionRegistry.Consistent

variable {tun : TunConfig} {clients : List ServerClient} {registry : SessionRegistry}
  {issued : List SessionHandle} {caller : SessionHandle}

theorem new : Consistent clients .new [] := by
  constructor <;> simp [SessionRegistry.new, SessionRegistry.Active]

section

variable (inv : Consistent clients registry issued)
include inv

theorem active_mem {handle : SessionHandle} (h : registry.Active handle) :
    handle ∈ issued := (inv.sessions _ _ h).1

theorem no_entry (hmem : caller ∈ issued) (hstale : ¬ registry.Active caller) {clientId : ClientId}
    {handle : SessionHandle}
    (h : registry.sessions clientId = some handle) : handle.sessionId ≠ caller.sessionId := by
  intro hid
  obtain ⟨hissued, rfl⟩ := inv.sessions _ _ h
  cases inv.unique _ hissued _ hmem hid
  exact hstale h

theorem no_route (hmem : caller ∈ issued) (hstale : ¬ registry.Active caller)
    {dcidPrefix : CidPrefix} {route : CidRoute}
    (h : registry.cidRoutes dcidPrefix = some route) : route.sessionId ≠ caller.sessionId := by
  obtain ⟨handle, hactive, hid⟩ := inv.owned _ _ h
  rw [← hid]
  exact inv.no_entry hmem hstale hactive

/-! ## Registration -/

theorem fresh {handle : SessionHandle} (h : handle ∈ issued) :
    handle.sessionId ≠ registry.nextSessionId := by
  intro hid
  have hbelow := inv.below _ h
  rw [hid, inv.next] at hbelow
  omega

end

section Register

variable {clientId : ClientId} {addr : Ipv4Addr} {tx : SessionTx}

theorem register_sessions :
    (registry.registerSession clientId addr tx).2.sessions =
      Function.update registry.sessions clientId
        (some (registry.registerSession clientId addr tx).1) := by
  unfold registerSession
  cases registry.sessions clientId <;> rfl

/-- The address of a client does not change, so its route is only overwritten. -/
theorem register_ipRoutes (inv : Consistent clients registry issued)
    (hvalid : validateClients tun clients = .ok ()) (hassigned : Assigned clients clientId addr) :
    (registry.registerSession clientId addr tx).2.ipRoutes =
      Function.update registry.ipRoutes addr
        (some (registry.registerSession clientId addr tx).1) := by
  unfold registerSession
  cases hold : registry.sessions clientId with
  | none => rfl
  | some old =>
    obtain ⟨hissued, rfl⟩ := inv.sessions _ _ hold
    have hsame := (inv.assigned _ hissued).address_unique hvalid hassigned
    simp [hsame]

/-- The routes that survive a registration are those of other clients. -/
theorem register_cidRoutes (inv : Consistent clients registry issued) {dcidPrefix : CidPrefix}
    {route : CidRoute}
    (h : (registry.registerSession clientId addr tx).2.cidRoutes dcidPrefix = some route) :
    registry.cidRoutes dcidPrefix = some route ∧
      ∃ handle, registry.Active handle ∧ handle.clientId ≠ clientId ∧
        handle.sessionId = route.sessionId := by
  unfold registerSession at h
  cases hold : registry.sessions clientId with
  | none =>
    simp only [hold] at h
    obtain ⟨handle, hactive, hid⟩ := inv.owned _ _ h
    refine ⟨h, handle, hactive, ?_, hid⟩
    rintro rfl
    rw [Active, hold] at hactive
    cases hactive
  | some old =>
    simp only [hold] at h
    obtain ⟨hroute, hkeep⟩ := retainCids_eq_some.mp h
    obtain ⟨handle, hactive, hid⟩ := inv.owned _ _ hroute
    refine ⟨hroute, handle, hactive, ?_, hid⟩
    rintro rfl
    rw [Active, hold] at hactive
    cases hactive
    simp [hid] at hkeep

theorem register (inv : Consistent clients registry issued)
    (hvalid : validateClients tun clients = .ok ()) (hassigned : Assigned clients clientId addr)
    (hcount : issued.length + 1 < 2 ^ 64 - 1) :
    Consistent clients (registry.registerSession clientId addr tx).2
      ((registry.registerSession clientId addr tx).1 :: issued) := by
  have hroutes : (registry.registerSession clientId addr tx).2.ipRoutes = _ :=
    inv.register_ipRoutes hvalid hassigned
  constructor
  case next =>
    show (UInt64.ofNat _).toNat = _
    rw [inv.next, U64.saturatingAdd_of_lt (by omega), List.length_cons,
      UInt64.toNat_ofNat_of_lt' (by rw [UInt64.size]; omega)]
  case below =>
    rintro other (_ | ⟨_, hother⟩)
    · show registry.nextSessionId.toNat ≤ _
      rw [inv.next, List.length_cons]
    · exact Nat.le_succ_of_le (inv.below _ hother)
  case unique =>
    rintro one (_ | ⟨_, hone⟩) other (_ | ⟨_, hother⟩) heq
    · rfl
    · exact absurd heq.symm (inv.fresh hother)
    · exact absurd heq (inv.fresh hone)
    · exact inv.unique _ hone _ hother heq
  case assigned =>
    rintro other (_ | ⟨_, hother⟩)
    · exact hassigned
    · exact inv.assigned _ hother
  case sessions =>
    intro c other hc
    rw [register_sessions] at hc
    by_cases heq : c = clientId
    · subst heq
      rw [Function.update_self] at hc
      cases hc
      exact ⟨List.mem_cons_self, rfl⟩
    · rw [Function.update_of_ne heq] at hc
      exact ⟨List.mem_cons_of_mem _ (inv.sessions _ _ hc).1, (inv.sessions _ _ hc).2⟩
  -- Client and address belong to each other in the configuration, so the two tables
  -- change at the same place.
  case address =>
    intro c a hc
    rw [register_sessions, hroutes]
    by_cases heq : c = clientId
    · subst heq
      rw [hc.address_unique hvalid hassigned, Function.update_self, Function.update_self]
    · have hne : a ≠ addr := by
        rintro rfl
        exact heq (hc.client_unique hvalid hassigned)
      rw [Function.update_of_ne heq, Function.update_of_ne hne, inv.address _ _ hc]
  case routed =>
    intro a other hother
    rw [hroutes] at hother
    by_cases heq : a = addr
    · subst heq
      rw [Function.update_self] at hother
      cases hother
      exact hassigned
    · rw [Function.update_of_ne heq] at hother
      exact inv.routed _ _ hother
  -- The routes of the replaced session are gone with it.
  case owned =>
    intro dcidPrefix route hroute
    obtain ⟨-, other, hactive, hne, hother⟩ := inv.register_cidRoutes hroute
    refine ⟨other, ?_, hother⟩
    rw [Active, register_sessions, Function.update_of_ne hne]
    exact hactive

end Register

/-! ## Calls of a session -/

variable (inv : Consistent clients registry issued)
include inv

theorem retainCids (keep : CidPrefix → CidRoute → Bool) :
    Consistent clients (registry.retainCids keep) issued where
  next := inv.next
  below := inv.below
  unique := inv.unique
  assigned := inv.assigned
  sessions := inv.sessions
  address := inv.address
  routed := inv.routed
  owned _ _ h := inv.owned _ _ (retainCids_eq_some.mp h).1

theorem stale_call (hmem : caller ∈ issued) (hstale : ¬ registry.Active caller)
    (call : SessionCall) :
    call.apply registry caller = registry := by
  have hsession : ∀ clientId, (registry.sessions clientId).any (·.sessionId = caller.sessionId) =
      false := by
    intro clientId
    cases h : registry.sessions clientId with
    | none => rfl
    | some handle => simpa using inv.no_entry hmem hstale h
  have hcids : registry.removeCidsForSession caller.sessionId = registry :=
    retainCids_eq_self fun _ _ hroute => by simpa using inv.no_route hmem hstale hroute
  cases call with
  | removeSession =>
    have haddress : registry.ipRoutes caller.assignedIpv4 = registry.sessions caller.clientId :=
      inv.address _ _ (inv.assigned _ hmem)
    simp [SessionCall.apply, removeSession, hcids, haddress, hsession]
  | insertCid dcidPrefix tx =>
    have hnot : (registry.sessions caller.clientId).map (·.sessionId) ≠ some caller.sessionId := by
      intro h
      obtain ⟨handle, hhandle, hid⟩ := Option.map_eq_some_iff.mp h
      exact inv.no_entry hmem hstale hhandle hid
    rw [SessionCall.apply, insertCid_stale hnot]
  | removeCids => exact hcids
  | removeCidsExcept keepPrefix =>
    exact retainCids_eq_self fun _ _ hroute => by simp [inv.no_route hmem hstale hroute]

theorem removeSession_active (hactive : registry.Active caller) :
    registry.removeSession caller.sessionId caller.clientId caller.assignedIpv4 =
      { registry.removeCidsForSession caller.sessionId with
        sessions := Function.update registry.sessions caller.clientId none
        ipRoutes := Function.update registry.ipRoutes caller.assignedIpv4 none } := by
  have hsessions : registry.sessions caller.clientId = some caller := hactive
  have haddress := inv.address _ _ (inv.assigned _ (inv.active_mem hactive))
  simp [removeSession, haddress, hsessions]

theorem removeSession (hvalid : validateClients tun clients = .ok ())
    (hactive : registry.Active caller) :
    Consistent clients
      (registry.removeSession caller.sessionId caller.clientId caller.assignedIpv4) issued := by
  have hassigned := inv.assigned _ (inv.active_mem hactive)
  rw [inv.removeSession_active hactive]
  constructor
  case next => exact inv.next
  case below => exact inv.below
  case unique => exact inv.unique
  case assigned => exact inv.assigned
  case sessions =>
    intro c handle hc
    by_cases heq : c = caller.clientId
    · simp [heq] at hc
    · exact inv.sessions _ _ (by simpa [Function.update_of_ne heq] using hc)
  case address =>
    intro c a hc
    dsimp only
    by_cases heq : c = caller.clientId
    · subst heq
      rw [hc.address_unique hvalid hassigned, Function.update_self, Function.update_self]
    · have hne : a ≠ caller.assignedIpv4 := by
        rintro rfl
        exact heq (hc.client_unique hvalid hassigned)
      rw [Function.update_of_ne heq, Function.update_of_ne hne, inv.address _ _ hc]
  case routed =>
    intro a handle hroute
    by_cases heq : a = caller.assignedIpv4
    · simp [heq] at hroute
    · exact inv.routed _ _ (by simpa [Function.update_of_ne heq] using hroute)
  case owned =>
    intro dcidPrefix route hroute
    have hretained : (registry.removeCidsForSession caller.sessionId).cidRoutes dcidPrefix =
      some route := hroute
    obtain ⟨hbefore, hkeep⟩ := retainCids_eq_some.mp hretained
    obtain ⟨handle, hhandle, hid⟩ := inv.owned _ _ hbefore
    -- The route is not the caller's, so it is a route of another client.
    have hne : handle.clientId ≠ caller.clientId := by
      intro heq
      rw [Active, heq, hactive] at hhandle
      cases hhandle
      simp [hid] at hkeep
    exact ⟨handle, by simpa [Active, Function.update_of_ne hne] using hhandle, hid⟩

theorem insertCid {clientId : ClientId} {sessionId : UInt64} {dcidPrefix : CidPrefix}
    {tx : SessionTx} {inserted : SessionRegistry}
    (h : registry.insertCid clientId sessionId dcidPrefix tx = .ok inserted) :
    Consistent clients inserted issued := by
  obtain ⟨hsession, -, rfl⟩ := insertCid_ok h
  refine ⟨inv.next, inv.below, inv.unique, inv.assigned, inv.sessions, inv.address, inv.routed, ?_⟩
  intro other route hroute
  dsimp only at hroute
  by_cases heq : other = dcidPrefix
  · subst heq
    rw [Function.update_self] at hroute
    cases hroute
    obtain ⟨handle, hhandle, hid⟩ := Option.map_eq_some_iff.mp hsession
    obtain ⟨-, rfl⟩ := inv.sessions _ _ hhandle
    exact ⟨handle, hhandle, hid⟩
  · rw [Function.update_of_ne heq] at hroute
    exact inv.owned _ _ hroute

theorem call (hvalid : validateClients tun clients = .ok ()) (hmem : caller ∈ issued)
    (call : SessionCall) :
    Consistent clients (call.apply registry caller) issued := by
  by_cases hactive : registry.Active caller
  · cases call with
    | removeSession => exact inv.removeSession hvalid hactive
    | insertCid dcidPrefix tx =>
      rw [SessionCall.apply]
      cases h : registry.insertCid caller.clientId caller.sessionId dcidPrefix tx with
      | ok inserted => exact inv.insertCid h
      | error _ => exact inv
    | removeCids => exact inv.retainCids _
    | removeCidsExcept _ => exact inv.retainCids _
  · rw [inv.stale_call hmem hactive]
    exact inv

end SessionRegistry.Consistent

theorem SessionRegistry.Reachable.consistent {tun : TunConfig} {clients : List ServerClient}
    {registry : SessionRegistry} {issued : List SessionHandle}
    (reach : Reachable clients registry issued) (hvalid : validateClients tun clients = .ok ())
    (hcount : issued.length < 2 ^ 64 - 1) : Consistent clients registry issued := by
  induction reach with
  | new => exact .new
  | register tx _ hassigned ih =>
    rw [List.length_cons] at hcount
    exact (ih (by omega)).register hvalid hassigned hcount
  | call call _ hmem ih => exact (ih hcount).call hvalid hmem call

/-! ## Results -/

theorem SessionCall.apply_keeps_owner {registry : SessionRegistry} {caller : SessionHandle}
    (call : SessionCall) {dcidPrefix : CidPrefix} {route after : CidRoute}
    (hbefore : registry.cidRoutes dcidPrefix = some route)
    (hafter : (call.apply registry caller).cidRoutes dcidPrefix = some after) :
    after.sessionId = route.sessionId := by
  have retained : ∀ keep, (registry.retainCids keep).cidRoutes dcidPrefix = some after →
      after.sessionId = route.sessionId := by
    intro keep h
    have hsame := (SessionRegistry.retainCids_eq_some.mp h).1
    rw [hbefore] at hsame
    cases hsame
    rfl
  cases call with
  | removeSession =>
    exact retained (fun _ route => route.sessionId ≠ caller.sessionId) hafter
  | removeCids => exact retained _ hafter
  | removeCidsExcept _ => exact retained _ hafter
  | insertCid inserted tx =>
    rw [SessionCall.apply] at hafter
    cases h : registry.insertCid caller.clientId caller.sessionId inserted tx with
    | error _ =>
      rw [h, hbefore] at hafter
      cases hafter
      rfl
    | ok _ =>
      obtain ⟨-, howner, rfl⟩ := SessionRegistry.insertCid_ok h
      rw [h] at hafter
      by_cases heq : dcidPrefix = inserted
      · subst heq
        simp only [Function.update_self, Option.some.injEq] at hafter
        rw [← hafter, howner _ hbefore]
      · simp only [Function.update_of_ne heq, hbefore, Option.some.injEq] at hafter
        rw [hafter]

theorem registry_consistent {tun : TunConfig} {clients : List ServerClient}
    {registry : SessionRegistry} {issued : List SessionHandle}
    (hvalid : validateClients tun clients = .ok ())
    (reach : SessionRegistry.Reachable clients registry issued)
    (hcount : issued.length < 2 ^ 64 - 1) :
    -- Every route by connection id leads to the session of some client.
    (∀ dcidPrefix route, registry.cidRoutes dcidPrefix = some route →
      ∃ clientId handle, registry.sessions clientId = some handle ∧ handle.clientId = clientId ∧
        handle.sessionId = route.sessionId) ∧
    -- The clients' sessions are the sessions routed by address.
    (∀ sessionId,
      (∃ clientId handle, registry.sessions clientId = some handle ∧
        handle.sessionId = sessionId) ↔
      ∃ addr handle, registry.ipRoutes addr = some handle ∧ handle.sessionId = sessionId) ∧
    (∀ addr handle, registry.ipRoutes addr = some handle →
      Assigned clients handle.clientId addr ∧
        registry.sessions handle.clientId = some handle) ∧
    -- No call gives a prefix that one session has to another.
    (∀ caller ∈ issued, ∀ (call : SessionCall) dcidPrefix route after,
      registry.cidRoutes dcidPrefix = some route →
      (call.apply registry caller).cidRoutes dcidPrefix = some after →
      after.sessionId = route.sessionId) ∧
    (∀ clientId addr tx dcidPrefix route after, Assigned clients clientId addr →
      registry.cidRoutes dcidPrefix = some route →
      (registry.registerSession clientId addr tx).2.cidRoutes dcidPrefix = some after →
      after.sessionId = route.sessionId) ∧
    -- A session that has been replaced or removed changes nothing.
    (∀ caller ∈ issued, registry.sessions caller.clientId ≠ some caller →
      ∀ call : SessionCall, call.apply registry caller = registry) := by
  have inv := reach.consistent hvalid hcount
  have hroute : ∀ addr handle, registry.ipRoutes addr = some handle →
      Assigned clients handle.clientId addr ∧
        registry.sessions handle.clientId = some handle := by
    intro addr handle h
    have hassigned := inv.routed _ _ h
    refine ⟨hassigned, ?_⟩
    rw [← inv.address _ _ hassigned, h]
  refine ⟨?_, ?_, hroute, ?_, ?_, ?_⟩
  · intro dcidPrefix route h
    obtain ⟨handle, hactive, hid⟩ := inv.owned _ _ h
    exact ⟨handle.clientId, handle, hactive, rfl, hid⟩
  · intro sessionId
    constructor
    · rintro ⟨clientId, handle, h, hid⟩
      obtain ⟨hissued, rfl⟩ := inv.sessions _ _ h
      exact ⟨handle.assignedIpv4, handle,
        by rw [inv.address _ _ (inv.assigned _ hissued), h], hid⟩
    · rintro ⟨addr, handle, h, hid⟩
      exact ⟨handle.clientId, handle, (hroute _ _ h).2, hid⟩
  · exact fun _ _ call _ _ _ => call.apply_keeps_owner
  · intro clientId addr tx dcidPrefix route after _ hbefore hafter
    have hsame := (inv.register_cidRoutes hafter).1
    rw [hbefore] at hsame
    cases hsame
    rfl
  · exact fun _ hmem hstale call => inv.stale_call hmem hstale call

def reconnecting : ServerClient := ⟨.replicate 16 1, ⟨[10, 0, 0, 2], rfl⟩⟩

theorem reconnecting_valid :
    validateClients ⟨⟨[10, 0, 0, 1], rfl⟩, 24⟩ [reconnecting] = .ok () := by decide

theorem reconnecting_assigned :
    Assigned [reconnecting] reconnecting.clientId reconnecting.assignedIpv4 :=
  List.mem_singleton_self _

def firstConnection : SessionHandle × SessionRegistry :=
  SessionRegistry.new.registerSession reconnecting.clientId reconnecting.assignedIpv4 0

def secondConnection : SessionHandle × SessionRegistry :=
  firstConnection.2.registerSession reconnecting.clientId reconnecting.assignedIpv4 1

theorem registry_consistent_reconnect :
    secondConnection.2.sessions reconnecting.clientId = some secondConnection.1 ∧
      ∀ call : SessionCall,
        call.apply secondConnection.2 firstConnection.1 = secondConnection.2 := by
  have hcurrent : secondConnection.2.sessions reconnecting.clientId = some secondConnection.1 := rfl
  have reach : SessionRegistry.Reachable [reconnecting] secondConnection.2
      [secondConnection.1, firstConnection.1] :=
    .register 1 (.register 0 .new reconnecting_assigned) reconnecting_assigned
  refine ⟨hcurrent, ?_⟩
  refine (registry_consistent reconnecting_valid reach (by decide)).2.2.2.2.2 firstConnection.1
    (by simp) ?_
  intro hsame
  have hids := congrArg (Option.map SessionHandle.sessionId) (hcurrent.symm.trans hsame)
  revert hids
  decide

end Slt.Server
