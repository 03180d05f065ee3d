import Slt.Server.Registry
import Mathlib.Data.List.Pairwise

/-!
# The configured clients

The part of a server configuration that says which clients there are, and
the checks its validation makes on them.
-/

namespace Slt.Server

open Lib (ofBe)

structure TunConfig where
  tunIpv4 : Ipv4Addr
  tunPrefix : Nat
  deriving DecidableEq

structure ServerClient where
  clientId : ClientId
  assignedIpv4 : Ipv4Addr
  deriving DecidableEq

/-- What the validation of a server configuration can find wrong. Durations are in
nanoseconds. -/
inductive ConfigError where
  | zeroPort (field : String)
  | emptyTunName
  | invalidTunMtu (tunMtu maxTunMtu : UInt16)
  | invalidTunPrefix (tunPrefix : Nat)
  | intervalTooSmall (field : String) (value min : Nat)
  | invalidPingInterval (pingMin pingMax : Nat)
  | zeroTimeout (field : String)
  | timeoutTooLarge (field : String) (value max : Nat)
  | emptyUdpQspAllowedCiphers
  | zeroSessionQueueSize
  | zeroMaxAuthInflight
  | zeroTcpConnectionCap
  | zeroUdpNatMaxEntries
  | clientUsesTunAddress (assignedIpv4 : Ipv4Addr)
  | clientOutsideTunSubnet (assignedIpv4 tunIpv4 : Ipv4Addr) (tunPrefix : Nat)
  | duplicateClientId (clientId : ClientId)
  | duplicateAssignedIpv4 (assignedIpv4 : Ipv4Addr)
  deriving DecidableEq

def ipv4NetworkBits (addr : Ipv4Addr) (networkPrefix : Nat) : UInt32 :=
  let mask : UInt32 :=
    if networkPrefix = 0 then 0
    else if networkPrefix ≤ 32 then 0xFFFFFFFF <<< UInt32.ofNat (32 - networkPrefix)
    else 0xFFFFFFFF
  UInt32.ofNat (ofBe addr.val) &&& mask

def TunConfig.containsIpv4 (tun : TunConfig) (addr : Ipv4Addr) : Bool :=
  ipv4NetworkBits addr tun.tunPrefix = ipv4NetworkBits tun.tunIpv4 tun.tunPrefix

/-- The loop over the clients, with what it has seen so far. -/
def validateClientsFrom (tun : TunConfig) (seenClientIds : List ClientId)
    (seenAssignedIpv4 : List Ipv4Addr) : List ServerClient → Except ConfigError Unit
  | [] => .ok ()
  | client :: clients =>
    if client.assignedIpv4 = tun.tunIpv4 then .error (.clientUsesTunAddress client.assignedIpv4)
    else if !tun.containsIpv4 client.assignedIpv4 then
      .error (.clientOutsideTunSubnet client.assignedIpv4 tun.tunIpv4 tun.tunPrefix)
    else if client.clientId ∈ seenClientIds then .error (.duplicateClientId client.clientId)
    else if client.assignedIpv4 ∈ seenAssignedIpv4 then
      .error (.duplicateAssignedIpv4 client.assignedIpv4)
    else
      validateClientsFrom tun (client.clientId :: seenClientIds)
        (client.assignedIpv4 :: seenAssignedIpv4) clients

def validateClients (tun : TunConfig) (clients : List ServerClient) : Except ConfigError Unit :=
  validateClientsFrom tun [] [] clients

def Assigned (clients : List ServerClient) (clientId : ClientId) (addr : Ipv4Addr) : Prop :=
  ⟨clientId, addr⟩ ∈ clients

def TunConfig.Assignable (tun : TunConfig) (addr : Ipv4Addr) : Prop :=
  addr ≠ tun.tunIpv4 ∧ tun.containsIpv4 addr

def ServerClient.Distinct (a b : ServerClient) : Prop :=
  a.clientId ≠ b.clientId ∧ a.assignedIpv4 ≠ b.assignedIpv4

theorem validateClientsFrom_eq_ok {tun : TunConfig} {ids : List ClientId} {addrs : List Ipv4Addr}
    {clients : List ServerClient} :
    validateClientsFrom tun ids addrs clients = .ok () ↔
      (∀ client ∈ clients, tun.Assignable client.assignedIpv4) ∧
      clients.Pairwise ServerClient.Distinct ∧
      ∀ client ∈ clients, client.clientId ∉ ids ∧ client.assignedIpv4 ∉ addrs := by
  induction clients generalizing ids addrs with
  | nil => simp [validateClientsFrom]
  | cons client clients ih =>
    rw [validateClientsFrom]
    simp only [List.forall_mem_cons, List.pairwise_cons]
    split_ifs with htun hsubnet hid haddr
    · simp [TunConfig.Assignable, htun]
    · simp [TunConfig.Assignable, Bool.eq_false_iff.mpr (by simpa using hsubnet)]
    · simp [hid]
    · simp [haddr]
    · have hassignable : tun.Assignable client.assignedIpv4 := ⟨htun, by simpa using hsubnet⟩
      rw [ih]
      constructor
      · rintro ⟨hfits, hpairs, hseen⟩
        refine ⟨⟨hassignable, hfits⟩, ⟨fun other hother => ?_, hpairs⟩, ⟨hid, haddr⟩,
          fun other hother => ?_⟩
        · have hnew := hseen other hother
          exact ⟨fun heq => hnew.1 (heq ▸ List.mem_cons_self),
            fun heq => hnew.2 (heq ▸ List.mem_cons_self)⟩
        · have hnew := hseen other hother
          exact ⟨fun hmem => hnew.1 (List.mem_cons_of_mem _ hmem),
            fun hmem => hnew.2 (List.mem_cons_of_mem _ hmem)⟩
      · rintro ⟨⟨-, hfits⟩, ⟨hfirst, hpairs⟩, -, hseen⟩
        refine ⟨hfits, hpairs, fun other hother => ?_⟩
        obtain ⟨hid', haddr'⟩ := hfirst other hother
        obtain ⟨hnewId, hnewAddr⟩ := hseen other hother
        simp only [List.mem_cons, not_or]
        exact ⟨⟨Ne.symm hid', hnewId⟩, Ne.symm haddr', hnewAddr⟩

theorem validateClients_eq_ok {tun : TunConfig} {clients : List ServerClient} :
    validateClients tun clients = .ok () ↔
      (∀ client ∈ clients, tun.Assignable client.assignedIpv4) ∧
      clients.Pairwise ServerClient.Distinct := by
  rw [validateClients, validateClientsFrom_eq_ok]
  simp

section Valid

variable {tun : TunConfig} {clients : List ServerClient}

/-- Entries of a validated configuration that share an id or an address are one entry. -/
theorem validateClients_entry (h : validateClients tun clients = .ok ()) {one other : ServerClient}
    (hone : one ∈ clients) (hother : other ∈ clients)
    (hshared : one.clientId = other.clientId ∨ one.assignedIpv4 = other.assignedIpv4) :
    one = other := by
  by_contra hne
  have : Std.Symm ServerClient.Distinct := ⟨fun a b hab => ⟨hab.1.symm, hab.2.symm⟩⟩
  have hdistinct := (validateClients_eq_ok.mp h).2.forall hone hother hne
  exact hshared.elim hdistinct.1 hdistinct.2

theorem Assigned.address_unique (h : validateClients tun clients = .ok ()) {clientId : ClientId}
    {addr other : Ipv4Addr} (hone : Assigned clients clientId addr)
    (hother : Assigned clients clientId other) : addr = other :=
  congrArg ServerClient.assignedIpv4 (validateClients_entry h hone hother (.inl rfl))

theorem Assigned.client_unique (h : validateClients tun clients = .ok ()) {addr : Ipv4Addr}
    {clientId other : ClientId} (hone : Assigned clients clientId addr)
    (hother : Assigned clients other addr) : clientId = other :=
  congrArg ServerClient.clientId (validateClients_entry h hone hother (.inr rfl))

end Valid

end Slt.Server
