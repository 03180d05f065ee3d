import Slt.Android.Cidr

/-!
# Normalised rules

What rules and plans do to an address, and that normalisation changes nothing of
it. Normalisation drops duplicates and those rules that a shorter prefix makes
redundant. As tables of prefixes, that is the reduction of the table of the
rules, which looks up every address as before.
-/

namespace Slt.Android

open Lib Lib.PrefixTable

/-! ## Masks -/

/-- The first `k` bits of the bytes, as a number. -/
def firstBits (a : Bytes) (k : Nat) : Nat := ofBe a >>> (8 * a.length - k)

theorem toNat_and_byteMask (b : UInt8) {k : Nat} (hk : k < 8) :
    (b &&& UInt8.ofNat (0xff <<< (8 - k) &&& 0xff)).toNat = b.toNat >>> (8 - k) <<< (8 - k) := by
  have hall : ∀ k : Fin 8, ∀ b : Fin 256,
      (UInt8.ofNat b.val &&& UInt8.ofNat (0xff <<< (8 - k.val) &&& 0xff)).toNat =
        b.val >>> (8 - k.val) <<< (8 - k.val) := by decide +kernel
  have h := hall ⟨k, hk⟩ ⟨b.toNat, b.toNat_lt⟩
  rwa [UInt8.ofNat_toNat] at h

theorem length_maskedNetworkBytes : ∀ (a : Bytes) (k : Nat),
    (maskedNetworkBytes a k).length = a.length
  | [], _ => rfl
  | b :: bs, k => by
    unfold maskedNetworkBytes
    split
    · simp [length_maskedNetworkBytes bs]
    · split <;> simp [length_maskedNetworkBytes bs]

/-- The mask keeps the first bits of an address and clears the others. -/
theorem ofBe_maskedNetworkBytes : ∀ (a : Bytes) (k : Nat),
    ofBe (maskedNetworkBytes a k) = firstBits a k <<< (8 * a.length - k)
  | [], k => by simp [maskedNetworkBytes, firstBits, ofBe]
  | b :: bs, k => by
    have hlt := ofBe_lt bs
    have hpow : 256 ^ bs.length = 2 ^ (8 * bs.length) := by rw [Nat.pow_mul]
    -- Behind the last kept bit every byte is zero.
    have hclear : ofBe (maskedNetworkBytes bs 0) = 0 := by
      rw [ofBe_maskedNetworkBytes, firstBits, Nat.sub_zero, Nat.shiftRight_eq_zero _ _ (hpow ▸ hlt),
        Nat.zero_shiftLeft]
    have hhigh : (b.toNat * 2 ^ (8 * bs.length) + ofBe bs) >>> (8 * bs.length) = b.toNat := by
      rw [Nat.shiftRight_eq_div_pow, Nat.add_comm, Nat.add_mul_div_right _ _ (Nat.two_pow_pos _),
        Nat.div_eq_of_lt (hpow ▸ hlt), Nat.zero_add]
    rw [firstBits, ofBe, hpow, List.length_cons, maskedNetworkBytes]
    -- Either the whole byte is kept and the rest is masked, or the mask ends in this byte.
    by_cases hk : 8 ≤ k
    · obtain ⟨d, hd⟩ := Nat.exists_eq_add_of_le (Nat.sub_le (8 * bs.length) (k - 8))
      rw [if_pos hk, ofBe, ofBe_maskedNetworkBytes bs, length_maskedNetworkBytes, hpow,
        show 8 * (bs.length + 1) - k = 8 * bs.length - (k - 8) by omega, firstBits]
      generalize 8 * bs.length - (k - 8) = s at *
      rw [hd, Nat.pow_add, Nat.shiftRight_eq_div_pow, Nat.shiftLeft_eq, Nat.shiftRight_eq_div_pow,
        Nat.shiftLeft_eq, Nat.mul_comm (2 ^ s), ← Nat.mul_assoc, Nat.add_comm _ (ofBe bs),
        Nat.add_mul_div_right _ _ (Nat.two_pow_pos s), Nat.add_mul, Nat.add_comm]
    · rw [if_neg hk, show 8 * (bs.length + 1) - k = 8 * bs.length + (8 - k) by omega,
        Nat.shiftRight_add, hhigh, Nat.add_comm (8 * bs.length), Nat.shiftLeft_add,
        ← toNat_and_byteMask b (by omega), Nat.shiftLeft_eq _ (8 * bs.length)]
      split
      · subst_vars
        simp [ofBe, hclear]
      · rw [ofBe, length_maskedNetworkBytes, hclear, hpow, Nat.add_zero]

theorem firstBits_maskedNetworkBytes (a : Bytes) {j k : Nat} (hjk : j ≤ k) :
    firstBits (maskedNetworkBytes a k) j = firstBits a j := by
  obtain ⟨d, hd⟩ := Nat.exists_eq_add_of_le (Nat.sub_le_sub_left hjk (8 * a.length))
  rw [firstBits, ofBe_maskedNetworkBytes, length_maskedNetworkBytes, firstBits, firstBits, hd,
    Nat.shiftRight_add, Nat.shiftLeft_shiftRight, ← Nat.shiftRight_add]

theorem maskedNetworkBytes_eq_iff {a b : Bytes} (hlength : a.length = b.length) {k : Nat} :
    maskedNetworkBytes a k = maskedNetworkBytes b k ↔ firstBits a k = firstBits b k := by
  constructor
  · intro h
    rw [← firstBits_maskedNetworkBytes a (Nat.le_refl k), h, firstBits_maskedNetworkBytes b le_rfl]
  · intro h
    refine ofBe_inj (by simp only [length_maskedNetworkBytes, hlength]) ?_
    rw [ofBe_maskedNetworkBytes, ofBe_maskedNetworkBytes, h, hlength]

theorem maskedNetworkBytes_masked (a : Bytes) (j k : Nat) (hjk : j ≤ k) :
    maskedNetworkBytes (maskedNetworkBytes a k) j = maskedNetworkBytes a j :=
  (maskedNetworkBytes_eq_iff (length_maskedNetworkBytes a k)).mpr
    (firstBits_maskedNetworkBytes a hjk)

theorem maskedNetworkBytes_host {a : Bytes} (ha : a.length = 4) : maskedNetworkBytes a 32 = a :=
  ofBe_inj (length_maskedNetworkBytes a 32) (by simp [ofBe_maskedNetworkBytes, firstBits, ha])

def ipv4 : Masking Bytes := ⟨maskedNetworkBytes, maskedNetworkBytes_masked⟩

/-! ## What rules and plans do to an address -/

/-- The first bits that a CIDR gives, and how many they are. -/
def networkOf (cidr : Text) : Option (Nat × Nat) :=
  (readCidr cidr).map fun (address, prefixLength) => (firstBits address prefixLength, prefixLength)

/-- The last operation for the first `k` bits of the address. -/
def actionAt (operations : List VpnRouteOperation) (a : Bytes) (k : Nat) : Option VpnRouteAction :=
  (operations.reverse.find? fun operation => networkOf operation.cidr = some (firstBits a k, k)).map
    (·.action)

/-- What operations do to an address: the longest prefix that matches it decides.
Without one it stays outside the VPN. -/
def routingOf (operations : List VpnRouteOperation) (a : Bytes) : Option VpnRouteAction :=
  greatest (actionAt operations a) 33

def ruleAction (rules : List VpnRouteRule) (a : Bytes) : Option VpnRouteAction :=
  routingOf (rules.map VpnRouteRule.toOperation) a

def VpnBuilderPlan.routing (plan : VpnBuilderPlan) (a : Bytes) : Option VpnRouteAction :=
  routingOf (plan.profileRouteOperations ++ plan.dnsRouteOperations) a

def Conflicting (rules : List VpnRouteRule) : Prop :=
  ∃ rule ∈ rules, ∃ other ∈ rules,
    networkOf rule.cidr = networkOf other.cidr ∧ rule.excluded ≠ other.excluded

section Operations

variable {operations : List VpnRouteOperation} {a : Bytes} {k : Nat}

theorem actionAt_eq_none : actionAt operations a k = none ↔
    ∀ operation ∈ operations, networkOf operation.cidr ≠ some (firstBits a k, k) := by
  simp [actionAt]

theorem actionAt_of_mem {operation : VpnRouteOperation} (hmem : operation ∈ operations)
    (hnetwork : networkOf operation.cidr = some (firstBits a k, k))
    (hsame : ∀ other ∈ operations, networkOf other.cidr = some (firstBits a k, k) →
      other.action = operation.action) : actionAt operations a k = some operation.action := by
  cases hfind : operations.reverse.find? fun other =>
      networkOf other.cidr = some (firstBits a k, k) with
  | none => simpa [hnetwork] using List.find?_eq_none.mp hfind operation (by simpa using hmem)
  | some last =>
    have hlast := List.mem_of_find?_eq_some hfind
    have hmatches := List.find?_some hfind
    rw [actionAt, hfind]
    exact congrArg some (hsame last (by simpa using hlast) (by simpa using hmatches))

end Operations

/-! ## Parsed routes -/

namespace ParsedVpnRouteRule

structure Canonical (route : ParsedVpnRouteRule) : Prop where
  length : route.networkBytes.length = 4
  le : route.prefixLength ≤ 32
  masked : maskedNetworkBytes route.networkBytes route.prefixLength = route.networkBytes
  cidr : route.rule.cidr = canonicalCidr route.networkBytes route.prefixLength

variable {route other : ParsedVpnRouteRule}

theorem Canonical.of_parsedRule (excluded : Bool) {address : Bytes} {prefixLength : Nat}
    (ha : address.length = 4) (hle : prefixLength ≤ 32) :
    (parsedRule excluded address prefixLength).Canonical where
  length := (length_maskedNetworkBytes address prefixLength).trans ha
  le := hle
  masked := maskedNetworkBytes_masked address _ _ (Nat.le_refl _)
  cidr := rfl

theorem Canonical.read (h : route.Canonical) :
    readCidr route.rule.cidr = some (route.networkBytes, route.prefixLength) := by
  rw [h.cidr, readCidr_canonicalCidr h.length h.le]

theorem Canonical.network (h : route.Canonical) : networkOf route.rule.cidr =
    some (firstBits route.networkBytes route.prefixLength, route.prefixLength) := by
  rw [networkOf, h.read]
  rfl

/-- The bits of its network determine a canonical route up to its action. -/
theorem Canonical.network_iff (h : route.Canonical) {a : Bytes} (ha : a.length = 4) {k : Nat} :
    networkOf route.rule.cidr = some (firstBits a k, k) ↔
      route.prefixLength = k ∧ route.networkBytes = maskedNetworkBytes a k := by
  rw [h.network, Option.some.injEq, Prod.mk.injEq, and_comm]
  refine and_congr_right fun hk => ?_
  subst hk
  rw [← maskedNetworkBytes_eq_iff (h.length.trans ha.symm), h.masked]

theorem Canonical.isCidr (h : route.Canonical) : route.rule.IsCidr := by
  rw [VpnRouteRule.IsCidr, h.read]
  rfl

theorem Canonical.reading (h : route.Canonical) :
    route.rule.reading = (route.networkBytes, route.prefixLength) := by
  rw [VpnRouteRule.reading, h.read]
  rfl

theorem Canonical.reparse (h : route.Canonical) : route.rule.parsed = route := by
  have hreading := h.reading
  rcases route with ⟨⟨cidr, excluded⟩, networkBytes, prefixLength⟩
  have hmasked := h.masked
  have hcidr := h.cidr
  simp only at hmasked hcidr
  subst hcidr
  simp only [VpnRouteRule.parsed, hreading, parsedRule, hmasked]

theorem Canonical.ext (h : route.Canonical) (hother : other.Canonical)
    (hrule : route.rule = other.rule) : route = other := by
  rw [← h.reparse, hrule, hother.reparse]

end ParsedVpnRouteRule

theorem VpnRouteRule.IsCidr.canonical {rule : VpnRouteRule} (h : rule.IsCidr) :
    rule.parsed.Canonical := by
  obtain ⟨hlength, hle⟩ := readCidr_wellFormed h.read
  exact .of_parsedRule rule.excluded hlength hle

theorem VpnRouteRule.IsCidr.network {rule : VpnRouteRule} (h : rule.IsCidr) :
    networkOf rule.cidr = networkOf rule.parsed.rule.cidr := by
  rw [h.canonical.network, networkOf, h.read]
  exact congrArg (fun n => some (n, _)) (firstBits_maskedNetworkBytes _ le_rfl).symm

/-! ## Tables of parsed routes -/

abbrev Routes := List ParsedVpnRouteRule

def Consistent (routes : Routes) : Prop :=
  ∀ route ∈ routes, ∀ other ∈ routes, route.prefixLength = other.prefixLength →
    route.networkBytes = other.networkBytes → route.rule.excluded = other.rule.excluded

def entryTable (routes : Routes) : PrefixTable Bytes Bool := fun k n =>
  (routes.find? fun route => route.prefixLength = k ∧ route.networkBytes = n).map
    (·.rule.excluded)

theorem entryTable_eq_some {routes : Routes} (hc : Consistent routes) {k : Nat} {n : Bytes}
    {excluded : Bool} :
    entryTable routes k n = some excluded ↔
      ∃ route ∈ routes, route.prefixLength = k ∧ route.networkBytes = n ∧
        route.rule.excluded = excluded := by
  constructor
  · intro h
    obtain ⟨route, hfind, hexcluded⟩ := Option.map_eq_some_iff.mp h
    have hkey := List.find?_some hfind
    simp only [decide_eq_true_eq] at hkey
    exact ⟨route, List.mem_of_find?_eq_some hfind, hkey.1, hkey.2, hexcluded⟩
  · rintro ⟨route, hroute, rfl, rfl, rfl⟩
    cases hfind : routes.find? fun other =>
        other.prefixLength = route.prefixLength ∧ other.networkBytes = route.networkBytes with
    | none => exact absurd (List.find?_eq_none.mp hfind route hroute) (by simp)
    | some other =>
      have hkey := List.find?_some hfind
      simp only [decide_eq_true_eq] at hkey
      rw [entryTable, hfind]
      exact congrArg some (hc other (List.mem_of_find?_eq_some hfind) route hroute hkey.1 hkey.2)

theorem entryTable_congr {routes routes' : Routes} (hc : Consistent routes)
    (hc' : Consistent routes') (hmem : ∀ route, route ∈ routes ↔ route ∈ routes') :
    entryTable routes = entryTable routes' := by
  funext k n
  refine Option.ext fun excluded => ?_
  simp only [entryTable_eq_some hc, entryTable_eq_some hc', hmem]

theorem Consistent.of_subset {routes subset : Routes} (h : Consistent routes)
    (hsub : ∀ route ∈ subset, route ∈ routes) : Consistent subset := fun route hroute other hother =>
  h route (hsub route hroute) other (hsub other hother)

/-! ## Normalisation -/

theorem conflict_eq_none {routes : Routes} (hcanonical : ∀ route ∈ routes, route.Canonical) :
    conflict routes = none ↔ Consistent routes := by
  rw [conflict, List.find?_eq_none]
  simp only [List.any_eq_true, Bool.and_eq_true, decide_eq_true_eq, bne_iff_ne, ne_eq, not_exists,
    not_and, not_not]
  constructor
  · intro h route hroute other hother hlength hnetwork
    refine (h route hroute other hother ?_).symm
    rw [(hcanonical other hother).cidr, (hcanonical route hroute).cidr, hlength, hnetwork]
  · intro h route hroute other hother hcidr
    have hread := (hcanonical other hother).read
    rw [hcidr, (hcanonical route hroute).read, Option.some.injEq, Prod.mk.injEq] at hread
    exact (h route hroute other hother hread.2 hread.1).symm

theorem mem_deduplicate {routes : Routes} (hcanonical : ∀ route ∈ routes, route.Canonical)
    (route : ParsedVpnRouteRule) : route ∈ deduplicate routes ↔ route ∈ routes := by
  -- generalised over the routes that are kept already
  suffices h : ∀ (routes kept : Routes), (∀ route ∈ routes, route.Canonical) →
      (∀ route ∈ kept, route.Canonical) →
      (route ∈ routes.foldl (fun kept route =>
        if kept.any fun other => other.rule = route.rule then kept else kept ++ [route]) kept ↔
          route ∈ kept ∨ route ∈ routes) by
    exact (h routes [] hcanonical (by simp)).trans (by simp)
  intro routes
  induction routes with
  | nil => simp
  | cons next routes ih =>
    intro kept hroutes hkept
    have hnext := hroutes next (List.mem_cons_self ..)
    have hrest : ∀ route ∈ routes, route.Canonical := fun other hother =>
      hroutes other (List.mem_cons_of_mem _ hother)
    rw [List.foldl_cons]
    by_cases hany : (kept.any fun other => other.rule = next.rule) = true
    · rw [if_pos hany, ih kept hrest hkept]
      obtain ⟨other, hother, hrule⟩ := List.any_eq_true.mp hany
      obtain rfl : other = next := (hkept other hother).ext hnext (by simpa using hrule)
      constructor
      · exact Or.imp_right (List.mem_cons_of_mem _)
      · rintro (hin | hin)
        · exact .inl hin
        · rcases List.mem_cons.mp hin with rfl | hin
          · exact .inl hother
          · exact .inr hin
    · have hkept' : ∀ route ∈ kept ++ [next], route.Canonical := by
        intro other hother
        rcases List.mem_append.mp hother with hin | hin
        · exact hkept other hin
        · rw [List.mem_singleton.mp hin]
          exact hnext
      rw [if_neg hany, ih (kept ++ [next]) hrest hkept']
      simp [or_assoc]

theorem nearestCoveringRouteAction_eq {actionsByPrefix : ActionsByPrefix}
    {table : PrefixTable Bytes Bool} {networkBytes : Bytes} : ∀ {k : Nat},
    (∀ j < k, actionsByPrefix (j, maskedNetworkBytes networkBytes j) =
      table j (maskedNetworkBytes networkBytes j)) →
      nearestCoveringRouteAction actionsByPrefix networkBytes k =
        nearest ipv4 table networkBytes k
  | 0, _ => rfl
  | k + 1, h => by
    have hrest := nearestCoveringRouteAction_eq (k := k) fun j hj => h j (Nat.lt_succ_of_lt hj)
    rw [nearestCoveringRouteAction, h k k.lt_succ_self, hrest, nearest_succ]
    show _ = (table k (maskedNetworkBytes networkBytes k)).or _
    cases table k (maskedNetworkBytes networkBytes k) <;> rfl

/-- While routes are gone through, the actions found so far are those of the
table, but for the prefixes still to come. A route only looks at shorter prefixes,
and those have all come. -/
theorem mem_uncovered {table : PrefixTable Bytes Bool} {route : ParsedVpnRouteRule} :
    ∀ {routes : Routes} {actionsByPrefix : ActionsByPrefix},
    routes.Pairwise (fun left right => left.prefixLength ≤ right.prefixLength) →
    (∀ route ∈ routes, route.Canonical) →
    (∀ route ∈ routes,
      table route.prefixLength route.networkBytes = some route.rule.excluded) →
    (∀ k n, (∀ route ∈ routes, route.prefixKey ≠ (k, n)) → actionsByPrefix (k, n) = table k n) →
      (route ∈ uncovered actionsByPrefix routes ↔ route ∈ routes ∧
        nearest ipv4 table route.networkBytes route.prefixLength ≠ some route.rule.excluded)
  | [], _, _, _, _, _ => by simp [uncovered]
  | next :: routes, actionsByPrefix, hsorted, hcanonical, hentry, hactions => by
    have hnext := hcanonical next (List.mem_cons_self ..)
    have hkey : next.prefixKey = (next.prefixLength, next.networkBytes) := by
      rw [ParsedVpnRouteRule.prefixKey, hnext.masked]
    have hinherited : nearestCoveringRouteAction actionsByPrefix next.networkBytes
        next.prefixLength = nearest ipv4 table next.networkBytes next.prefixLength := by
      -- The routes to come are at least as long as this one, so none of them is asked.
      refine nearestCoveringRouteAction_eq fun j hj => hactions j _ fun other hother hkey => ?_
      have hlength : other.prefixLength = j := congrArg Prod.fst hkey
      rcases List.mem_cons.mp hother with rfl | hother
      · omega
      · have := List.rel_of_pairwise_cons hsorted hother
        omega
    have hrest := @mem_uncovered table route routes
      (Function.update actionsByPrefix next.prefixKey (some next.rule.excluded))
      hsorted.of_cons (fun other hother => hcanonical other (List.mem_cons_of_mem _ hother))
      (fun other hother => hentry other (List.mem_cons_of_mem _ hother)) (by
        -- The action just stored is that of the table for this prefix.
        intro k n hout
        by_cases hhere : next.prefixKey = (k, n)
        · rw [← hhere, Function.update_self]
          rw [hkey, Prod.mk.injEq] at hhere
          rw [← hhere.1, ← hhere.2, hentry next (List.mem_cons_self ..)]
        · rw [Function.update_of_ne (Ne.symm hhere)]
          refine hactions k n fun other hother => ?_
          rcases List.mem_cons.mp hother with rfl | hother
          · exact hhere
          · exact hout other hother)
    simp only [uncovered, hinherited]
    by_cases hsame : nearest ipv4 table next.networkBytes next.prefixLength =
        some next.rule.excluded
    · rw [if_pos hsame, hrest]
      constructor
      · rintro ⟨hin, hne⟩
        exact ⟨List.mem_cons_of_mem _ hin, hne⟩
      · rintro ⟨hin, hne⟩
        rcases List.mem_cons.mp hin with rfl | hin
        · exact absurd hsame hne
        · exact ⟨hin, hne⟩
    · rw [if_neg hsame, List.mem_cons, List.mem_cons, hrest]
      constructor
      · rintro (rfl | ⟨hin, hne⟩)
        · exact ⟨.inl rfl, hsame⟩
        · exact ⟨.inr hin, hne⟩
      · rintro ⟨rfl | hin, hne⟩
        · exact .inl rfl
        · exact .inr ⟨hin, hne⟩

def normalised (routes : Routes) : Routes :=
  (removeRoutesCoveredBySameActionAncestor (deduplicate routes)).insertionSort
    fun left right => parsedRouteLe left right

theorem mem_normalised {routes : Routes} (hcanonical : ∀ route ∈ routes, route.Canonical)
    (hc : Consistent routes) (route : ParsedVpnRouteRule) :
    route ∈ normalised routes ↔ route ∈ routes ∧
      nearest ipv4 (entryTable routes) route.networkBytes route.prefixLength ≠
        some route.rule.excluded := by
  have hmem : ∀ route, route ∈ (deduplicate routes).insertionSort
      (fun left right => left.prefixLength ≤ right.prefixLength) ↔ route ∈ routes := fun route => by
    rw [List.mem_insertionSort, mem_deduplicate hcanonical]
  have hsorted := List.pairwise_insertionSort
    (fun left right : ParsedVpnRouteRule => left.prefixLength ≤ right.prefixLength)
    (deduplicate routes)
  rw [normalised, List.mem_insertionSort, removeRoutesCoveredBySameActionAncestor,
    @mem_uncovered (entryTable routes) _ _ _ hsorted
      (fun route hroute => hcanonical route ((hmem route).mp hroute))
      (fun route hroute => (entryTable_eq_some hc).mpr
        ⟨route, (hmem route).mp hroute, rfl, rfl, rfl⟩) ?_, hmem]
  intro k n hout
  symm
  rw [Option.eq_none_iff_forall_ne_some]
  intro excluded hentry
  obtain ⟨route, hroute, rfl, rfl, _⟩ := (entryTable_eq_some hc).mp hentry
  refine hout route ((hmem route).mpr hroute) ?_
  rw [ParsedVpnRouteRule.prefixKey, (hcanonical route hroute).masked]

theorem entryTable_normalised {routes : Routes} (hcanonical : ∀ route ∈ routes, route.Canonical)
    (hc : Consistent routes) : entryTable (normalised routes) = reduce ipv4 (entryTable routes) := by
  have hmem := mem_normalised hcanonical hc
  have hc' : Consistent (normalised routes) := hc.of_subset fun route hroute =>
    ((hmem route).mp hroute).1
  funext k n
  refine Option.ext fun excluded => ?_
  rw [entryTable_eq_some hc', reduce]
  constructor
  · rintro ⟨route, hroute, rfl, rfl, rfl⟩
    obtain ⟨hin, hne⟩ := (hmem route).mp hroute
    have hentry := (entryTable_eq_some hc).mpr ⟨route, hin, rfl, rfl, rfl⟩
    rw [hentry, if_neg hne]
  · intro h
    by_cases hsame : nearest ipv4 (entryTable routes) n k = entryTable routes k n
    · rw [if_pos hsame] at h
      cases h
    · rw [if_neg hsame] at h
      obtain ⟨route, hin, rfl, rfl, rfl⟩ := (entryTable_eq_some hc).mp h
      refine ⟨route, (hmem route).mpr ⟨hin, ?_⟩, rfl, rfl, rfl⟩
      rwa [h] at hsame

/-! ## The profile's operations -/

def parsedRules (rules : List VpnRouteRule) : Routes :=
  (rules.insertionSort fun left right => ruleLe left right).map VpnRouteRule.parsed

section Profile

variable {rules : List VpnRouteRule} (hrules : ∀ rule ∈ rules, rule.IsCidr)

theorem mem_parsedRules {rules : List VpnRouteRule} {route : ParsedVpnRouteRule} :
    route ∈ parsedRules rules ↔ ∃ rule ∈ rules, rule.parsed = route := by
  simp [parsedRules]

theorem isCidr_rules {routes : Routes} (h : ∀ route ∈ routes, route.Canonical) :
    ∀ rule ∈ routes.map (·.rule), rule.IsCidr := by
  intro rule hrule
  obtain ⟨route, hroute, rfl⟩ := List.mem_map.mp hrule
  exact (h route hroute).isCidr

theorem mem_parsedRules_rules {routes : Routes} (h : ∀ route ∈ routes, route.Canonical)
    (route : ParsedVpnRouteRule) :
    route ∈ parsedRules (routes.map (·.rule)) ↔ route ∈ routes := by
  rw [mem_parsedRules]
  constructor
  · rintro ⟨rule, hrule, rfl⟩
    obtain ⟨route, hroute, rfl⟩ := List.mem_map.mp hrule
    rwa [(h route hroute).reparse]
  · intro hroute
    exact ⟨route.rule, List.mem_map.mpr ⟨route, hroute, rfl⟩, (h route hroute).reparse⟩

include hrules

theorem parsedRules_canonical : ∀ route ∈ parsedRules rules, route.Canonical := by
  intro route hroute
  obtain ⟨rule, hrule, rfl⟩ := mem_parsedRules.mp hroute
  exact (hrules rule hrule).canonical

theorem consistent_parsedRules : Consistent (parsedRules rules) ↔ ¬Conflicting rules := by
  have hiff : ∀ rule ∈ rules, ∀ other ∈ rules, networkOf rule.cidr = networkOf other.cidr ↔
      rule.parsed.prefixLength = other.parsed.prefixLength ∧
        rule.parsed.networkBytes = other.parsed.networkBytes := by
    intro rule hrule other hother
    have hcanonical := (hrules other hother).canonical
    rw [(hrules rule hrule).network, (hrules other hother).network, hcanonical.network,
      (hrules rule hrule).canonical.network_iff hcanonical.length, hcanonical.masked]
  constructor
  · rintro hc ⟨rule, hrule, other, hother, hnetwork, hne⟩
    obtain ⟨hlength, hbytes⟩ := (hiff rule hrule other hother).mp hnetwork
    exact hne (hc _ (mem_parsedRules.mpr ⟨rule, hrule, rfl⟩) _
      (mem_parsedRules.mpr ⟨other, hother, rfl⟩) hlength hbytes)
  · intro h route hroute other hother hlength hbytes
    obtain ⟨rule, hrule, rfl⟩ := mem_parsedRules.mp hroute
    obtain ⟨rule', hrule', rfl⟩ := mem_parsedRules.mp hother
    by_contra hne
    exact h ⟨rule, hrule, rule', hrule', (hiff rule hrule rule' hrule').mpr ⟨hlength, hbytes⟩, hne⟩

theorem parseVpnRouteRules_export (hc : Consistent (parsedRules rules)) :
    parseVpnRouteRules (exportVpnRouteRules rules) =
      .ok ((normalised (parsedRules rules)).map (·.rule)) := by
  have hnone := (conflict_eq_none (parsedRules_canonical hrules)).mpr hc
  rw [parsedRules] at hnone
  simp only [parseVpnRouteRules, parseLines_export hrules, hnone]
  rfl

/-- Checking the routes fails exactly on a conflict, and else normalises. -/
theorem validateRoutes_eq (h : ¬Conflicting rules) :
    validateRoutes rules = .ok ((normalised (parsedRules rules)).map (·.rule)) := by
  have hexport := parseVpnRouteRules_export hrules ((consistent_parsedRules hrules).mpr h)
  simp only [validateRoutes, hexport]

theorem validateRoutes_conflicting (h : Conflicting rules) :
    ∃ message, validateRoutes rules = .error (.illegalArgument message) := by
  cases hconflict : conflict (parsedRules rules) with
  | none =>
    have hc := (conflict_eq_none (parsedRules_canonical hrules)).mp hconflict
    exact absurd h ((consistent_parsedRules hrules).mp hc)
  | some route =>
    rw [parsedRules] at hconflict
    simp only [validateRoutes, parseVpnRouteRules, parseLines_export hrules, hconflict]
    exact ⟨_, rfl⟩

/-- Rules without a conflict act on an address as the table of their networks. -/
theorem routingOf_rules (h : ¬Conflicting rules) {a : Bytes} (ha : a.length = 4) :
    routingOf (rules.map VpnRouteRule.toOperation) a =
      (nearest ipv4 (entryTable (parsedRules rules)) a 33).map actionOf := by
  have hc := (consistent_parsedRules hrules).mpr h
  rw [routingOf, nearest, ← greatest_map]
  -- Both sides look for the longest match; they are compared one length at a time.
  refine greatest_congr fun k _ => ?_
  have hnetwork : ∀ rule ∈ rules, networkOf rule.toOperation.cidr = some (firstBits a k, k) ↔
      rule.parsed.prefixLength = k ∧ rule.parsed.networkBytes = maskedNetworkBytes a k := by
    intro rule hrule
    rw [← (hrules rule hrule).canonical.network_iff ha, ← (hrules rule hrule).network]
    rfl
  show _ = (entryTable (parsedRules rules) k (maskedNetworkBytes a k)).map actionOf
  cases hentry : entryTable (parsedRules rules) k (maskedNetworkBytes a k) with
  | none =>
    refine actionAt_eq_none.mpr fun operation hoperation hmatches => ?_
    obtain ⟨rule, hrule, rfl⟩ := List.mem_map.mp hoperation
    obtain ⟨hlength, hbytes⟩ := (hnetwork rule hrule).mp hmatches
    have hsome := (entryTable_eq_some hc).mpr
      ⟨rule.parsed, mem_parsedRules.mpr ⟨rule, hrule, rfl⟩, hlength, hbytes, rfl⟩
    exact nomatch hentry.symm.trans hsome
  | some excluded =>
    obtain ⟨route, hroute, hlength, hbytes, rfl⟩ := (entryTable_eq_some hc).mp hentry
    obtain ⟨rule, hrule, rfl⟩ := mem_parsedRules.mp hroute
    refine actionAt_of_mem (List.mem_map.mpr ⟨rule, hrule, rfl⟩)
      ((hnetwork rule hrule).mpr ⟨hlength, hbytes⟩) fun operation hoperation hmatches => ?_
    obtain ⟨other, hother, rfl⟩ := List.mem_map.mp hoperation
    obtain ⟨hlength', hbytes'⟩ := (hnetwork other hother).mp hmatches
    exact congrArg actionOf (hc _ (mem_parsedRules.mpr ⟨other, hother, rfl⟩) _ hroute
      (hlength'.trans hlength.symm) (hbytes'.trans hbytes.symm))

end Profile

end Slt.Android
