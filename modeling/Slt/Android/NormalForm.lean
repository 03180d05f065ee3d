import Mathlib.Data.Prod.Lex
import Slt.Android.RouteLaws

/-!
# The normal form of route rules

A text may give its rules in any order, more than once, and with comments, spaces
and host bits. What the parser returns depends on the entries of the text alone,
that is, on the actions of its lines and the bits of their prefixes: it is the
reduced table of the entries, as a sorted list. Exporting that list and parsing it again
changes nothing.

A text whose lines are rules is only rejected when two of them give one prefix
different actions. Any other error names a line that is no rule.
-/

namespace Slt.Android

open Lib Lib.PrefixTable

/-! ## Entries -/

/-- Whether a prefix is excluded, its bits and their number. -/
abbrev RouteEntry := Bool × Nat × Nat

def readLine (line : Text) : Option RouteEntry :=
  (networkOf (lineCidr line)).map fun network => (lineExcluded line, network)

def readLines (rawLines : List Text) : Option (List RouteEntry) :=
  ((rawLines.map fun rawLine => trim (substringBefore '#' rawLine)).filter
    fun line => !line.isEmpty).mapM readLine

/-- What the lines say that are not empty, when each is a rule. -/
def textEntries (text : Text) : Option (List RouteEntry) := readLines (lineSequence text)

def ParsedVpnRouteRule.entry (route : ParsedVpnRouteRule) : RouteEntry :=
  (route.rule.excluded, firstBits route.networkBytes route.prefixLength, route.prefixLength)

/-! ## What the line parser returns -/

section Lines

variable {lineNumber : Nat}

theorem parseVpnRouteRuleLine_ok {line : Text} {route : ParsedVpnRouteRule}
    (h : parseVpnRouteRuleLine line lineNumber = .ok route) :
    route.Canonical ∧ readLine line = some route.entry := by
  obtain ⟨address, prefixLength, hread, rfl⟩ := parseVpnRouteRuleLine_iff.mp h
  obtain ⟨hlength, hle⟩ := readCidr_wellFormed hread
  refine ⟨.of_parsedRule _ hlength hle, ?_⟩
  rw [readLine, networkOf, hread]
  exact congrArg (fun bits => some (_, bits, _)) (firstBits_maskedNetworkBytes address le_rfl).symm

theorem readLine_of_error {line : Text} {e : String}
    (h : parseVpnRouteRuleLine line lineNumber = .error e) : readLine line = none := by
  cases hread : readCidr (lineCidr line) with
  | none => rw [readLine, networkOf, hread]; rfl
  | some reading =>
    cases h.symm.trans (parseVpnRouteRuleLine_iff.mpr ⟨reading.1, reading.2, hread, rfl⟩)

theorem parseLines_ok {lines : List Text} {routes : Routes}
    (h : parseLines lines lineNumber = .ok routes) :
    (∀ route ∈ routes, route.Canonical) ∧
      readLines lines = some (routes.map ParsedVpnRouteRule.entry) := by
  induction lines generalizing lineNumber routes with
  | nil =>
    obtain rfl := Except.ok.inj h
    exact ⟨List.forall_mem_nil _, rfl⟩
  | cons rawLine rawLines ih =>
    simp only [parseLines] at h
    split at h
    · rename_i hempty
      simpa [readLines, hempty] using ih h
    rename_i hline
    split at h
    case h_1 => cases h
    case h_2 route hroute =>
      split at h
      case h_1 => cases h
      case h_2 rest hrest =>
        obtain rfl := Except.ok.inj h
        obtain ⟨hcanonical, hread⟩ := parseVpnRouteRuleLine_ok hroute
        obtain ⟨hcanonical', hread'⟩ := ih hrest
        rw [readLines] at hread'
        exact ⟨List.forall_mem_cons.mpr ⟨hcanonical, hcanonical'⟩,
          by simp [readLines, hline, hread, hread']⟩

def NamesLine (lineNumber : Nat) (message : String) : Prop :=
  ∃ detail, message = atLine lineNumber detail

variable {e : String}

theorem parseOctet_error {words : AddressWords} {t : Text}
    (h : parseOctet words lineNumber t = .error e) : NamesLine lineNumber e := by
  unfold parseOctet at h
  split at h
  · exact ⟨_, (Except.error.inj h).symm⟩
  split at h
  · exact ⟨_, (Except.error.inj h).symm⟩
  split at h
  · cases h
  · exact ⟨_, (Except.error.inj h).symm⟩

theorem parseIpv4Address_error {words : AddressWords} {t : Text}
    (h : parseIpv4Address words lineNumber t = .error e) : NamesLine lineNumber e := by
  unfold parseIpv4Address at h
  split at h
  · exact ⟨_, (Except.error.inj h).symm⟩
  split at h
  · exact ⟨_, (Except.error.inj h).symm⟩
  split at h
  · obtain ⟨octet, _, hoctet⟩ := mapM_error h
    exact parseOctet_error hoctet
  · exact ⟨_, (Except.error.inj h).symm⟩

theorem parseNumericAddress_error {t : Text}
    (h : parseNumericAddress lineNumber t = .error e) : NamesLine lineNumber e := by
  unfold parseNumericAddress at h
  split at h
  · exact ⟨_, (Except.error.inj h).symm⟩
  · exact parseIpv4Address_error h

theorem parseVpnRouteRuleLine_error {line : Text}
    (h : parseVpnRouteRuleLine line lineNumber = .error e) : NamesLine lineNumber e := by
  unfold parseVpnRouteRuleLine at h
  split at h
  · exact ⟨_, (Except.error.inj h).symm⟩
  split at h
  · exact ⟨_, (Except.error.inj h).symm⟩
  split at h
  case h_2 => exact ⟨_, (Except.error.inj h).symm⟩
  split at h
  · exact ⟨_, (Except.error.inj h).symm⟩
  split at h
  case h_1 e' haddress =>
    obtain rfl := Except.error.inj h
    exact parseNumericAddress_error haddress
  split at h
  · exact ⟨_, (Except.error.inj h).symm⟩
  split at h
  · cases h
  · exact ⟨_, (Except.error.inj h).symm⟩

theorem parseLines_error {lines : List Text} (h : parseLines lines lineNumber = .error e) :
    readLines lines = none ∧ ∃ n, NamesLine n e := by
  induction lines generalizing lineNumber with
  | nil => cases h
  | cons rawLine rawLines ih =>
    simp only [parseLines] at h
    split at h
    · rename_i hempty
      simpa [readLines, hempty] using ih h
    rename_i hline
    split at h
    case h_1 e' hbad =>
      obtain rfl := Except.error.inj h
      exact ⟨by simp [readLines, hline, readLine_of_error hbad], lineNumber,
        parseVpnRouteRuleLine_error hbad⟩
    split at h
    case h_1 e' hrest =>
      obtain rfl := Except.error.inj h
      obtain ⟨hnone, hnames⟩ := ih hrest
      rw [readLines] at hnone
      exact ⟨by simp [readLines, hline, hnone], hnames⟩
    · cases h

end Lines

def conflictMessage (cidr : Text) : String :=
  "Route " ++ String.ofList cidr ++ " cannot be both included and excluded"

/-! ## Routes by their entries -/

theorem ParsedVpnRouteRule.Canonical.of_entry {route other : ParsedVpnRouteRule}
    (h : route.Canonical) (hother : other.Canonical) (hentry : route.entry = other.entry) :
    route = other := by
  have hexcluded : route.rule.excluded = other.rule.excluded := congrArg Prod.fst hentry
  have hnetwork : networkOf route.rule.cidr =
      some (firstBits other.networkBytes other.prefixLength, other.prefixLength) := by
    rw [h.network]
    exact congrArg (fun entry : RouteEntry => some entry.2) hentry
  obtain ⟨hlength, hbytes⟩ := (h.network_iff hother.length).mp hnetwork
  rw [hother.masked] at hbytes
  refine h.ext hother ?_
  rcases hroute : route.rule with ⟨cidr, excluded⟩
  rcases hrule : other.rule with ⟨cidr', excluded'⟩
  have hcidr : route.rule.cidr = other.rule.cidr := by rw [h.cidr, hother.cidr, hbytes, hlength]
  rw [hroute, hrule] at hexcluded hcidr
  simp only at hexcluded hcidr
  rw [hexcluded, hcidr]

theorem mem_of_entries {routes routes' : Routes} (hcanonical : ∀ route ∈ routes, route.Canonical)
    (hcanonical' : ∀ route ∈ routes', route.Canonical)
    (h : ∀ entry ∈ routes.map ParsedVpnRouteRule.entry,
      entry ∈ routes'.map ParsedVpnRouteRule.entry) :
    ∀ route ∈ routes, route ∈ routes' := by
  intro route hroute
  obtain ⟨other, hother, hentry⟩ := List.mem_map.mp (h _ (List.mem_map.mpr ⟨route, hroute, rfl⟩))
  rwa [(hcanonical route hroute).of_entry (hcanonical' other hother) hentry.symm]

/-! ## The order of the rules -/

def ParsedVpnRouteRule.sortKey (route : ParsedVpnRouteRule) : Bool ×ₗ Nat ×ₗ Nat :=
  toLex (route.rule.excluded, toLex (route.prefixLength, ofBe route.networkBytes))

theorem compareThen_iff {α : Type} [LinearOrder α] (a b : α) (rest : Bool) :
    (match compare a b with
      | .lt => true
      | .gt => false
      | .eq => rest) = true ↔ a < b ∨ a = b ∧ rest = true := by
  rcases lt_trichotomy a b with hlt | heq | hgt
  · simp [compare_lt_iff_lt.mpr hlt, hlt]
  · simp [heq]
  · simp [compare_gt_iff_gt.mpr hgt, hgt.not_gt, hgt.ne']

theorem parsedRouteLe_iff (left right : ParsedVpnRouteRule) :
    parsedRouteLe left right = true ↔ left.sortKey ≤ right.sortKey := by
  rw [parsedRouteLe, ParsedVpnRouteRule.sortKey, ParsedVpnRouteRule.sortKey,
    Prod.Lex.toLex_le_toLex, Prod.Lex.toLex_le_toLex]
  have hlength := compareThen_iff left.prefixLength right.prefixLength
    (decide (ofBe left.networkBytes ≤ ofBe right.networkBytes))
  rw [decide_eq_true_eq] at hlength
  exact (compareThen_iff left.rule.excluded right.rule.excluded _).trans
    (or_congr_right (and_congr_right fun _ => hlength))

instance : Std.Total fun left right : ParsedVpnRouteRule => parsedRouteLe left right = true where
  total left right := by
    rw [parsedRouteLe_iff, parsedRouteLe_iff]
    exact le_total left.sortKey right.sortKey

instance : IsTrans ParsedVpnRouteRule fun left right => parsedRouteLe left right = true where
  trans left middle right h h' := by
    rw [parsedRouteLe_iff] at h h' ⊢
    exact h.trans h'

theorem ParsedVpnRouteRule.Canonical.antisymm {route other : ParsedVpnRouteRule}
    (h : route.Canonical) (hother : other.Canonical) (hle : parsedRouteLe route other = true)
    (hge : parsedRouteLe other route = true) : route = other := by
  rw [parsedRouteLe_iff] at hle hge
  have hkey := congrArg ofLex (le_antisymm hle hge)
  simp only [ParsedVpnRouteRule.sortKey, ofLex_toLex, Prod.mk.injEq, EmbeddingLike.apply_eq_iff_eq]
    at hkey
  obtain ⟨hexcluded, hlength, hbytes⟩ := hkey
  have hbytes := ofBe_inj (h.length.trans hother.length.symm) hbytes
  exact h.of_entry hother (by simp only [ParsedVpnRouteRule.entry, hexcluded, hlength, hbytes])

/-! ## The parser's list -/

theorem nodup_deduplicate (routes : Routes) : (deduplicate routes).Nodup := by
  suffices h : ∀ (routes kept : Routes), kept.Nodup → (routes.foldl (fun kept route =>
      if kept.any fun other => other.rule = route.rule then kept else kept ++ [route]) kept).Nodup by
    exact h routes [] List.nodup_nil
  intro routes
  induction routes with
  | nil => exact fun _ hkept => hkept
  | cons next routes ih =>
    intro kept hkept
    rw [List.foldl_cons]
    refine ih _ ?_
    by_cases hany : (kept.any fun other => other.rule = next.rule) = true
    · rwa [if_pos hany]
    · rw [if_neg hany, List.nodup_append_comm]
      refine List.nodup_cons.mpr ⟨fun hin => hany ?_, hkept⟩
      exact List.any_eq_true.mpr ⟨next, hin, by simp⟩

theorem uncovered_sublist (routes : Routes) (actionsByPrefix : ActionsByPrefix) :
    (uncovered actionsByPrefix routes).Sublist routes := by
  induction routes generalizing actionsByPrefix with
  | nil => exact .refl _
  | cons route routes ih =>
    simp only [uncovered]
    split
    · exact (ih _).cons route
    · exact (ih _).cons_cons route

theorem nodup_normalised (routes : Routes) : (normalised routes).Nodup := by
  have hsorted : ((deduplicate routes).insertionSort
      fun left right => left.prefixLength ≤ right.prefixLength).Nodup :=
    (List.perm_insertionSort _ _).nodup_iff.mpr (nodup_deduplicate routes)
  exact (List.perm_insertionSort _ _).nodup_iff.mpr (hsorted.sublist (uncovered_sublist _ _))

section Normalised

variable {routes : Routes} (hcanonical : ∀ route ∈ routes, route.Canonical)
  (hc : Consistent routes)

include hcanonical hc

theorem normalised_canonical : ∀ route ∈ normalised routes, route.Canonical := fun route hroute =>
  hcanonical route ((mem_normalised hcanonical hc route).mp hroute).1

theorem normalised_consistent : Consistent (normalised routes) :=
  hc.of_subset fun route hroute => ((mem_normalised hcanonical hc route).mp hroute).1

theorem normalised_eq {routes' : Routes} (hcanonical' : ∀ route ∈ routes', route.Canonical)
    (hc' : Consistent routes')
    (hmem : ∀ route, route ∈ normalised routes ↔ route ∈ normalised routes') :
    normalised routes = normalised routes' := by
  have hperm : (normalised routes).Perm (normalised routes') :=
    (List.perm_ext_iff_of_nodup (nodup_normalised routes) (nodup_normalised routes')).mpr hmem
  refine hperm.eq_of_pairwise (fun route other hroute hother hle hge => ?_)
    (List.pairwise_insertionSort _ _) (List.pairwise_insertionSort _ _)
  exact (normalised_canonical hcanonical hc route hroute).antisymm
    (normalised_canonical hcanonical' hc' other hother) hle hge

theorem normalised_congr {routes' : Routes} (hmem : ∀ route, route ∈ routes ↔ route ∈ routes') :
    normalised routes = normalised routes' := by
  have hcanonical' : ∀ route ∈ routes', route.Canonical := fun route hroute =>
    hcanonical route ((hmem route).mpr hroute)
  have hc' : Consistent routes' := hc.of_subset fun route => (hmem route).mpr
  have htable := entryTable_congr hc hc' hmem
  refine normalised_eq hcanonical hc hcanonical' hc' fun route => ?_
  rw [mem_normalised hcanonical hc, mem_normalised hcanonical' hc', htable, hmem]

theorem nearest_entryTable_normalised (a : Bytes) (k : Nat) :
    nearest ipv4 (entryTable (normalised routes)) a k = nearest ipv4 (entryTable routes) a k := by
  rw [entryTable_normalised hcanonical hc, nearest_reduce]

/-- Taking rules away leaves every nearest action as it was, so a second pass finds
nothing more to take away. -/
theorem normalised_normalised : normalised (normalised routes) = normalised routes := by
  have hcanonical' := normalised_canonical hcanonical hc
  have hc' := normalised_consistent hcanonical hc
  refine normalised_eq hcanonical' hc' hcanonical hc fun route => ?_
  rw [mem_normalised hcanonical' hc', nearest_entryTable_normalised hcanonical hc,
    mem_normalised hcanonical hc]
  exact ⟨fun h => h.1, fun h => ⟨h, h.2⟩⟩

theorem parse_export_normalised :
    parseVpnRouteRules (exportVpnRouteRules ((normalised routes).map (·.rule))) =
      .ok ((normalised routes).map (·.rule)) := by
  have hcanonical' := normalised_canonical hcanonical hc
  have hc' := normalised_consistent hcanonical hc
  have hmem := mem_parsedRules_rules hcanonical'
  have hsame := normalised_congr hcanonical' hc' fun route => (hmem route).symm
  rw [parseVpnRouteRules_export (isCidr_rules hcanonical') (hc'.of_subset fun route => (hmem route).mp), ← hsame,
    normalised_normalised hcanonical hc]

end Normalised

/-! ## Nearest covers -/

/-- The first bits of one rule are all the bits of the other. -/
def VpnRouteRule.Covers (other rule : VpnRouteRule) : Prop :=
  other.reading.2 ≤ rule.reading.2 ∧
    firstBits rule.reading.1 other.reading.2 = firstBits other.reading.1 other.reading.2

/-- Of the other rules that cover a rule, the one with the longest prefix. -/
structure NearestCover (rules : List VpnRouteRule) (rule other : VpnRouteRule) : Prop where
  mem : other ∈ rules
  ne : other ≠ rule
  covers : other.Covers rule
  longest : ∀ third ∈ rules, third ≠ rule → third.Covers rule →
    third.reading.2 ≤ other.reading.2

section Covers

variable {route other : ParsedVpnRouteRule}

theorem ParsedVpnRouteRule.Canonical.covers_iff (h : route.Canonical) (h' : other.Canonical) :
    other.rule.Covers route.rule ↔ other.prefixLength ≤ route.prefixLength ∧
      maskedNetworkBytes route.networkBytes other.prefixLength = other.networkBytes := by
  have hmasked := maskedNetworkBytes_eq_iff (h.length.trans h'.length.symm)
    (k := other.prefixLength)
  rw [h'.masked] at hmasked
  rw [VpnRouteRule.Covers, h.reading, h'.reading, hmasked]

/-- In a list without conflicts a cover of equal length is the rule itself. -/
theorem Consistent.eq_of_covers {routes : Routes} (hc : Consistent routes) (hroute : route ∈ routes)
    (hother : other ∈ routes) (h : route.Canonical) (h' : other.Canonical)
    (hcovers : other.rule.Covers route.rule) (hlength : other.prefixLength = route.prefixLength) :
    other = route := by
  have hbytes := ((h.covers_iff h').mp hcovers).2
  rw [hlength, h.masked] at hbytes
  have hexcluded := hc route hroute other hother hlength.symm hbytes
  exact h'.of_entry h (by simp only [ParsedVpnRouteRule.entry, hexcluded, hbytes, hlength])

variable {routes : Routes} (hcanonical : ∀ route ∈ routes, route.Canonical)
  (hc : Consistent routes)

include hcanonical hc

/-- The nearest action that the table knows is that of the nearest cover. -/
theorem nearest_of_nearestCover (hroute : route ∈ routes) {cover : VpnRouteRule}
    (h : NearestCover (routes.map (·.rule)) route.rule cover) :
    nearest ipv4 (entryTable routes) route.networkBytes route.prefixLength =
      some cover.excluded := by
  obtain ⟨other, hother, rfl⟩ := List.mem_map.mp h.mem
  have hne : other ≠ route := fun heq => h.ne (congrArg _ heq)
  have hcanonicalRoute := hcanonical route hroute
  have hcanonicalOther := hcanonical other hother
  have hlongest := h.longest
  rw [hcanonicalOther.reading] at hlongest
  obtain ⟨hle, hbytes⟩ := (hcanonicalRoute.covers_iff hcanonicalOther).mp h.covers
  have hlt : other.prefixLength < route.prefixLength := by
    refine Nat.lt_of_le_of_ne hle fun hlength => hne ?_
    exact hc.eq_of_covers hroute hother hcanonicalRoute hcanonicalOther h.covers hlength
  refine greatest_of_some hlt
    ((entryTable_eq_some hc).mpr ⟨other, hother, rfl, hbytes.symm, rfl⟩) fun j hj hlt' => ?_
  rw [Option.eq_none_iff_forall_ne_some]
  intro excluded hentry
  -- a rule of this length would be a nearer cover
  obtain ⟨third, hthird, rfl, hthirdBytes, _⟩ := (entryTable_eq_some hc).mp hentry
  have hcanonicalThird := hcanonical third hthird
  have hthirdNe : third.rule ≠ route.rule := by
    intro hrule
    rw [hcanonicalThird.ext hcanonicalRoute hrule] at hlt'
    exact Nat.lt_irrefl _ hlt'
  have hnearer := hlongest third.rule (List.mem_map.mpr ⟨third, hthird, rfl⟩) hthirdNe
    ((hcanonicalRoute.covers_iff hcanonicalThird).mpr ⟨Nat.le_of_lt hlt', hthirdBytes.symm⟩)
  rw [hcanonicalThird.reading] at hnearer
  exact Nat.not_le_of_lt hj hnearer

end Covers

/-! ## The normal form -/

structure NormalForm (rules : List VpnRouteRule) : Prop where
  isCidr : ∀ rule ∈ rules, rule.IsCidr
  once : (rules.map fun rule => networkOf rule.cidr).Nodup
  needed : ∀ rule ∈ rules, ∀ other, NearestCover rules rule other →
    other.excluded ≠ rule.excluded
  stable : parseVpnRouteRules (exportVpnRouteRules rules) = .ok rules

theorem normalForm_normalised {routes : Routes} (hcanonical : ∀ route ∈ routes, route.Canonical)
    (hc : Consistent routes) : NormalForm ((normalised routes).map (·.rule)) := by
  have hcanonical' := normalised_canonical hcanonical hc
  have hc' := normalised_consistent hcanonical hc
  refine ⟨fun rule hrule => ?_, ?_, fun rule hrule other hcover hsame => ?_,
    parse_export_normalised hcanonical hc⟩
  case refine_1 => exact isCidr_rules hcanonical' rule hrule
  case refine_2 =>
    rw [List.map_map]
    refine (nodup_normalised routes).map_on fun route hroute other hother hnetwork => ?_
    have h := hcanonical' route hroute
    have h' := hcanonical' other hother
    simp only [Function.comp_apply, h'.network, h.network_iff h'.length, h'.masked] at hnetwork
    obtain ⟨hlength, hbytes⟩ := hnetwork
    have hexcluded := hc' route hroute other hother hlength hbytes
    exact h.of_entry h' (by simp only [ParsedVpnRouteRule.entry, hexcluded, hbytes, hlength])
  case refine_3 =>
    obtain ⟨route, hroute, rfl⟩ := List.mem_map.mp hrule
    have hnearest := nearest_of_nearestCover hcanonical' hc' hroute hcover
    rw [nearest_entryTable_normalised hcanonical hc, hsame] at hnearest
    exact ((mem_normalised hcanonical hc route).mp hroute).2 hnearest

/-! ## Texts -/

theorem parseVpnRouteRules_ok {text : Text} {rules : List VpnRouteRule}
    (h : parseVpnRouteRules text = .ok rules) :
    ∃ routes, parseLines (lineSequence text) 1 = .ok routes ∧
      (∀ route ∈ routes, route.Canonical) ∧ Consistent routes ∧
      rules = (normalised routes).map (·.rule) := by
  unfold parseVpnRouteRules at h
  split at h
  case h_1 => cases h
  case h_2 routes hlines =>
    have hcanonical := (parseLines_ok hlines).1
    split at h
    case h_1 => cases h
    case h_2 hnone =>
      exact ⟨routes, hlines, hcanonical, (conflict_eq_none hcanonical).mp hnone,
        (Except.ok.inj h).symm⟩

theorem conflictMessage_ne {cidr : Text} {lineNumber : Nat} {message : String}
    (h : NamesLine lineNumber message) : message ≠ conflictMessage cidr := by
  obtain ⟨detail, rfl⟩ := h
  intro heq
  have hlist := congrArg String.toList heq
  simp [atLine, conflictMessage] at hlist

theorem not_consistent {routes : Routes} (hcanonical : ∀ route ∈ routes, route.Canonical) :
    ¬Consistent routes ↔ ∃ network, (false, network) ∈ routes.map ParsedVpnRouteRule.entry ∧
      (true, network) ∈ routes.map ParsedVpnRouteRule.entry := by
  have hentry : ∀ route ∈ routes, ∀ excluded, route.rule.excluded = excluded →
      (excluded, route.entry.2) ∈ routes.map ParsedVpnRouteRule.entry := by
    rintro route hroute _ rfl
    exact List.mem_map.mpr ⟨route, hroute, rfl⟩
  constructor
  · intro h
    simp only [Consistent, not_forall] at h
    obtain ⟨route, hroute, other, hother, hlength, hbytes, hne⟩ := h
    have hsame : other.entry.2 = route.entry.2 := by
      simp only [ParsedVpnRouteRule.entry, hlength, hbytes]
    refine ⟨route.entry.2, ?_⟩
    have hin := hentry route hroute
    have hin' := hentry other hother
    rw [hsame] at hin'
    cases hexcluded : route.rule.excluded with
    | false => exact ⟨hin false hexcluded, hin' true (by simpa [hexcluded] using hne)⟩
    | true => exact ⟨hin' false (by simpa [hexcluded] using hne), hin true hexcluded⟩
  -- Equal bits of canonical routes mean equal length and equal masked bytes.
  · rintro ⟨network, hincluded, hexcluded⟩ hc
    obtain ⟨route, hroute, hroute'⟩ := List.mem_map.mp hincluded
    obtain ⟨other, hother, hother'⟩ := List.mem_map.mp hexcluded
    have h := hcanonical route hroute
    have h' := hcanonical other hother
    have hnetwork : networkOf route.rule.cidr = networkOf other.rule.cidr := by
      rw [h.network, h'.network]
      exact congrArg some ((Prod.mk.inj hroute').2.trans (Prod.mk.inj hother').2.symm)
    rw [h'.network, h.network_iff h'.length, h'.masked] at hnetwork
    have hsame := hc route hroute other hother hnetwork.1 hnetwork.2
    rw [(Prod.mk.inj hroute').1, (Prod.mk.inj hother').1] at hsame
    cases hsame

theorem parseVpnRouteRules_conflict {text : Text} {routes : Routes}
    (hlines : parseLines (lineSequence text) 1 = .ok routes) (h : ¬Consistent routes) :
    ∃ cidr, parseVpnRouteRules text = .error (conflictMessage cidr) := by
  have hcanonical := (parseLines_ok hlines).1
  cases hconflict : conflict routes with
  | none => exact absurd ((conflict_eq_none hcanonical).mp hconflict) h
  | some route =>
    refine ⟨route.rule.cidr, ?_⟩
    simp only [parseVpnRouteRules, hlines, hconflict]
    rfl

/-- Accepted texts with the same entries give the same list of rules. That list
is a normal form. A text is rejected for a conflict exactly when its lines are
rules and two of them give the same bits different actions; a line that is no rule
is an error of its own. -/
theorem route_rules_normal_form :
    (∀ (text text' : Text) (rules rules' : List VpnRouteRule) (entries entries' : List RouteEntry),
      parseVpnRouteRules text = .ok rules → parseVpnRouteRules text' = .ok rules' →
        textEntries text = some entries → textEntries text' = some entries' →
          (∀ entry, entry ∈ entries ↔ entry ∈ entries') → rules = rules') ∧
    (∀ (text : Text) (rules : List VpnRouteRule), parseVpnRouteRules text = .ok rules →
      NormalForm rules) ∧
    (∀ text : Text, (∃ cidr, parseVpnRouteRules text = .error (conflictMessage cidr)) ↔
      ∃ entries, textEntries text = some entries ∧
        ∃ network, (false, network) ∈ entries ∧ (true, network) ∈ entries) ∧
    ∀ text : Text, textEntries text = none →
      ∃ e, parseVpnRouteRules text = .error e ∧ ∃ lineNumber, NamesLine lineNumber e := by
  refine ⟨fun text text' rules rules' entries entries' hrules hrules' hentries hentries' hsame => ?_,
    fun text rules hrules => ?_, fun text => ⟨?_, ?_⟩, fun text h => ?_⟩
  · obtain ⟨routes, hlines, hcanonical, hc, rfl⟩ := parseVpnRouteRules_ok hrules
    obtain ⟨routes', hlines', hcanonical', -, rfl⟩ := parseVpnRouteRules_ok hrules'
    obtain rfl := Option.some.inj ((parseLines_ok hlines).2.symm.trans hentries)
    obtain rfl := Option.some.inj ((parseLines_ok hlines').2.symm.trans hentries')
    rw [normalised_congr hcanonical hc fun route =>
      ⟨mem_of_entries hcanonical hcanonical' (fun entry => (hsame entry).mp) route,
        mem_of_entries hcanonical' hcanonical (fun entry => (hsame entry).mpr) route⟩]
  · obtain ⟨routes, -, hcanonical, hc, rfl⟩ := parseVpnRouteRules_ok hrules
    exact normalForm_normalised hcanonical hc
  · rintro ⟨cidr, hrejected⟩
    cases hlines : parseLines (lineSequence text) 1 with
    -- Errors of a line carry its number, the conflict does not.
    | error e =>
      obtain ⟨-, lineNumber, hnames⟩ := parseLines_error hlines
      simp only [parseVpnRouteRules, hlines, Except.error.injEq] at hrejected
      exact absurd hrejected (conflictMessage_ne hnames)
    | ok routes =>
      obtain ⟨hcanonical, hentries⟩ := parseLines_ok hlines
      refine ⟨_, hentries, (not_consistent hcanonical).mp fun hc => ?_⟩
      have hnone := (conflict_eq_none hcanonical).mpr hc
      simp only [parseVpnRouteRules, hlines, hnone] at hrejected
      cases hrejected
  · rintro ⟨entries, hentries, hboth⟩
    cases hlines : parseLines (lineSequence text) 1 with
    | error e => cases (parseLines_error hlines).1.symm.trans hentries
    | ok routes =>
      obtain ⟨hcanonical, hread⟩ := parseLines_ok hlines
      obtain rfl := Option.some.inj (hread.symm.trans hentries)
      exact parseVpnRouteRules_conflict hlines ((not_consistent hcanonical).mpr hboth)
  · cases hlines : parseLines (lineSequence text) 1 with
    | error e => exact ⟨e, by simp only [parseVpnRouteRules, hlines], (parseLines_error hlines).2⟩
    | ok routes => cases h.symm.trans (parseLines_ok hlines).2

/-- One table in two texts: reordered, with a comment, other host bits, a rule said
twice and two that a shorter prefix makes redundant. -/
def tidyText : Text :=
  "10.0.0.0/8\n!10.128.0.0/9\n10.0.0.0/9\n!10.1.0.0/16\n10.2.0.0/16".toList

def untidyText : Text :=
  " 10.2.3.4/16 # office\r\n\n! 10.1.9.9/16\n10.2.0.0/+16\n10.64.0.0/9\n!10.200.0.0/9\n10.255.0.1/8".toList

def tidyRules : List VpnRouteRule :=
  [⟨"10.0.0.0/8".toList, false⟩, ⟨"10.128.0.0/9".toList, true⟩, ⟨"10.1.0.0/16".toList, true⟩]

def tidyEntries : List RouteEntry :=
  [(false, 10, 8), (true, 21, 9), (false, 20, 9), (true, 2561, 16), (false, 2562, 16)]

def untidyEntries : List RouteEntry :=
  [(false, 2562, 16), (true, 2561, 16), (false, 2562, 16), (false, 20, 9), (true, 21, 9),
    (false, 10, 8)]

def conflictingText : Text := "10.128.0.0/9\n!10.130.7.7/9".toList

theorem route_rules_normal_form_untidy :
    parseVpnRouteRules untidyText = parseVpnRouteRules tidyText ∧ NormalForm tidyRules ∧
      (∃ cidr, parseVpnRouteRules conflictingText = .error (conflictMessage cidr)) ∧
      ∃ e, parseVpnRouteRules "10.0.0.0".toList = .error e ∧ ∃ lineNumber, NamesLine lineNumber e := by
  have htidy : parseVpnRouteRules tidyText = .ok tidyRules := by decide +kernel
  have huntidy : parseVpnRouteRules untidyText = .ok tidyRules := by decide +kernel
  have hsub : untidyEntries ⊆ tidyEntries ∧ tidyEntries ⊆ untidyEntries := by decide
  have hentries : ∀ entry, entry ∈ untidyEntries ↔ entry ∈ tidyEntries := fun _ =>
    ⟨fun h => hsub.1 h, fun h => hsub.2 h⟩
  have hrules := route_rules_normal_form.1 untidyText tidyText tidyRules tidyRules untidyEntries
    tidyEntries huntidy htidy (by decide +kernel) (by decide +kernel) hentries
  exact ⟨(huntidy.trans (congrArg _ hrules)).trans htidy.symm,
    route_rules_normal_form.2.1 tidyText tidyRules htidy,
    (route_rules_normal_form.2.2.1 conflictingText).mpr
      ⟨[(false, 21, 9), (true, 21, 9)], by decide +kernel, (21, 9), by decide, by decide⟩,
    route_rules_normal_form.2.2.2 "10.0.0.0".toList (by decide +kernel)⟩

end Slt.Android
