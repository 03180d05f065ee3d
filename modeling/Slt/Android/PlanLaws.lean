import Slt.Android.NormalForm

/-!
# The plan routes as the rules do

Host routes are added for the DNS servers that the normalised rules leave
outside. They touch no other address, so a plan routes every address as the rules
do, DNS servers apart.
-/

namespace Slt.Android

open Lib Lib.PrefixTable

/-! ## The servers of DNS settings -/

def isLineEnd (c : Char) : Bool := c = '\n' || c = '\r'

/-- The runs of digits and dots in a text, up to the comments at the ends of its
lines. -/
def addressRuns (t : Text) : List Text :=
  (t.splitOnP isLineEnd).flatMap fun line =>
    (line.takeWhile (· ≠ '#')).splitOnP fun c => !isAddressChar c

/-- A server of the settings has the address in it. -/
def DnsSettings.Names (dns : DnsSettings) (a : Bytes) : Prop :=
  dns.mode = .custom ∧ ∃ server ∈ dns.servers, ∃ run ∈ addressRuns server, readAddress run = some a

instance (dns : DnsSettings) (a : Bytes) : Decidable (dns.Names a) :=
  inferInstanceAs (Decidable (_ ∧ _))

section Split

variable {p q : Char → Bool} {t w : Text}

theorem splitOnP_congr (h : ∀ c ∈ t, p c = q c) : t.splitOnP p = t.splitOnP q := by
  induction t with
  | nil => rfl
  | cons c t ih =>
    obtain ⟨hc, ht⟩ := List.forall_mem_cons.mp h
    rw [List.splitOnP_cons_eq_if_modifyHead, List.splitOnP_cons_eq_if_modifyHead, hc, ih ht]

theorem forall_of_splitOnP {P : Char → Prop} (h : ∀ w ∈ t.splitOnP p, ∀ c ∈ w, P c) :
    ∀ c ∈ t, p c = true ∨ P c := by
  induction t with
  | nil => simp
  | cons c t ih =>
    rw [List.splitOnP_cons_eq_if_modifyHead] at h
    obtain ⟨first, rest, hsplit⟩ := List.exists_cons_of_ne_nil (List.splitOnP_ne_nil p t)
    rw [hsplit] at h ih
    split at h
    · rename_i hc
      exact List.forall_mem_cons.mpr ⟨.inl hc, ih fun w hw => h w (List.mem_cons_of_mem _ hw)⟩
    · simp only [List.modifyHead_cons, List.forall_mem_cons] at h
      obtain ⟨⟨hc, hfirst⟩, hrest⟩ := h
      exact List.forall_mem_cons.mpr ⟨.inr hc, ih (List.forall_mem_cons.mpr ⟨hfirst, hrest⟩)⟩

/-- What is cut off at the ends of a text has no words. -/
theorem mem_splitOnP_trim (hp : ∀ c, isWhitespace c = true → p c = true) (hw : w ≠ []) :
    w ∈ (trim t).splitOnP p ↔ w ∈ t.splitOnP p := by
  have hleft : ∀ t : Text, w ∈ (t.dropWhile isWhitespace).splitOnP p ↔ w ∈ t.splitOnP p := by
    intro t
    induction t with
    | nil => rfl
    | cons c t ih =>
      by_cases hc : isWhitespace c = true
      · rw [List.dropWhile_cons_of_pos hc, ih, List.splitOnP_cons_eq_if_modifyHead, if_pos (hp c hc)]
        simp [hw]
      · rw [List.dropWhile_cons_of_neg hc]
  have hright : ∀ t : Text, w ∈ (t.rdropWhile isWhitespace).splitOnP p ↔ w ∈ t.splitOnP p := by
    intro t
    induction t using List.reverseRecOn with
    | nil => rfl
    | append_singleton t c ih =>
      by_cases hc : isWhitespace c = true
      · rw [List.rdropWhile_concat_pos _ _ _ hc, ih, List.splitOnP_append_cons t [] (hp c hc)]
        simp [hw]
      · rw [List.rdropWhile_concat_neg _ _ _ hc]
  rw [trim, hright, hleft]

/-- The line ends `\r\n` give an empty line more. -/
theorem mem_lineSequence (hw : w ≠ []) : w ∈ lineSequence t ↔ w ∈ t.splitOnP isLineEnd := by
  suffices h : ∃ first rest rest', lineSequence t = first :: rest ∧
      t.splitOnP isLineEnd = first :: rest' ∧ (w ∈ rest ↔ w ∈ rest') by
    obtain ⟨first, rest, rest', hlines, hsplit, hrest⟩ := h
    rw [hlines, hsplit, List.mem_cons, List.mem_cons, hrest]
  unfold lineSequence
  fun_induction unixLines t with
  | case1 t ih =>
    obtain ⟨first, rest, rest', hlines, hsplit, hrest⟩ := ih
    refine ⟨[], first :: rest, [] :: first :: rest', ?_, ?_, by simp [hrest, hw]⟩
    · rw [List.splitOn_cons_eq_if_modifyHead, hlines]; rfl
    · simp [List.splitOnP_cons_eq_if_modifyHead, isLineEnd, hsplit]
  | case2 t _ ih =>
    obtain ⟨first, rest, rest', hlines, hsplit, hrest⟩ := ih
    refine ⟨[], first :: rest, first :: rest', ?_, ?_, by simp [hrest]⟩
    · rw [List.splitOn_cons_eq_if_modifyHead, hlines]; rfl
    · simp [List.splitOnP_cons_eq_if_modifyHead, isLineEnd, hsplit]
  | case3 c t _ hreturn ih =>
    obtain ⟨first, rest, rest', hlines, hsplit, hrest⟩ := ih
    rw [List.splitOn_cons_eq_if_modifyHead, List.splitOnP_cons_eq_if_modifyHead, hlines, hsplit]
    by_cases hend : c = '\n'
    · exact ⟨[], first :: rest, first :: rest', by simp [hend], by simp [isLineEnd, hend],
        by simp [hrest]⟩
    · exact ⟨c :: first, rest, rest', by simp [hend],
        by simp [isLineEnd, hend, show c ≠ '\r' from hreturn], hrest⟩
  | case4 => exact ⟨[], [], [], rfl, rfl, .rfl⟩

end Split

theorem ne_nil_of_readAddress {t : Text} {a : Bytes} (h : readAddress t = some a) : t ≠ [] := by
  rintro rfl
  exact nomatch h

/-- In a line that is accepted the runs are the servers. -/
theorem mem_lineServers {line run : Text} (hrun : run ≠ [])
    (hok : ∀ token ∈ lineServers line, (readAddress token).isSome) :
    run ∈ lineServers line ↔
      run ∈ (line.takeWhile (· ≠ '#')).splitOnP fun c => !isAddressChar c := by
  have hspace : ∀ c, isWhitespace c = true → isAddressChar c = false := by
    intro c hc
    rw [Bool.eq_false_iff]
    intro haddress
    have hcidr : isCidrChar c = true := by
      simp only [isAddressChar, isCidrChar, isNumberChar, Bool.or_eq_true] at haddress ⊢
      tauto
    cases (not_whitespace_of_isCidrChar hcidr).symm.trans hc
  have hagree : ∀ c ∈ trim (substringBefore '#' line),
      (c = ',' || isRegexSpace c) = !isAddressChar c := by
    intro c hc
    by_cases hseparator : (c = ',' || isRegexSpace c) = true
    · rw [hseparator, eq_comm, Bool.not_eq_true']
      rcases (Bool.or_eq_true _ _).mp hseparator with hcomma | hregex
      · rw [of_decide_eq_true hcomma]
        decide
      · refine hspace c ?_
        rcases (Bool.or_eq_true _ _).mp hregex with hcontrol | hchar
        · simp only [List.contains_eq_mem, List.mem_cons, List.not_mem_nil, or_false,
            decide_eq_true_eq] at hcontrol
          rcases hcontrol with rfl | rfl | rfl | rfl <;> rfl
        · simp [isWhitespace, hchar]
    · have haddress : ∀ token ∈ (trim (substringBefore '#' line)).splitOnP
          (fun c => c = ',' || isRegexSpace c), ∀ c ∈ token, isAddressChar c = true := by
        intro token htoken c hc
        have hin : token ∈ lineServers line :=
          List.mem_filter.mpr ⟨htoken, by simpa using List.ne_nil_of_mem hc⟩
        obtain ⟨a, ha⟩ := Option.isSome_iff_exists.mp (hok token hin)
        exact List.all_eq_true.mp (readAddress_chars ha) c hc
      rw [(forall_of_splitOnP haddress c hc).resolve_left hseparator]
      simpa using hseparator
  rw [lineServers, splitOnP_congr hagree, List.mem_filter,
    mem_splitOnP_trim (fun c hc => by simp [hspace c hc]) hrun]
  simp [substringBefore, hrun]

theorem mem_addressRuns {t run : Text} (hrun : run ≠ [])
    (hok : ∀ line ∈ lineSequence t, ∀ token ∈ lineServers line, (readAddress token).isSome) :
    run ∈ addressRuns t ↔ ∃ line ∈ lineSequence t, run ∈ lineServers line := by
  rw [addressRuns, List.mem_flatMap]
  -- An empty line has neither runs nor servers.
  constructor
  · rintro ⟨line, hline, hmem⟩
    have hne : line ≠ [] := by
      rintro rfl
      exact hrun (by simpa using hmem)
    have hline := (mem_lineSequence hne).mpr hline
    exact ⟨line, hline, (mem_lineServers hrun (hok line hline)).mpr hmem⟩
  · rintro ⟨line, hline, hmem⟩
    have hne : line ≠ [] := by
      rintro rfl
      exact absurd hmem (by simp [lineServers, substringBefore, trim])
    exact ⟨line, (mem_lineSequence hne).mp hline, (mem_lineServers hrun (hok line hline)).mp hmem⟩

theorem addressRuns_append (t t' : Text) :
    addressRuns (t ++ '\n' :: t') = addressRuns t ++ addressRuns t' := by
  rw [addressRuns, List.splitOnP_append_cons t t' rfl, List.flatMap_append]
  rfl

theorem mem_addressRuns_join {run : Text} (hrun : run ≠ []) : ∀ servers : List Text,
    run ∈ addressRuns (joinToString '\n' servers) ↔ ∃ server ∈ servers, run ∈ addressRuns server
  | [] => by simp [joinToString, addressRuns, List.intercalate, hrun]
  | [server] => by simp [joinToString, List.intercalate]
  | server :: next :: servers => by
    have hjoin : joinToString '\n' (server :: next :: servers) =
        server ++ '\n' :: joinToString '\n' (next :: servers) := by
      simp [joinToString, List.intercalate]
    rw [hjoin, addressRuns_append, List.mem_append, mem_addressRuns_join hrun (next :: servers),
      List.exists_mem_cons_iff (a := server)]

theorem mem_of_mapM_ok {α β : Type} {g : α → Parse β} {l : List α} {ys : List β}
    (h : l.mapM g = .ok ys) :
    (∀ x ∈ l, ∃ y, g x = .ok y) ∧ ∀ y, y ∈ ys ↔ ∃ x ∈ l, g x = .ok y := by
  have hall := mapM_ok_iff.mp h
  clear h
  induction hall with
  | nil => simp
  | cons hx _ ih =>
    refine ⟨List.forall_mem_cons.mpr ⟨⟨_, hx⟩, ih.1⟩, fun y => ?_⟩
    simp [ih.2, hx, eq_comm]

theorem parseNumericDnsServer_iff {lineNumber : Nat} {t server : Text} :
    parseNumericDnsServer lineNumber t = .ok server ↔
      ∃ a, readAddress t = some a ∧ server = hostAddress a := by
  unfold parseNumericDnsServer
  split
  · rename_i hcolon
    simp only [reduceCtorEq, false_iff]
    rintro ⟨a, ha, -⟩
    exact colon_not_mem_of_readAddress ha (List.contains_iff_mem.mp hcolon)
  · cases hparse : parseIpv4Address dnsWords lineNumber t with
    | error e =>
      have hnone : ∀ a, readAddress t ≠ some a := fun a ha =>
        nomatch hparse.symm.trans (parseIpv4Address_iff.mpr ha)
      simp [hnone]
    | ok a => simp [parseIpv4Address_iff.mp hparse, eq_comm]

theorem parseDnsLines_ok {lines : List Text} {lineNumber : Nat} {servers : List Text}
    (h : parseDnsLines lines lineNumber = .ok servers) :
    (∀ line ∈ lines, ∀ token ∈ lineServers line, (readAddress token).isSome) ∧
      ∀ server, server ∈ servers ↔ ∃ line ∈ lines, ∃ token ∈ lineServers line,
        ∃ a, readAddress token = some a ∧ server = hostAddress a := by
  induction lines generalizing lineNumber servers with
  | nil =>
    obtain rfl : [] = servers := Except.ok.inj h
    simp
  | cons line lines ih =>
    unfold parseDnsLines at h
    cases hline : (lineServers line).mapM (parseNumericDnsServer lineNumber) with
    | error e => simp [hline] at h
    | ok here =>
      cases hrest : parseDnsLines lines (lineNumber + 1) with
      | error e => simp [hline, hrest] at h
      | ok more =>
        simp only [hline, hrest, Except.ok.injEq] at h
        subst h
        obtain ⟨hall, hmem⟩ := mem_of_mapM_ok hline
        simp only [parseNumericDnsServer_iff] at hall hmem
        obtain ⟨hall', hmem'⟩ := ih hrest
        refine ⟨List.forall_mem_cons.mpr ⟨fun token htoken => ?_, hall'⟩, fun server => ?_⟩
        · obtain ⟨_, a, ha, -⟩ := hall token htoken
          rw [ha]
          rfl
        · rw [List.mem_append, hmem, hmem', List.exists_mem_cons_iff]

/-! ## Host routes -/

theorem parsedHostRoute_hostAddress {a : Bytes} (ha : a.length = 4) :
    parsedHostRouteForAddress (hostAddress a) = .ok (parsedRule false a 32) := by
  have hmask := maskedNetworkBytes_host ha
  have hcanonical := ParsedVpnRouteRule.Canonical.of_parsedRule false ha (Nat.le_refl 32)
  have hparse := hcanonical.isCidr.parse 1
  rw [hcanonical.reparse] at hparse
  have hline : ruleLine (parsedRule false a 32).rule = hostAddress a ++ '/' :: toDecimal 32 := by
    simp [ruleLine, parsedRule, canonicalCidr, hmask]
  rw [hline] at hparse
  simp only [parsedHostRouteForAddress,
    parseNumericAddress_iff.mpr (readAddress_hostAddress ha), hparse]

theorem mapM_parsedRouteForRule : ∀ {routes : Routes}, (∀ route ∈ routes, route.Canonical) →
    (routes.map (·.rule)).mapM parsedRouteForRule = .ok routes
  | [], _ => rfl
  | route :: routes, h => by
    have hroute := h route (List.mem_cons_self ..)
    have hrest := mapM_parsedRouteForRule fun other (hother : other ∈ routes) =>
      h other (List.mem_cons_of_mem _ hother)
    have hparse : parsedRouteForRule route.rule = .ok route := by
      rw [parsedRouteForRule, hroute.isCidr.parse, hroute.reparse]
    rw [List.map_cons, List.mapM_cons, hparse, hrest]
    rfl

theorem longestPrefix_spec {routes : Routes} {best : ParsedVpnRouteRule}
    (h : longestPrefix routes = some best) :
    best ∈ routes ∧ ∀ route ∈ routes, route.prefixLength ≤ best.prefixLength := by
  cases routes with
  | nil => exact nomatch h
  | cons first routes =>
    -- the best so far is from the list, and no earlier route is longer
    suffices hfold : ∀ (routes : Routes) (first : ParsedVpnRouteRule),
        let best := routes.foldl (fun best other =>
          if best.prefixLength < other.prefixLength then other else best) first
        best ∈ first :: routes ∧
          ∀ route ∈ first :: routes, route.prefixLength ≤ best.prefixLength by
      obtain rfl := Option.some.inj h
      exact hfold routes first
    intro routes
    induction routes with
    | nil => simp
    | cons next routes ih =>
      intro first
      rw [List.foldl_cons]
      obtain ⟨hin, hmax⟩ := ih (if first.prefixLength < next.prefixLength then next else first)
      have hbest := hmax _ (List.mem_cons_self ..)
      have hfirst : first.prefixLength ≤
          (if first.prefixLength < next.prefixLength then next else first).prefixLength := by
        split <;> omega
      have hnext : next.prefixLength ≤
          (if first.prefixLength < next.prefixLength then next else first).prefixLength := by
        split <;> omega
      refine ⟨?_, fun route hroute => ?_⟩
      · rcases List.mem_cons.mp hin with heq | hin
        · rw [heq]
          split <;> simp
        · exact List.mem_cons_of_mem _ (List.mem_cons_of_mem _ hin)
      · rcases List.mem_cons.mp hroute with rfl | hroute
        · exact hfirst.trans hbest
        · rcases List.mem_cons.mp hroute with rfl | hroute
          · exact hnext.trans hbest
          · exact hmax route (List.mem_cons_of_mem _ hroute)

theorem nearest_of_vpnRouteAction {routes : Routes} {a : Bytes} {rule : VpnRouteRule}
    (hcanonical : ∀ route ∈ routes, route.Canonical) (hc : Consistent routes) (ha : a.length = 4)
    (h : vpnRouteActionForAddress (routes.map (·.rule)) (hostAddress a) = .ok (some rule)) :
    nearest ipv4 (entryTable routes) a 33 = some rule.excluded := by
  have hmask := maskedNetworkBytes_host ha
  simp only [vpnRouteActionForAddress, parsedHostRoute_hostAddress ha,
    mapM_parsedRouteForRule hcanonical, Except.ok.injEq] at h
  obtain ⟨best, hbest, rfl⟩ := Option.map_eq_some_iff.mp h
  obtain ⟨hin, hmax⟩ := longestPrefix_spec hbest
  have hcovers : ∀ route : ParsedVpnRouteRule, route.covers (parsedRule false a 32) = true ↔
      route.prefixLength ≤ 32 ∧ maskedNetworkBytes a route.prefixLength = route.networkBytes := by
    intro route
    simp [ParsedVpnRouteRule.covers, parsedRule, hmask]
  obtain ⟨hroute, hcover⟩ := List.mem_filter.mp hin
  obtain ⟨hle, hnetwork⟩ := (hcovers best).mp hcover
  refine greatest_of_some (k := best.prefixLength) (by omega)
    ((entryTable_eq_some hc).mpr ⟨best, hroute, rfl, hnetwork.symm, rfl⟩) ?_
  intro j hj _
  rw [Option.eq_none_iff_forall_ne_some]
  intro excluded hentry
  obtain ⟨other, hother, rfl, hbytes, _⟩ := (entryTable_eq_some hc).mp hentry
  have hother' := (hcovers other).mpr ⟨(hcanonical other hother).le, hbytes.symm⟩
  have := hmax other (List.mem_filter.mpr ⟨hother, hother'⟩)
  omega

theorem hostRoutes_spec {routes : List VpnRouteRule} :
    ∀ {servers : List Text} {hosts : List VpnRouteRule}, hostRoutes routes servers = .ok hosts →
      (∀ host ∈ hosts, ∃ server ∈ servers, hostVpnRouteForAddress server = .ok host) ∧
      ∀ server ∈ servers, needsHostRoute routes server = .ok false ∨
        ∃ host ∈ hosts, hostVpnRouteForAddress server = .ok host
  | [], hosts, h => by
    obtain rfl : [] = hosts := Except.ok.inj h
    simp
  | server :: servers, hosts, h => by
    unfold hostRoutes at h
    cases hneeds : needsHostRoute routes server with
    | error e =>
      rw [hneeds] at h
      exact nomatch h
    | ok needs =>
      cases needs with
      | false =>
        rw [hneeds] at h
        obtain ⟨hhosts, hservers⟩ := hostRoutes_spec h
        refine ⟨fun host hhost => ?_, fun other hother => ?_⟩
        · obtain ⟨other, hother, heq⟩ := hhosts host hhost
          exact ⟨other, List.mem_cons_of_mem _ hother, heq⟩
        · rcases List.mem_cons.mp hother with rfl | hother
          · exact .inl hneeds
          · exact hservers other hother
      | true =>
        cases hhost : hostVpnRouteForAddress server with
        | error e => simp [hneeds, hhost] at h
        | ok host =>
          cases hrest : hostRoutes routes servers with
          | error e => simp [hneeds, hhost, hrest] at h
          | ok more =>
            simp only [hneeds, hhost, hrest, Except.ok.injEq] at h
            subst h
            obtain ⟨hhosts, hservers⟩ := hostRoutes_spec hrest
            refine ⟨fun other hother => ?_, fun other hother => ?_⟩
            · rcases List.mem_cons.mp hother with rfl | hother
              · exact ⟨server, List.mem_cons_self .., hhost⟩
              · obtain ⟨other', hother', heq⟩ := hhosts other hother
                exact ⟨other', List.mem_cons_of_mem _ hother', heq⟩
            · rcases List.mem_cons.mp hother with rfl | hother
              · exact .inr ⟨host, List.mem_cons_self .., hhost⟩
              · refine (hservers other hother).imp_right ?_
                rintro ⟨host', hhost', heq⟩
                exact ⟨host', List.mem_cons_of_mem _ hhost', heq⟩

theorem mem_linkedSet {texts : List Text} {text : Text} : text ∈ linkedSet texts ↔ text ∈ texts := by
  suffices hfold : ∀ texts kept : List Text,
      text ∈ texts.foldl (fun kept text => if text ∈ kept then kept else kept ++ [text]) kept ↔
        text ∈ kept ∨ text ∈ texts by
    rw [linkedSet, hfold texts []]
    simp
  intro texts
  induction texts with
  | nil => simp
  | cons next texts ih =>
    intro kept
    rw [List.foldl_cons, ih]
    split
    · rename_i hkept
      constructor
      · exact Or.imp_right (List.mem_cons_of_mem _)
      · rintro (hin | hin)
        · exact .inl hin
        · refine (List.mem_cons.mp hin).imp_left ?_
          rintro rfl
          exact hkept
    · simp [or_assoc]

/-- The servers of checked settings are those that the settings name. -/
theorem validateDns_servers {dns validated : DnsSettings} (h : validateDns dns = .ok validated) :
    (validated.mode = .system ∧ dns.mode = .system) ∨ (validated.mode = .custom ∧
      ∀ server, server ∈ validated.servers ↔ ∃ a, dns.Names a ∧ server = hostAddress a) := by
  unfold validateDns at h
  cases hmode : dns.mode with
  | system =>
    simp only [hmode, parseDnsSettings, Except.ok.injEq] at h
    subst h
    exact .inl ⟨rfl, rfl⟩
  | custom =>
    cases hlines : parseDnsLines (lineSequence (exportDnsServers dns.servers)) 1 with
    | error e => simp [hmode, parseDnsSettings, parseDnsServers, hlines] at h
    | ok all =>
      simp only [hmode, parseDnsSettings, parseDnsServers, hlines] at h
      split at h
      · rename_i hparsed
        split at hparsed
        · cases hparsed
        cases hparsed
        cases h
        obtain ⟨hok, hmem⟩ := parseDnsLines_ok hlines
        refine .inr ⟨rfl, fun server => ?_⟩
        rw [mem_linkedSet, hmem]
        constructor
        -- The settings are joined and split again, which keeps every run of address text.
        · rintro ⟨line, hline, token, htoken, a, ha, rfl⟩
          have hne := ne_nil_of_readAddress ha
          have hrun := (mem_addressRuns hne hok).mpr ⟨line, hline, htoken⟩
          obtain ⟨server, hserver, hin⟩ := (mem_addressRuns_join hne _).mp hrun
          exact ⟨a, ⟨hmode, server, hserver, token, hin, ha⟩, rfl⟩
        · rintro ⟨a, ⟨-, server, hserver, run, hrun, ha⟩, rfl⟩
          have hne := ne_nil_of_readAddress ha
          have hjoined := (mem_addressRuns_join hne _).mpr ⟨server, hserver, hrun⟩
          obtain ⟨line, hline, htoken⟩ := (mem_addressRuns hne hok).mp hjoined
          exact ⟨line, hline, run, htoken, a, ha, rfl⟩
      · cases h

/-! ## Plans -/

theorem createVpnBuilderPlan_ok {rules : List VpnRouteRule} {dns : DnsSettings}
    {plan : VpnBuilderPlan} (hrules : ∀ rule ∈ rules, rule.IsCidr)
    (h : createVpnBuilderPlan rules dns = .ok plan) :
    ¬Conflicting rules ∧ ∃ validated hosts, validateDns dns = .ok validated ∧
      dnsHostRoutesToAdd ((normalised (parsedRules rules)).map (·.rule)) validated = .ok hosts ∧
      plan.profileRouteOperations =
        (normalised (parsedRules rules)).map (fun route => route.rule.toOperation) ∧
      plan.dnsRouteOperations = hosts.map VpnRouteRule.toOperation := by
  unfold createVpnBuilderPlan at h
  by_cases hconflict : Conflicting rules
  · obtain ⟨message, herror⟩ := validateRoutes_conflicting hrules hconflict
    simp [herror] at h
  · rw [validateRoutes_eq hrules hconflict] at h
    refine ⟨hconflict, ?_⟩
    cases hdns : validateDns dns with
    | error e => simp [hdns] at h
    | ok validated =>
      simp only [hdns] at h
      split at h
      · exact nomatch h
      cases hhosts : dnsHostRoutesToAdd ((normalised (parsedRules rules)).map (·.rule))
          validated with
      | error e => simp [hhosts] at h
      | ok hosts =>
        -- Warnings are computed with the plan, so an error in them refuses it too.
        cases hwarnings : dnsExcludedRouteWarnings
            ((normalised (parsedRules rules)).map (·.rule)) validated with
        | error e => simp [hhosts, hwarnings] at h
        | ok warnings =>
          simp only [hhosts, hwarnings, Except.ok.injEq] at h
          subst h
          exact ⟨validated, hosts, rfl, hhosts, by simp [Function.comp_def], rfl⟩

theorem DnsSettings.Names.length {dns : DnsSettings} {a : Bytes} (h : dns.Names a) :
    a.length = 4 := by
  obtain ⟨-, _, -, _, -, hread⟩ := h
  exact readAddress_length hread

/-- Host routes for exactly those servers of the settings that the rules leave
outside. -/
theorem dnsHostRoutes_spec {routes : List VpnRouteRule} {dns validated : DnsSettings}
    {hosts : List VpnRouteRule} (hdns : validateDns dns = .ok validated)
    (h : dnsHostRoutesToAdd routes validated = .ok hosts) :
    (∀ host ∈ hosts, ∃ a, dns.Names a ∧ host = (parsedRule false a 32).rule) ∧
    ∀ a, dns.Names a →
      needsHostRoute routes (hostAddress a) = .ok false ∨ (parsedRule false a 32).rule ∈ hosts := by
  have hhost : ∀ a, dns.Names a →
      hostVpnRouteForAddress (hostAddress a) = .ok (parsedRule false a 32).rule := by
    intro a ha
    simp only [hostVpnRouteForAddress, parsedHostRoute_hostAddress ha.length]
  unfold dnsHostRoutesToAdd at h
  rcases validateDns_servers hdns with ⟨hmode, hsystem⟩ | ⟨hmode, hservers⟩
  -- System DNS names no server.
  · simp only [hmode, Except.ok.injEq] at h
    subst h
    refine ⟨List.forall_mem_nil _, fun a ha => ?_⟩
    exact nomatch hsystem.symm.trans ha.1
  · cases hhosts : hostRoutes routes validated.servers with
    | error e => simp [hmode, hhosts] at h
    | ok all =>
      simp only [hmode, hhosts, Except.ok.injEq] at h
      subst h
      obtain ⟨hfrom, hfor⟩ := hostRoutes_spec hhosts
      refine ⟨fun host hin => ?_, fun a ha => ?_⟩
      · obtain ⟨server, hserver, heq⟩ := hfrom host (List.mem_eraseDups.mp hin)
        obtain ⟨a, ha, rfl⟩ := (hservers server).mp hserver
        rw [hhost a ha, Except.ok.injEq] at heq
        exact ⟨a, ha, heq.symm⟩
      · refine (hfor _ ((hservers _).mpr ⟨a, ha, rfl⟩)).imp_right ?_
        rintro ⟨host, hin, heq⟩
        rw [hhost a ha, Except.ok.injEq] at heq
        rw [heq]
        exact List.mem_eraseDups.mpr hin

section Hosts

variable {hosts : List VpnRouteRule} {a : Bytes} (operations : List VpnRouteOperation)
  (hhosts : ∀ host ∈ hosts, ∃ b : Bytes, b.length = 4 ∧ host = (parsedRule false b 32).rule)
  (ha : a.length = 4)

theorem actionAt_append (more : List VpnRouteOperation) (k : Nat) :
    actionAt (operations ++ more) a k = (actionAt more a k).or (actionAt operations a k) := by
  simp only [actionAt, List.reverse_append, List.find?_append, Option.map_or]

include ha

theorem host_matches {b : Bytes} (hb : b.length = 4) {k : Nat} :
    networkOf (parsedRule false b 32).rule.toOperation.cidr = some (firstBits a k, k) ↔
      32 = k ∧ b = a := by
  have hnetwork := (ParsedVpnRouteRule.Canonical.of_parsedRule false hb (Nat.le_refl 32)).network_iff
    ha (k := k)
  refine hnetwork.trans (and_congr_right ?_)
  rintro rfl
  show maskedNetworkBytes b 32 = maskedNetworkBytes a 32 ↔ b = a
  rw [maskedNetworkBytes_host ha, maskedNetworkBytes_host hb]

include hhosts

/-- An address without a host route of its own does not see the host routes. -/
theorem routingOf_hosts_of_not_mem (hout : (parsedRule false a 32).rule ∉ hosts) :
    routingOf (operations ++ hosts.map VpnRouteRule.toOperation) a = routingOf operations a := by
  refine greatest_congr fun k _ => ?_
  have hnone : actionAt (hosts.map VpnRouteRule.toOperation) a k = none := by
    refine actionAt_eq_none.mpr fun operation hoperation hmatches => ?_
    obtain ⟨host, hhost, rfl⟩ := List.mem_map.mp hoperation
    obtain ⟨b, hb, rfl⟩ := hhosts host hhost
    obtain ⟨-, rfl⟩ := (host_matches ha hb).mp hmatches
    exact hout hhost
  rw [actionAt_append, hnone, Option.none_or]

theorem routingOf_hosts_of_mem (hin : (parsedRule false a 32).rule ∈ hosts) :
    routingOf (operations ++ hosts.map VpnRouteRule.toOperation) a = some .add := by
  have hadd : actionAt (hosts.map VpnRouteRule.toOperation) a 32 = some .add := by
    refine actionAt_of_mem (List.mem_map.mpr ⟨_, hin, rfl⟩) ((host_matches ha ha).mpr ⟨rfl, rfl⟩) ?_
    intro operation hoperation _
    obtain ⟨host, hhost, rfl⟩ := List.mem_map.mp hoperation
    obtain ⟨b, -, rfl⟩ := hhosts host hhost
    rfl
  rw [routingOf, greatest, actionAt_append, hadd, Option.some_or, Option.some_or]

end Hosts

section Plan

variable {rules : List VpnRouteRule} {a : Bytes} (hrules : ∀ rule ∈ rules, rule.IsCidr)
  (hconflict : ¬Conflicting rules) (ha : a.length = 4)

include hrules hconflict ha

/-- Neither the rules nor their normal form looks up an address otherwise than the
table of the normal form. -/
theorem routing_normalised :
    routingOf ((normalised (parsedRules rules)).map fun route => route.rule.toOperation) a =
        (nearest ipv4 (entryTable (normalised (parsedRules rules))) a 33).map actionOf ∧
      ruleAction rules a =
        (nearest ipv4 (entryTable (normalised (parsedRules rules))) a 33).map actionOf := by
  have hcanonical := parsedRules_canonical hrules
  have hc := (consistent_parsedRules hrules).mpr hconflict
  have hcanonical' := normalised_canonical hcanonical hc
  have hc' := normalised_consistent hcanonical hc
  have hmem := mem_parsedRules_rules hcanonical'
  have hc'' := hc'.of_subset fun route => (hmem route).mp
  have hrules' := isCidr_rules hcanonical'
  have hrouting := routingOf_rules hrules' ((consistent_parsedRules hrules').mp hc'') ha
  rw [entryTable_congr hc'' hc' hmem, List.map_map] at hrouting
  refine ⟨hrouting, ?_⟩
  rw [nearest_entryTable_normalised hcanonical hc]
  exact routingOf_rules hrules hconflict ha

theorem ruleAction_of_not_needed
    (hneeds : needsHostRoute ((normalised (parsedRules rules)).map (·.rule)) (hostAddress a) =
      .ok false) : ruleAction rules a = some .add := by
  have hcanonical := parsedRules_canonical hrules
  have hc := (consistent_parsedRules hrules).mpr hconflict
  rw [(routing_normalised hrules hconflict ha).2]
  unfold needsHostRoute at hneeds
  cases haction : vpnRouteActionForAddress
      ((normalised (parsedRules rules)).map (·.rule)) (hostAddress a) with
  | error e => simp [haction] at hneeds
  | ok found =>
    cases found with
    | none => simp [haction] at hneeds
    | some rule =>
      simp only [haction, Except.ok.injEq] at hneeds
      rw [nearest_of_vpnRouteAction (normalised_canonical hcanonical hc)
        (normalised_consistent hcanonical hc) ha haction, hneeds]
      rfl

end Plan

theorem createVpnBuilderPlan_nil (dns : DnsSettings) :
    ∃ e, createVpnBuilderPlan [] dns = .error e := by
  have hempty := @validateRoutes_eq [] (by simp) (by simp [Conflicting])
  have hnone : normalised (parsedRules []) = [] := by
    simp [normalised, parsedRules, deduplicate, removeRoutesCoveredBySameActionAncestor,
      uncovered]
  rw [hnone] at hempty
  cases hplan : createVpnBuilderPlan [] dns with
  | error e => exact ⟨e, rfl⟩
  | ok plan =>
    unfold createVpnBuilderPlan at hplan
    cases hdns : validateDns dns with
    | error e => simp [hempty, hdns] at hplan
    | ok validated => simp [hempty, hdns] at hplan

/-- A plan routes every address as the rules do, DNS servers apart, which are
always inside the VPN. Rules that contradict each other, and no rules at all, have
no plan. -/
theorem plan_routes_like_rules :
    (∀ (rules : List VpnRouteRule) (dns : DnsSettings) (plan : VpnBuilderPlan) (a : Bytes),
      (∀ rule ∈ rules, rule.IsCidr) → createVpnBuilderPlan rules dns = .ok plan → a.length = 4 →
        (dns.Names a → plan.routing a = some .add) ∧
        (¬dns.Names a → plan.routing a = ruleAction rules a)) ∧
    (∀ (rules : List VpnRouteRule) (dns : DnsSettings), (∀ rule ∈ rules, rule.IsCidr) →
      Conflicting rules → ∃ e, createVpnBuilderPlan rules dns = .error e) ∧
    ∀ dns : DnsSettings, ∃ e, createVpnBuilderPlan [] dns = .error e := by
  refine ⟨fun rules dns plan a hrules hplan ha => ?_, fun rules dns hrules hconflict => ?_,
    createVpnBuilderPlan_nil⟩
  · obtain ⟨hconflict, validated, hosts, hdns, hhosts, hprofile, hdnsOps⟩ :=
      createVpnBuilderPlan_ok hrules hplan
    obtain ⟨hfrom, hfor⟩ := dnsHostRoutes_spec hdns hhosts
    have hroutes : ∀ host ∈ hosts, ∃ b : Bytes, b.length = 4 ∧
        host = (parsedRule false b 32).rule := by
      intro host hhost
      obtain ⟨b, hb, heq⟩ := hfrom host hhost
      exact ⟨b, hb.length, heq⟩
    obtain ⟨hnormalised, hrouting⟩ := routing_normalised hrules hconflict ha
    rw [VpnBuilderPlan.routing, hprofile, hdnsOps]
    -- An address without a host route of its own is routed by the rules alone.
    have hunseen : (parsedRule false a 32).rule ∉ hosts → routingOf (_ ++ _) a = _ := fun hout =>
      (routingOf_hosts_of_not_mem _ hroutes ha hout).trans (hnormalised.trans hrouting.symm)
    refine ⟨fun hnames => ?_, fun hnames => hunseen fun hin => ?_⟩
    -- A server without a host route is one that the rules already route inside.
    · by_cases hin : (parsedRule false a 32).rule ∈ hosts
      · exact routingOf_hosts_of_mem _ hroutes ha hin
      · rw [hunseen hin]
        exact ruleAction_of_not_needed hrules hconflict ha ((hfor a hnames).resolve_right hin)
    · obtain ⟨b, hb, heq⟩ := hfrom _ hin
      have hnetwork := (host_matches (b := b) ha hb.length).mp
        (heq ▸ (host_matches ha ha).mpr ⟨rfl, rfl⟩)
      exact hnames (hnetwork.2 ▸ hb)
  · obtain ⟨message, herror⟩ := validateRoutes_conflicting hrules hconflict
    exact ⟨_, by rw [createVpnBuilderPlan, herror]⟩

/-- A network inside, a part of it outside, said twice, and a server in that
part. -/
def splitTunnel : List VpnRouteRule :=
  [⟨"10.1.2.3/16".toList, true⟩, ⟨"10.0.0.0/8".toList, false⟩, ⟨"10.1.0.0/16".toList, true⟩]

def splitTunnelDns : DnsSettings := ⟨.custom, ["10.1.1.1".toList]⟩

def splitTunnelPlan : VpnBuilderPlan where
  profileRouteOperations := [⟨.add, "10.0.0.0/8".toList⟩, ⟨.exclude, "10.1.0.0/16".toList⟩]
  dnsRouteOperations := [⟨.add, "10.1.1.1/32".toList⟩]
  dnsServers := ["10.1.1.1".toList]
  warnings :=
    ["DNS server 10.1.1.1 is excluded by 10.1.0.0/16; a DNS route will still be added"]

theorem plan_routes_like_rules_split :
    splitTunnelPlan.routing [10, 1, 1, 1] = some .add ∧
      splitTunnelPlan.routing [10, 1, 9, 9] = ruleAction splitTunnel [10, 1, 9, 9] :=
  ⟨(plan_routes_like_rules.1 splitTunnel splitTunnelDns splitTunnelPlan [10, 1, 1, 1]
      (by decide +kernel) (by decide +kernel) rfl).1 (by decide +kernel),
    (plan_routes_like_rules.1 splitTunnel splitTunnelDns splitTunnelPlan [10, 1, 9, 9]
      (by decide +kernel) (by decide +kernel) rfl).2 (by decide +kernel)⟩

end Slt.Android
