import Mathlib.Data.List.Forall2
import Slt.Android.Routes

/-!
# What a CIDR text stands for

The reading of an IPv4 CIDR as an address and a prefix length, apart from the
parser and its messages. The parser accepts the texts that have a reading and no
others, the canonical text of a network reads back as that network, and rules
survive the way through the text form.
-/

namespace Slt.Android

open Lib

/-! ## Readings -/

def readOctet (t : Text) : Option UInt8 :=
  (digitsValue t).bind fun n => if n ≤ 255 then some (UInt8.ofNat n) else none

def isAddressChar (c : Char) : Bool := isDigit c || c = '.'

def readAddress (t : Text) : Option Bytes :=
  if t.all isAddressChar then
    match t.splitOn '.' with
    | [a, b, c, d] => [a, b, c, d].mapM readOctet
    | _ => none
  else none

/-- An address, a slash, and a number of at most 32. -/
def readCidr (t : Text) : Option (Bytes × Nat) :=
  match t.splitOn '/' with
  | [addressText, prefixText] =>
    (readAddress addressText).bind fun address =>
      (toIntOrNull prefixText).bind fun prefixLength =>
        if 0 ≤ prefixLength ∧ prefixLength ≤ 32 then some (address, prefixLength.toNat) else none
  | _ => none

def isNumberChar (c : Char) : Bool := isDigit c || c = '+' || c = '-'

def isCidrChar (c : Char) : Bool := isNumberChar c || c = '.' || c = '/'

example : readCidr "10.1.2.3/+8".toList = some ([10, 1, 2, 3], 8) := by decide +kernel

/-! ## Lists of texts -/

section MapM

variable {α β : Type} {f : α → Option β} {g : α → Parse β}

theorem mapM_some_iff {l : List α} {ys : List β} :
    l.mapM f = some ys ↔ List.Forall₂ (fun x y => f x = some y) l ys := by
  induction l generalizing ys with
  | nil => simp [eq_comm]
  | cons x l ih =>
    simp only [List.mapM_cons, Option.bind_eq_bind, Option.bind_eq_some_iff, Option.pure_def,
      Option.some.injEq, List.forall₂_cons_left_iff, ih]
    constructor
    · rintro ⟨y, hy, rest, hrest, rfl⟩
      exact ⟨y, rest, hy, hrest, rfl⟩
    · rintro ⟨y, rest, hy, hrest, rfl⟩
      exact ⟨y, hy, rest, hrest, rfl⟩

theorem mapM_ok_iff {l : List α} {ys : List β} :
    l.mapM g = .ok ys ↔ List.Forall₂ (fun x y => g x = .ok y) l ys := by
  constructor
  · intro h
    induction l generalizing ys with
    | nil =>
      obtain rfl : [] = ys := Except.ok.inj h
      exact .nil
    | cons x l ih =>
      cases hx : g x with
      | error e =>
        rw [List.mapM_cons, hx] at h
        cases h
      | ok y =>
        cases hrest : l.mapM g with
        | error e =>
          rw [List.mapM_cons, hx, hrest] at h
          cases h
        | ok rest =>
          rw [List.mapM_cons, hx, hrest] at h
          obtain rfl : y :: rest = ys := Except.ok.inj h
          exact .cons hx (ih hrest)
  · intro h
    induction h with
    | nil => rfl
    | cons hx _ ih =>
      rw [List.mapM_cons, hx, ih]
      rfl

theorem mapM_error {e : String} {l : List α} (h : l.mapM g = .error e) :
    ∃ x ∈ l, g x = .error e := by
  induction l with
  | nil => cases h
  | cons x l ih =>
    cases hx : g x with
    | error e' =>
      rw [List.mapM_cons, hx] at h
      obtain rfl : e' = e := Except.error.inj h
      exact ⟨x, List.mem_cons_self .., hx⟩
    | ok y =>
      cases hrest : l.mapM g with
      | error e' =>
        rw [List.mapM_cons, hx, hrest] at h
        obtain rfl : e' = e := Except.error.inj h
        obtain ⟨bad, hbad, herror⟩ := ih hrest
        exact ⟨bad, List.mem_cons_of_mem _ hbad, herror⟩
      | ok rest =>
        rw [List.mapM_cons, hx, hrest] at h
        cases h

end MapM

/-! ## Numbers -/

theorem not_whitespace_of_isDigit {c : Char} (h : isDigit c = true) : isWhitespace c = false := by
  have hall : ∀ first ∈ digitZeros, ∀ i : Fin 10,
      isWhitespace (Char.ofNat (first + i.val)) = false := by decide +kernel
  obtain ⟨value, hvalue⟩ := Option.isSome_iff_exists.mp h
  obtain ⟨first, hfind, -⟩ := Option.map_eq_some_iff.mp hvalue
  have hrange := List.find?_some hfind
  simp only [Bool.and_eq_true, decide_eq_true_eq] at hrange
  have hcode : first + (c.toNat - first) = c.toNat := by omega
  have hdigit := hall first (List.mem_of_find?_eq_some hfind) ⟨c.toNat - first, by omega⟩
  rwa [hcode, Char.ofNat_toNat] at hdigit

theorem digits_of_value {t : Text} {n : Nat} (h : digitsValue t = some n) :
    t ≠ [] ∧ t.all isDigit = true := by
  by_cases hbad : (t.isEmpty || !t.all isDigit) = true
  · simp [digitsValue, hbad] at h
  · simpa using hbad

theorem toIntOrNull_of_value {t : Text} {n : Nat} (h : digitsValue t = some n) :
    toIntOrNull t = if n < 2 ^ 31 then some (n : Int) else none := by
  obtain ⟨_, hdigits⟩ := digits_of_value h
  rw [List.all_eq_true] at hdigits
  unfold toIntOrNull
  split
  · exact absurd (hdigits '-' (List.mem_cons_self ..)) (by decide)
  · exact absurd (hdigits '+' (List.mem_cons_self ..)) (by decide)
  · rw [h, Option.bind_some]

/-- A number is written with digits, after a sign or not. -/
theorem chars_of_toIntOrNull {t : Text} {n : Int} (h : toIntOrNull t = some n) :
    t ≠ [] ∧ ∀ c ∈ t, isNumberChar c = true := by
  have hdigits {digits : Text} {m : Nat} (h : digitsValue digits = some m) :
      ∀ c ∈ digits, isNumberChar c = true := by
    intro c hc
    simp [isNumberChar, List.all_eq_true.mp (digits_of_value h).2 c hc]
  unfold toIntOrNull at h
  split at h
  all_goals
    obtain ⟨m, hm, -⟩ := Option.bind_eq_some_iff.mp h
  · exact ⟨by simp, List.forall_mem_cons.mpr ⟨by decide, hdigits hm⟩⟩
  · exact ⟨by simp, List.forall_mem_cons.mpr ⟨by decide, hdigits hm⟩⟩
  · exact ⟨(digits_of_value hm).1, hdigits hm⟩

theorem digitsValue_toDecimal {n : Nat} (h : n < 256) : digitsValue (toDecimal n) = some n := by
  have hall : ∀ n : Fin 256, digitsValue (toDecimal n) = some n.val := by decide +kernel
  exact hall ⟨n, h⟩

theorem readOctet_toDecimal (b : UInt8) : readOctet (toDecimal b.toNat) = some b := by
  have hb : b.toNat < 256 := b.toNat_lt
  simp [readOctet, digitsValue_toDecimal hb, Nat.le_of_lt_succ hb]

theorem parseOctet_iff (words : AddressWords) (lineNumber : Nat) (t : Text) (b : UInt8) :
    parseOctet words lineNumber t = .ok b ↔ readOctet t = some b := by
  cases hvalue : digitsValue t with
  | none =>
    have hbad : (t.isEmpty || !t.all isDigit) = true := by
      by_contra hgood
      simp [digitsValue, hgood] at hvalue
    simp [parseOctet, readOctet, hvalue, hbad]
  | some n =>
    obtain ⟨hne, hdigits⟩ := digits_of_value hvalue
    have hint := toIntOrNull_of_value hvalue
    split_ifs at hint with hlarge
    · by_cases hn : n ≤ 255 <;> simp [parseOctet, readOctet, hvalue, hne, hdigits, hint, hn]
    · have hn : ¬n ≤ 255 := by omega
      simp [parseOctet, readOctet, hvalue, hne, hdigits, hint, hn]

/-! ## Addresses -/

theorem readAddress_length {t : Text} {address : Bytes} (h : readAddress t = some address) :
    address.length = 4 := by
  unfold readAddress at h
  split at h
  · split at h
    · exact (mapM_some_iff.mp h).length_eq.symm
    · exact nomatch h
  · exact nomatch h

theorem readAddress_chars {t : Text} {address : Bytes} (h : readAddress t = some address) :
    t.all isAddressChar = true := by
  by_contra hbad
  simp [readAddress, hbad] at h

theorem parseIpv4Address_iff {words : AddressWords} {lineNumber : Nat} {t : Text}
    {address : Bytes} :
    parseIpv4Address words lineNumber t = .ok address ↔ readAddress t = some address := by
  by_cases hchars : t.all isAddressChar = true
  case neg => simp [parseIpv4Address, readAddress, ← isAddressChar.eq_def, hchars]
  by_cases hdot : '.' ∈ t
  · have hdot' : t.contains '.' = true := by simpa using hdot
    rw [readAddress, if_pos hchars]
    simp only [parseIpv4Address, ← isAddressChar.eq_def, hchars, hdot', Bool.not_true,
      Bool.false_eq_true, if_false]
    rcases t.splitOn '.' with _ | ⟨a, _ | ⟨b, _ | ⟨c, _ | ⟨d, _ | ⟨e, parts⟩⟩⟩⟩⟩
    case cons.cons.cons.cons.nil => simp only [mapM_ok_iff, mapM_some_iff, parseOctet_iff]
    all_goals simp
  · -- without a dot there is one part
    simp [parseIpv4Address, readAddress, hchars, hdot, List.splitOn_eq_singleton hdot]

theorem colon_not_mem_of_readAddress {t : Text} {address : Bytes}
    (h : readAddress t = some address) : ':' ∉ t := fun hcolon =>
  absurd (List.all_eq_true.mp (readAddress_chars h) ':' hcolon) (by decide)

theorem parseNumericAddress_iff {lineNumber : Nat} {t : Text} {address : Bytes} :
    parseNumericAddress lineNumber t = .ok address ↔ readAddress t = some address := by
  unfold parseNumericAddress
  split
  · rename_i hcolon
    simp only [reduceCtorEq, false_iff]
    exact fun h => colon_not_mem_of_readAddress h (List.contains_iff_mem.mp hcolon)
  · exact parseIpv4Address_iff

theorem readAddress_hostAddress {a : Bytes} (ha : a.length = 4) :
    readAddress (hostAddress a) = some a := by
  match a, ha with
  | [b₀, b₁, b₂, b₃], _ =>
    have hdigit : ∀ b : UInt8, (toDecimal b.toNat).all isDigit = true := fun b =>
      (digits_of_value (digitsValue_toDecimal b.toNat_lt)).2
    have hchars : ∀ b : UInt8, ∀ c ∈ toDecimal b.toNat, isDigit c = true := fun b =>
      List.all_eq_true.mp (hdigit b)
    have hsplit : (hostAddress [b₀, b₁, b₂, b₃]).splitOn '.' =
        [b₀, b₁, b₂, b₃].map fun b => toDecimal b.toNat := by
      refine List.splitOn_intercalate (x := '.') ?_ (by simp)
      intro l hl hdot
      obtain ⟨b, _, rfl⟩ := List.mem_map.mp hl
      exact absurd (hchars b _ hdot) (by decide)
    have hall : (hostAddress [b₀, b₁, b₂, b₃]).all isAddressChar = true := by
      rw [List.all_eq_true]
      intro c hc
      simp only [hostAddress, joinToString, List.intercalate, List.map, List.intersperse,
        List.flatten_cons, List.flatten_nil, List.append_nil, List.mem_append,
        List.mem_singleton] at hc
      rcases hc with hc | rfl | hc | rfl | hc | rfl | hc
      case inr.inl | inr.inr.inr.inl | inr.inr.inr.inr.inr.inl => rfl
      all_goals simp [isAddressChar, hchars _ c hc]
    rw [readAddress, if_pos hall, hsplit]
    simp [readOctet_toDecimal]

/-! ## CIDR texts -/

theorem readCidr_parts {t : Text} {address : Bytes} {prefixLength : Nat}
    (h : readCidr t = some (address, prefixLength)) :
    ∃ addressText prefixText, t.splitOn '/' = [addressText, prefixText] ∧
      readAddress addressText = some address ∧
      toIntOrNull prefixText = some (prefixLength : Int) ∧ prefixLength ≤ 32 := by
  unfold readCidr at h
  split at h
  case h_2 => exact nomatch h
  case h_1 addressText prefixText hsplit =>
    simp only [Option.bind_eq_some_iff, Option.ite_none_right_eq_some, Option.some.injEq,
      Prod.mk.injEq] at h
    obtain ⟨_, hread, n, hvalue, hrange, rfl, rfl⟩ := h
    exact ⟨addressText, prefixText, hsplit, hread, by rw [hvalue]; congr 1; omega, by omega⟩

theorem readCidr_wellFormed {t : Text} {address : Bytes} {prefixLength : Nat}
    (h : readCidr t = some (address, prefixLength)) : address.length = 4 ∧ prefixLength ≤ 32 := by
  obtain ⟨_, _, _, hread, _, hle⟩ := readCidr_parts h
  exact ⟨readAddress_length hread, hle⟩

/-- A CIDR has no white space, no comment sign and no sign of exclusion. -/
theorem readCidr_chars {t : Text} {reading : Bytes × Nat} (h : readCidr t = some reading) :
    ∀ c ∈ t, isCidrChar c = true := by
  obtain ⟨addressText, prefixText, hsplit, hread, hvalue, _⟩ := readCidr_parts h
  have hjoin : ['/'].intercalate (t.splitOn '/') = t := List.intercalate_splitOn '/'
  rw [hsplit] at hjoin
  have haddress := List.all_eq_true.mp (readAddress_chars hread)
  have hprefixText := (chars_of_toIntOrNull hvalue).2
  intro c hc
  rw [← hjoin] at hc
  simp only [List.intercalate, List.intersperse, List.flatten_cons, List.flatten_nil,
    List.append_nil, List.mem_append, List.mem_singleton] at hc
  rcases hc with hc | rfl | hc
  · have := haddress c hc
    simp only [isAddressChar, isCidrChar, isNumberChar, Bool.or_eq_true] at this ⊢
    tauto
  · rfl
  · simp [isCidrChar, hprefixText c hc]

theorem readCidr_ne_nil {t : Text} {reading : Bytes × Nat} (h : readCidr t = some reading) :
    t ≠ [] := by
  rintro rfl
  exact nomatch h

theorem not_whitespace_of_isCidrChar {c : Char} (h : isCidrChar c = true) :
    isWhitespace c = false := by
  simp only [isCidrChar, isNumberChar, Bool.or_eq_true, decide_eq_true_eq] at h
  rcases h with (((hdigit | rfl) | rfl) | rfl) | rfl
  · exact not_whitespace_of_isDigit hdigit
  all_goals rfl

theorem parseVpnRouteRuleLine_iff {line : Text} {lineNumber : Nat} {route : ParsedVpnRouteRule} :
    parseVpnRouteRuleLine line lineNumber = .ok route ↔ ∃ address prefixLength,
      readCidr (lineCidr line) = some (address, prefixLength) ∧
        route = parsedRule (lineExcluded line) address prefixLength := by
  constructor
  · intro h
    -- Each check that fails ends in an error; behind the last one stands the rule.
    unfold parseVpnRouteRuleLine at h
    split at h
    · cases h
    split at h
    · cases h
    split at h
    case h_2 => cases h
    case h_1 addressText prefixText hsplit =>
      split at h
      · cases h
      split at h
      case h_1 => cases h
      case h_2 address haddress =>
        split at h
        case h_1 => cases h
        case h_2 prefixLength hvalue =>
          split at h
          case isFalse => cases h
          case isTrue hrange =>
            refine ⟨address, prefixLength.toNat, ?_, (Except.ok.inj h).symm⟩
            simp [readCidr, hsplit, parseNumericAddress_iff.mp haddress, hvalue, hrange]
  · rintro ⟨address, prefixLength, h, rfl⟩
    have hchars := readCidr_chars h
    have hne := readCidr_ne_nil h
    obtain ⟨addressText, prefixText, hsplit, hread, hvalue, hle⟩ := readCidr_parts h
    have hwhite : (lineCidr line).any isWhitespace = false := by
      rw [List.any_eq_false]
      intro c hc
      simp [not_whitespace_of_isCidrChar (hchars c hc)]
    have haddressText : addressText ≠ [] := by
      rintro rfl
      exact nomatch hread
    have hrange : 0 ≤ (prefixLength : Int) ∧ (prefixLength : Int) ≤ 32 := by omega
    simp [parseVpnRouteRuleLine, hne, hwhite, hsplit, haddressText, (chars_of_toIntOrNull hvalue).1,
      parseNumericAddress_iff.mpr hread, hvalue, hrange]

theorem readCidr_canonicalCidr {network : Bytes} {prefixLength : Nat} (hlen : network.length = 4)
    (hle : prefixLength ≤ 32) :
    readCidr (canonicalCidr network prefixLength) = some (network, prefixLength) := by
  have hread := readAddress_hostAddress hlen
  have hvalue := digitsValue_toDecimal (n := prefixLength) (by omega)
  have hint := (toIntOrNull_of_value hvalue).trans (if_pos (by omega))
  have hsplit : (canonicalCidr network prefixLength).splitOn '/' =
      [hostAddress network, toDecimal prefixLength] := by
    have hjoin : canonicalCidr network prefixLength =
        ['/'].intercalate [hostAddress network, toDecimal prefixLength] := by
      simp [canonicalCidr, List.intercalate]
    rw [hjoin]
    refine List.splitOn_intercalate (x := '/') ?_ (by simp)
    intro l hl hslash
    simp only [List.mem_cons, List.not_mem_nil, or_false] at hl
    rcases hl with rfl | rfl
    · exact absurd (List.all_eq_true.mp (readAddress_chars hread) _ hslash) (by decide)
    · exact absurd (List.all_eq_true.mp (digits_of_value hvalue).2 _ hslash) (by decide)
  simp [readCidr, hsplit, hread, hint, hle]

/-! ## The text form of a list of rules -/

theorem trim_of_no_whitespace {t : Text} (h : ∀ c ∈ t, isWhitespace c = false) : trim t = t := by
  have hdrop : t.dropWhile isWhitespace = t := by
    cases t with
    | nil => rfl
    | cons c t => rw [List.dropWhile_cons_of_neg (by simp [h c])]
  rw [trim, hdrop, List.rdropWhile_eq_self_iff]
  intro hne
  simp [h _ (List.getLast_mem hne)]

theorem unixLines_of_no_return : ∀ {t : Text}, '\r' ∉ t → unixLines t = t
  | [], _ => rfl
  | c :: t, h => by
    rw [List.mem_cons, not_or] at h
    unfold unixLines
    split
    case h_1 heq => exact absurd (List.cons.inj heq).1.symm h.1
    case h_2 heq => exact absurd (List.cons.inj heq).1.symm h.1
    case h_3 heq =>
      obtain ⟨rfl, rfl⟩ := List.cons.inj heq
      rw [unixLines_of_no_return h.2]
    case h_4 heq => exact nomatch heq

/-- What a rule's text stands for; only texts with a reading are asked. -/
def VpnRouteRule.reading (rule : VpnRouteRule) : Bytes × Nat :=
  (readCidr rule.cidr).getD ([], 0)

def VpnRouteRule.parsed (rule : VpnRouteRule) : ParsedVpnRouteRule :=
  parsedRule rule.excluded rule.reading.1 rule.reading.2

def VpnRouteRule.IsCidr (rule : VpnRouteRule) : Prop := (readCidr rule.cidr).isSome = true

instance (rule : VpnRouteRule) : Decidable rule.IsCidr := inferInstanceAs (Decidable (_ = true))

section Rule

variable {rule : VpnRouteRule} (h : rule.IsCidr)

include h

theorem VpnRouteRule.IsCidr.read : readCidr rule.cidr = some rule.reading := by
  obtain ⟨reading, hread⟩ := Option.isSome_iff_exists.mp h
  rw [VpnRouteRule.reading, hread]
  rfl

theorem VpnRouteRule.IsCidr.line :
    lineCidr (ruleLine rule) = rule.cidr ∧ lineExcluded (ruleLine rule) = rule.excluded := by
  have hchars := readCidr_chars h.read
  cases hexcluded : rule.excluded with
  | true =>
    have htrim := trim_of_no_whitespace fun c hc => not_whitespace_of_isCidrChar (hchars c hc)
    simp [ruleLine, hexcluded, lineCidr, lineExcluded, htrim]
  | false =>
    have hhead : rule.cidr.head? ≠ some '!' := by
      intro hhead
      exact absurd (hchars _ (List.mem_of_head? hhead)) (by decide)
    simp [ruleLine, hexcluded, lineCidr, lineExcluded, hhead]

theorem VpnRouteRule.IsCidr.parse (lineNumber : Nat) :
    parseVpnRouteRuleLine (ruleLine rule) lineNumber = .ok rule.parsed := by
  obtain ⟨hcidr, hexcluded⟩ := h.line
  refine parseVpnRouteRuleLine_iff.mpr ⟨rule.reading.1, rule.reading.2, ?_, ?_⟩
  · rw [hcidr, h.read]
  · rw [hexcluded]
    rfl

theorem VpnRouteRule.IsCidr.line_chars :
    ∀ c ∈ ruleLine rule, c = '!' ∨ isCidrChar c = true := by
  intro c hc
  have hcases : c = '!' ∨ c ∈ rule.cidr := by
    cases hexcluded : rule.excluded <;> simp [ruleLine, hexcluded] at hc <;> tauto
  exact hcases.imp_right (readCidr_chars h.read c)

theorem VpnRouteRule.IsCidr.line_ne {c : Char} (hbang : c ≠ '!')
    (hc : isCidrChar c = false) : c ∉ ruleLine rule := by
  intro hin
  rcases h.line_chars c hin with rfl | hchar
  · exact hbang rfl
  · rw [hc] at hchar
    exact nomatch hchar

/-- Neither the comment sign nor the white space around a line takes anything
away from it. -/
theorem VpnRouteRule.IsCidr.line_stripped :
    trim (substringBefore '#' (ruleLine rule)) = ruleLine rule := by
  have hhash : substringBefore '#' (ruleLine rule) = ruleLine rule := by
    rw [substringBefore, List.takeWhile_eq_self_iff]
    intro c hc
    have hne : c ≠ '#' := by
      rintro rfl
      exact h.line_ne (by decide) (by decide) hc
    simpa using hne
  rw [hhash]
  refine trim_of_no_whitespace fun c hc => ?_
  rcases h.line_chars c hc with rfl | hchar
  · rfl
  · exact not_whitespace_of_isCidrChar hchar

theorem VpnRouteRule.IsCidr.line_ne_nil : ruleLine rule ≠ [] := by
  have hne := readCidr_ne_nil h.read
  cases hexcluded : rule.excluded <;> simp [ruleLine, hexcluded, hne]

end Rule

theorem parseLines_ruleLines : ∀ {rules : List VpnRouteRule} (lineNumber : Nat),
    (∀ rule ∈ rules, rule.IsCidr) →
      parseLines (rules.map ruleLine) lineNumber = .ok (rules.map VpnRouteRule.parsed)
  | [], _, _ => rfl
  | rule :: rules, lineNumber, h => by
    have hrule := h rule (List.mem_cons_self ..)
    have hrest := parseLines_ruleLines (lineNumber + 1) fun other (hother : other ∈ rules) =>
      h other (List.mem_cons_of_mem _ hother)
    have hne : (ruleLine rule).isEmpty = false := by simpa using hrule.line_ne_nil
    simp only [List.map_cons, parseLines, hrule.line_stripped, hne, hrule.parse, hrest,
      Bool.false_eq_true, if_false]

theorem not_mem_joinToString {c separator : Char} (hc : c ≠ separator) :
    ∀ {parts : List Text}, (∀ part ∈ parts, c ∉ part) → c ∉ joinToString separator parts
  | [], _ => by simp [joinToString, List.intercalate]
  | [part], h => by simpa [joinToString, List.intercalate] using h part (by simp)
  | part :: next :: parts, h => by
    have hpart := h part (by simp)
    have hrest := not_mem_joinToString hc fun other (hother : other ∈ next :: parts) =>
      h other (List.mem_cons_of_mem _ hother)
    simp only [joinToString, List.intercalate] at hrest ⊢
    simp [hc, hpart, hrest]

theorem lineSequence_rules {rules : List VpnRouteRule} (h : ∀ rule ∈ rules, rule.IsCidr)
    (hne : rules ≠ []) :
    lineSequence (joinToString '\n' (rules.map ruleLine)) = rules.map ruleLine := by
  have hout : ∀ c : Char, c ≠ '!' → isCidrChar c = false → ∀ l ∈ rules.map ruleLine, c ∉ l := by
    intro c hbang hc l hl
    obtain ⟨rule, hrule, rfl⟩ := List.mem_map.mp hl
    exact (h rule hrule).line_ne hbang hc
  have hreturn : '\r' ∉ joinToString '\n' (rules.map ruleLine) :=
    not_mem_joinToString (by decide) (hout '\r' (by decide) (by decide))
  rw [lineSequence, unixLines_of_no_return hreturn]
  exact List.splitOn_intercalate (x := '\n') (hout '\n' (by decide) (by decide)) (by simpa using hne)

theorem parseLines_export {rules : List VpnRouteRule} (h : ∀ rule ∈ rules, rule.IsCidr) :
    parseLines (lineSequence (exportVpnRouteRules rules)) 1 =
      .ok ((rules.insertionSort fun left right => ruleLe left right).map VpnRouteRule.parsed) := by
  have hsorted : ∀ rule ∈ rules.insertionSort fun left right => ruleLe left right, rule.IsCidr := fun rule hrule =>
    h rule ((List.mem_insertionSort _).mp hrule)
  rw [exportVpnRouteRules]
  cases hrules : rules.insertionSort fun left right => ruleLe left right with
  | nil => rfl
  | cons rule rest =>
    rw [hrules] at hsorted
    rw [lineSequence_rules hsorted (by simp), parseLines_ruleLines 1 hsorted]

end Slt.Android
