import Mathlib.Data.Char
import Mathlib.Data.List.DropRight
import Mathlib.Data.List.Lex
import Mathlib.Data.List.Sort
import Slt.Lib.Bytes
import Slt.Lib.PrefixTable

/-!
# The VPN route plan

How the Android client turns the routing rules and the DNS settings of a profile
into the operations of a VPN builder. Rules and settings go through their text
form: they are exported, and what the parser makes of the text is used. Texts
are lists of characters, and the digits of every script count as digits.

Routes and DNS servers of IPv6 are refused, whether or not they are valid.
-/

namespace Slt.Android

open Lib

abbrev Text := List Char

inductive PlanError where
  | illegalArgument (message : String)
  | illegalState (message : String)
  deriving DecidableEq, Repr

abbrev Parse := Except String

/-! ## Texts -/

/-- Where the decimal digits of the scripts begin. Beyond the basic plane a
character is two units of a text, and neither is a digit. -/
def digitZeros : List Nat :=
  [0x30, 0x660, 0x6f0, 0x7c0, 0x966, 0x9e6, 0xa66, 0xae6, 0xb66, 0xbe6, 0xc66, 0xce6, 0xd66,
    0xde6, 0xe50, 0xed0, 0xf20, 0x1040, 0x1090, 0x17e0, 0x1810, 0x1946, 0x19d0, 0x1a80, 0x1a90,
    0x1b50, 0x1bb0, 0x1c40, 0x1c50, 0xa620, 0xa8d0, 0xa900, 0xa9d0, 0xa9f0, 0xaa50, 0xabf0,
    0xff10]

def digitOf (c : Char) : Option Nat :=
  (digitZeros.find? fun first => first ≤ c.toNat && c.toNat < first + 10).map (c.toNat - ·)

def isDigit (c : Char) : Bool := (digitOf c).isSome

/-- The separators of words, lines and paragraphs, by their code points. -/
def isSpaceChar (code : Nat) : Bool :=
  [0x20, 0xa0, 0x1680, 0x2028, 0x2029, 0x202f, 0x205f, 0x3000].contains code ||
    (0x2000 ≤ code && code ≤ 0x200a)

def isWhitespace (c : Char) : Bool :=
  isSpaceChar c.toNat || (0x09 ≤ c.toNat && c.toNat ≤ 0x0d) ||
    (0x1c ≤ c.toNat && c.toNat ≤ 0x1f)

def trim (t : Text) : Text := (t.dropWhile isWhitespace).rdropWhile isWhitespace

def substringBefore (c : Char) (t : Text) : Text := t.takeWhile (· ≠ c)

/-- The line ends `\r\n` and `\r` count as `\n`. -/
def unixLines : Text → Text
  | '\r' :: '\n' :: t => '\n' :: unixLines t
  | '\r' :: t => '\n' :: unixLines t
  | c :: t => c :: unixLines t
  | [] => []

def lineSequence (t : Text) : List Text := (unixLines t).splitOn '\n'

def joinToString (separator : Char) (parts : List Text) : Text := [separator].intercalate parts

def digitsValue (digits : Text) : Option Nat :=
  if digits.isEmpty || !digits.all isDigit then none
  else some (digits.foldl (fun n c => 10 * n + (digitOf c).getD 0) 0)

/-- A sign is allowed, and the value has to be one of 32 bits. -/
def toIntOrNull : Text → Option Int
  | '-' :: digits => (digitsValue digits).bind fun n => if n ≤ 2 ^ 31 then some (-(n : Int)) else none
  | '+' :: digits => (digitsValue digits).bind fun n => if n < 2 ^ 31 then some (n : Int) else none
  | digits => (digitsValue digits).bind fun n => if n < 2 ^ 31 then some (n : Int) else none

def toDecimal (n : Nat) : Text := Nat.toDigits 10 n

def atLine (lineNumber : Nat) (message : String) : String :=
  "Line " ++ toString lineNumber ++ ": " ++ message

/-! ## Addresses -/

/-- Routes and DNS servers have one parser of IPv4 addresses, up to the words of
its messages. -/
structure AddressWords where
  address : String
  octet : String

def routeWords : AddressWords := ⟨"route address", "route octet"⟩

def dnsWords : AddressWords := ⟨"DNS server", "DNS server octet"⟩

def parseOctet (words : AddressWords) (lineNumber : Nat) (octet : Text) : Parse UInt8 :=
  if octet.isEmpty || !octet.all isDigit then
    .error (atLine lineNumber ("IPv4 " ++ words.address ++ " must be numeric"))
  else
    match toIntOrNull octet with
    | none => .error (atLine lineNumber ("IPv4 " ++ words.octet ++ " is not a number"))
    | some value =>
      if 0 ≤ value ∧ value ≤ 255 then .ok (UInt8.ofNat value.toNat)
      else .error (atLine lineNumber ("IPv4 " ++ words.octet ++ " must be between 0 and 255"))

def parseIpv4Address (words : AddressWords) (lineNumber : Nat) (address : Text) : Parse Bytes :=
  if !address.contains '.' then
    .error (atLine lineNumber (words.address ++ " must be a numeric IP address"))
  else if !address.all fun c => isDigit c || c = '.' then
    .error (atLine lineNumber (words.address ++ " must be a numeric IP address"))
  else
    match address.splitOn '.' with
    | [a, b, c, d] => [a, b, c, d].mapM (parseOctet words lineNumber)
    | _ => .error (atLine lineNumber ("IPv4 " ++ words.address ++ " must have 4 octets"))

def parseNumericAddress (lineNumber : Nat) (address : Text) : Parse Bytes :=
  if address.contains ':' then .error (atLine lineNumber "IPv6 routes are not supported")
  else parseIpv4Address routeWords lineNumber address

/-- The first `prefixLength` bits of the address; the others are cleared. -/
def maskedNetworkBytes : Bytes → Nat → Bytes
  | [], _ => []
  | b :: bs, remaining =>
    if 8 ≤ remaining then b :: maskedNetworkBytes bs (remaining - 8)
    else if remaining = 0 then 0 :: maskedNetworkBytes bs 0
    else (b &&& UInt8.ofNat (0xff <<< (8 - remaining) &&& 0xff)) :: maskedNetworkBytes bs 0

def hostAddress (bytes : Bytes) : Text := joinToString '.' (bytes.map fun b => toDecimal b.toNat)

def canonicalCidr (networkBytes : Bytes) (prefixLength : Nat) : Text :=
  hostAddress networkBytes ++ '/' :: toDecimal prefixLength

/-! ## Rules -/

structure VpnRouteRule where
  cidr : Text
  excluded : Bool
  deriving DecidableEq

structure ParsedVpnRouteRule where
  rule : VpnRouteRule
  networkBytes : Bytes
  prefixLength : Nat
  deriving DecidableEq

def parsedRule (excluded : Bool) (address : Bytes) (prefixLength : Nat) : ParsedVpnRouteRule where
  rule := ⟨canonicalCidr (maskedNetworkBytes address prefixLength) prefixLength, excluded⟩
  networkBytes := maskedNetworkBytes address prefixLength
  prefixLength := prefixLength

def lineExcluded (line : Text) : Bool := line.head? = some '!'

def lineCidr (line : Text) : Text := if lineExcluded line then trim (line.drop 1) else line

def parseVpnRouteRuleLine (line : Text) (lineNumber : Nat) : Parse ParsedVpnRouteRule :=
  if (lineCidr line).isEmpty then .error (atLine lineNumber "route CIDR is empty")
  else if (lineCidr line).any isWhitespace then
    .error (atLine lineNumber "route CIDR contains whitespace")
  else
    match (lineCidr line).splitOn '/' with
    | [addressText, prefixText] =>
      if addressText.isEmpty || prefixText.isEmpty then
        .error (atLine lineNumber "route must use CIDR notation")
      else
        match parseNumericAddress lineNumber addressText with
        | .error e => .error e
        | .ok address =>
          match toIntOrNull prefixText with
          | none => .error (atLine lineNumber "route prefix is not a number")
          | some prefixLength =>
            if 0 ≤ prefixLength ∧ prefixLength ≤ 32 then
              .ok (parsedRule (lineExcluded line) address prefixLength.toNat)
            else .error (atLine lineNumber "route prefix must be between 0 and 32")
    | _ => .error (atLine lineNumber "route must use CIDR notation")

/-- The rules of the lines that are not empty, up to the first error. -/
def parseLines : List Text → Nat → Parse (List ParsedVpnRouteRule)
  | [], _ => .ok []
  | rawLine :: rawLines, lineNumber =>
    let line := trim (substringBefore '#' rawLine)
    if line.isEmpty then parseLines rawLines (lineNumber + 1)
    else
      match parseVpnRouteRuleLine line lineNumber with
      | .error e => .error e
      | .ok route =>
        match parseLines rawLines (lineNumber + 1) with
        | .error e => .error e
        | .ok routes => .ok (route :: routes)

def deduplicate (routes : List ParsedVpnRouteRule) : List ParsedVpnRouteRule :=
  routes.foldl (fun kept route =>
    if kept.any fun other => other.rule = route.rule then kept else kept ++ [route]) []

def conflict (routes : List ParsedVpnRouteRule) : Option ParsedVpnRouteRule :=
  routes.find? fun route => routes.any fun other =>
    other.rule.cidr = route.rule.cidr && other.rule.excluded != route.rule.excluded

/-- An address family has one entry for each prefix length and network. -/
abbrev ActionsByPrefix := Nat × Bytes → Option Bool

def nearestCoveringRouteAction (actionsByPrefix : ActionsByPrefix) (networkBytes : Bytes) :
    Nat → Option Bool
  | 0 => none
  | candidate + 1 =>
    match actionsByPrefix (candidate, maskedNetworkBytes networkBytes candidate) with
    | some action => some action
    | none => nearestCoveringRouteAction actionsByPrefix networkBytes candidate

def ParsedVpnRouteRule.prefixKey (route : ParsedVpnRouteRule) : Nat × Bytes :=
  (route.prefixLength, maskedNetworkBytes route.networkBytes route.prefixLength)

/-- Go through routes of ascending prefix length, with the actions of those
before. -/
def uncovered (actionsByPrefix : ActionsByPrefix) :
    List ParsedVpnRouteRule → List ParsedVpnRouteRule
  | [] => []
  | route :: routes =>
    let inheritedAction :=
      nearestCoveringRouteAction actionsByPrefix route.networkBytes route.prefixLength
    let rest :=
      uncovered (Function.update actionsByPrefix route.prefixKey (some route.rule.excluded)) routes
    if inheritedAction = some route.rule.excluded then rest else route :: rest

def removeRoutesCoveredBySameActionAncestor (routes : List ParsedVpnRouteRule) :
    List ParsedVpnRouteRule :=
  uncovered (fun _ => none)
    (routes.insertionSort fun left right => left.prefixLength ≤ right.prefixLength)

def parsedRouteLe (left right : ParsedVpnRouteRule) : Bool :=
  match compare left.rule.excluded right.rule.excluded with
  | .lt => true
  | .gt => false
  | .eq =>
    match compare left.prefixLength right.prefixLength with
    | .lt => true
    | .gt => false
    | .eq => ofBe left.networkBytes ≤ ofBe right.networkBytes

def parseVpnRouteRules (text : Text) : Parse (List VpnRouteRule) :=
  match parseLines (lineSequence text) 1 with
  | .error e => .error e
  | .ok parsedRoutes =>
    match conflict parsedRoutes with
    | some route =>
      .error ("Route " ++ String.ofList route.rule.cidr ++ " cannot be both included and excluded")
    | none =>
      .ok (((removeRoutesCoveredBySameActionAncestor (deduplicate parsedRoutes)).insertionSort
        fun left right => parsedRouteLe left right).map (·.rule))

def ruleLine (route : VpnRouteRule) : Text :=
  if route.excluded then '!' :: route.cidr else route.cidr

def ruleLe (left right : VpnRouteRule) : Bool :=
  match compare left.excluded right.excluded with
  | .lt => true
  | .gt => false
  | .eq => left.cidr ≤ right.cidr

def exportVpnRouteRules (routes : List VpnRouteRule) : Text :=
  joinToString '\n' ((routes.insertionSort fun left right => ruleLe left right).map ruleLine)

def parsedRouteForRule (route : VpnRouteRule) : Parse ParsedVpnRouteRule :=
  parseVpnRouteRuleLine (ruleLine route) 1

def parsedHostRouteForAddress (address : Text) : Parse ParsedVpnRouteRule :=
  match parseNumericAddress 1 address with
  | .error e => .error e
  | .ok bytes => parseVpnRouteRuleLine (hostAddress bytes ++ '/' :: toDecimal 32) 1

def ParsedVpnRouteRule.covers (route other : ParsedVpnRouteRule) : Bool :=
  route.prefixLength ≤ other.prefixLength &&
    maskedNetworkBytes other.networkBytes route.prefixLength = route.networkBytes

def longestPrefix : List ParsedVpnRouteRule → Option ParsedVpnRouteRule
  | [] => none
  | route :: routes =>
    some (routes.foldl
      (fun best other => if best.prefixLength < other.prefixLength then other else best) route)

def vpnRouteActionForAddress (routes : List VpnRouteRule) (address : Text) :
    Parse (Option VpnRouteRule) :=
  match parsedHostRouteForAddress address with
  | .error e => .error e
  | .ok hostRoute =>
    match routes.mapM parsedRouteForRule with
    | .error e => .error e
    | .ok parsed => .ok ((longestPrefix (parsed.filter (·.covers hostRoute))).map (·.rule))

/-! ## DNS -/

inductive DnsMode where
  | system
  | custom
  deriving DecidableEq, Repr

structure DnsSettings where
  mode : DnsMode
  servers : List Text
  deriving DecidableEq

def parseNumericDnsServer (lineNumber : Nat) (server : Text) : Parse Text :=
  if server.contains ':' then .error (atLine lineNumber "IPv6 DNS servers are not supported")
  else
    match parseIpv4Address dnsWords lineNumber server with
    | .error e => .error e
    | .ok bytes => .ok (hostAddress bytes)

def isRegexSpace (c : Char) : Bool := ['\t', '\n', '\x0c', '\r'].contains c || isSpaceChar c.toNat

/-- The servers of a line are separated by commas and white space. -/
def lineServers (rawLine : Text) : List Text :=
  ((trim (substringBefore '#' rawLine)).splitOnP fun c => c = ',' || isRegexSpace c).filter
    fun server => !server.isEmpty

def parseDnsLines : List Text → Nat → Parse (List Text)
  | [], _ => .ok []
  | rawLine :: rawLines, lineNumber =>
    match (lineServers rawLine).mapM (parseNumericDnsServer lineNumber) with
    | .error e => .error e
    | .ok servers =>
      match parseDnsLines rawLines (lineNumber + 1) with
      | .error e => .error e
      | .ok more => .ok (servers ++ more)

def linkedSet (texts : List Text) : List Text :=
  texts.foldl (fun kept text => if text ∈ kept then kept else kept ++ [text]) []

def parseDnsServers (text : Text) : Parse (List Text) :=
  match parseDnsLines (lineSequence text) 1 with
  | .error e => .error e
  | .ok servers => .ok (linkedSet servers)

def parseDnsSettings (mode : DnsMode) (text : Text) : Parse DnsSettings :=
  match mode with
  | .system => .ok ⟨.system, []⟩
  | .custom =>
    match parseDnsServers text with
    | .error e => .error e
    | .ok servers =>
      if servers.isEmpty then .error "At least one DNS server is required"
      else .ok ⟨.custom, servers⟩

def exportDnsServers (servers : List Text) : Text := joinToString '\n' servers

def hostVpnRouteForAddress (address : Text) : Parse VpnRouteRule :=
  match parsedHostRouteForAddress address with
  | .error e => .error e
  | .ok route => .ok route.rule

def needsHostRoute (routes : List VpnRouteRule) (server : Text) : Parse Bool :=
  match vpnRouteActionForAddress routes server with
  | .error e => .error e
  | .ok none => .ok true
  | .ok (some route) => .ok route.excluded

def hostRoutes (routes : List VpnRouteRule) : List Text → Parse (List VpnRouteRule)
  | [] => .ok []
  | server :: servers =>
    match needsHostRoute routes server with
    | .error e => .error e
    | .ok false => hostRoutes routes servers
    | .ok true =>
      match hostVpnRouteForAddress server with
      | .error e => .error e
      | .ok route =>
        match hostRoutes routes servers with
        | .error e => .error e
        | .ok more => .ok (route :: more)

def dnsHostRoutesToAdd (routes : List VpnRouteRule) (dns : DnsSettings) :
    Parse (List VpnRouteRule) :=
  match dns.mode with
  | .system => .ok []
  | .custom =>
    match hostRoutes routes dns.servers with
    | .error e => .error e
    | .ok hosts => .ok hosts.eraseDups

def excludedWarnings (routes : List VpnRouteRule) : List Text → Parse (List String)
  | [] => .ok []
  | server :: servers =>
    match vpnRouteActionForAddress routes server, excludedWarnings routes servers with
    | .error e, _ => .error e
    | .ok _, .error e => .error e
    | .ok none, .ok more => .ok more
    | .ok (some route), .ok more =>
      if route.excluded then
        .ok (("DNS server " ++ String.ofList server ++ " is excluded by " ++
          String.ofList route.cidr ++ "; a DNS route will still be added") :: more)
      else .ok more

def dnsExcludedRouteWarnings (routes : List VpnRouteRule) (dns : DnsSettings) :
    Parse (List String) :=
  match dns.mode with
  | .system => .ok []
  | .custom => excludedWarnings routes dns.servers

/-! ## The plan -/

inductive VpnRouteAction where
  | add
  | exclude
  deriving DecidableEq, Repr

structure VpnRouteOperation where
  action : VpnRouteAction
  cidr : Text
  deriving DecidableEq

structure VpnBuilderPlan where
  profileRouteOperations : List VpnRouteOperation
  dnsRouteOperations : List VpnRouteOperation
  dnsServers : List Text
  warnings : List String
  deriving DecidableEq

def actionOf (excluded : Bool) : VpnRouteAction := if excluded then .exclude else .add

def VpnRouteRule.toOperation (route : VpnRouteRule) : VpnRouteOperation :=
  ⟨actionOf route.excluded, route.cidr⟩

def validateRoutes (routes : List VpnRouteRule) : Except PlanError (List VpnRouteRule) :=
  match parseVpnRouteRules (exportVpnRouteRules routes) with
  | .ok routes => .ok routes
  | .error e => .error (.illegalArgument ("Invalid VPN routes: " ++ e))

def validateDns (dns : DnsSettings) : Except PlanError DnsSettings :=
  match parseDnsSettings dns.mode (exportDnsServers dns.servers) with
  | .ok dns => .ok dns
  | .error e => .error (.illegalArgument ("Invalid DNS settings: " ++ e))

def createVpnBuilderPlan (routes : List VpnRouteRule) (dns : DnsSettings) :
    Except PlanError VpnBuilderPlan :=
  match validateRoutes routes with
  | .error e => .error e
  | .ok validatedRoutes =>
    match validateDns dns with
    | .error e => .error e
    | .ok validatedDns =>
      if validatedRoutes.isEmpty then
        .error (.illegalState "Active profile has no VPN routes configured")
      else
        match dnsHostRoutesToAdd validatedRoutes validatedDns,
          dnsExcludedRouteWarnings validatedRoutes validatedDns with
        | .error e, _ => .error (.illegalArgument e)
        | .ok _, .error e => .error (.illegalArgument e)
        | .ok hosts, .ok warnings =>
          .ok
            { profileRouteOperations := validatedRoutes.map VpnRouteRule.toOperation
              dnsRouteOperations := hosts.map VpnRouteRule.toOperation
              dnsServers := if validatedDns.mode = .custom then validatedDns.servers else []
              warnings := warnings }

end Slt.Android
