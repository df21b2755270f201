import AieClaw.JsString

/-!
# Network addresses

`src/shared/net/ip.ts` reads address texts with a library, which is a parameter. It also reads
the texts in which an IPv4 address in decimals ends an IPv6 address.
-/

namespace NetAddresses

structure Ipv4 where
  first : BitVec 8
  second : BitVec 8
  third : BitVec 8
  fourth : BitVec 8
  deriving DecidableEq, Repr

abbrev Hextet := BitVec 16

abbrev Parts := Vector Hextet 8

open List

structure Ipv6 where
  parts : Parts
  zoneId : Option String
  deriving DecidableEq, Repr

inductive ParsedIpAddress where
  | ipv4 (address : Ipv4)
  | ipv6 (address : Ipv6)
  deriving DecidableEq, Repr

/-- The ranges of IPv4 addresses that the code names. -/
inductive Ipv4Range where
  | unspecified
  | broadcast
  | multicast
  | linkLocal
  | loopback
  | carrierGradeNat
  | privateUse
  | reserved
  | other (name : String)
  deriving DecidableEq, Repr

/-- The ranges of IPv6 addresses that the code names. -/
inductive Ipv6Range where
  | unspecified
  | loopback
  | linkLocal
  | uniqueLocal
  | multicast
  | reserved
  | benchmarking
  | discard
  | orchid2
  | rfc6145
  | rfc6052
  | other (name : String)
  deriving DecidableEq, Repr

/-- The address library. A text that `parse` throws on is not valid. -/
structure AddressLibrary where
  parseIpv4 : String → Option Ipv4
  isValidFourPartDecimal : String → Bool
  parseIpv6 : String → Option Ipv6
  rangeIpv4 : Ipv4 → Ipv4Range
  rangeIpv6 : Ipv6 → Ipv6Range
  matchIpv4 : Ipv4 → Ipv4 × ℕ → Bool
  isIPv4MappedAddress : Ipv6 → Bool
  toIPv4Address : Ipv6 → Ipv4
  toStringIpv4 : Ipv4 → String
  toStringIpv6 : Ipv6 → String

/-- The parse of a text of either kind. -/
def AddressLibrary.parse (library : AddressLibrary) (text : String) : Option ParsedIpAddress :=
  (library.parseIpv6 text).map .ipv6 <|> (library.parseIpv4 text).map .ipv4

/-- The dotted decimal text of an address. -/
def Ipv4.dotted (address : Ipv4) : String :=
  ".".intercalate
    ([address.first, address.second, address.third, address.fourth].map fun octet =>
      Nat.repr octet.toNat)

/-- The address that two hextets hold. -/
def Ipv4.ofHextets (high low : Hextet) : Ipv4 where
  first := high.extractLsb' 8 8
  second := high.extractLsb' 0 8
  third := low.extractLsb' 8 8
  fourth := low.extractLsb' 0 8

section Texts

/-- `toLowerCase` of the language, on ASCII texts. -/
structure Lowercase where
  toLowerCase : String → String
  ofAscii : ∀ text : String, (∀ character ∈ text.toList, character.toNat < 128) →
    toLowerCase text = JsString.asciiLower text

def endsWith (text ending : String) : Bool := ending.toList.isSuffixOf text.toList

def stripIpv6Brackets (value : String) : String :=
  if JsString.startsWith value "[" && endsWith value "]" then
    String.ofList value.toList.tail.dropLast
  else value

def normalizeOptionalString (value : Option String) : Option String :=
  (value.map JsString.trim).filter (· ≠ "")

/-- A text that is not blank, without the brackets around it; an empty rest counts as none. -/
def normalizeIpParseInput (raw : Option String) : Option String :=
  ((normalizeOptionalString raw).map stripIpv6Brackets).filter (· ≠ "")

def isDecimalDigit (character : Char) : Bool := character.isDigit

def isHexDigit (character : Char) : Bool :=
  character.isDigit || ('a' ≤ character.toLower && character.toLower ≤ 'f')

/-- The text behind the start `0x`, in either case. -/
def behindHexMark (value : List Char) : Option (List Char) :=
  match value with
  | '0' :: 'x' :: rest => some rest
  | '0' :: 'X' :: rest => some rest
  | _ => none

def isNumericIpv4LiteralPart (value : String) : Bool :=
  (value.toList ≠ [] && value.toList.all isDecimalDigit) ||
    (behindHexMark value.toList).any fun digits => digits ≠ [] && digits.all isHexDigit

/-- Whether characters are `count` pieces and one more, not empty, with dots between them. -/
def matchesPieces (count : ℕ) (started : Bool) : List Char → Bool
  | [] => count = 0 && started
  | character :: rest =>
    character ≠ ':' && character ≠ '%' &&
      ((started && character = '.' && 0 < count && matchesPieces (count - 1) false rest) ||
        matchesPieces count true rest)

/-- Whether characters are a zone, or nothing. -/
def matchesZone : List Char → Bool
  | [] => true
  | mark :: rest => mark = '%' && rest ≠ [] && rest.all Char.isAlphanum

/-- The text up to its last colon, what stands behind it, and the zone: the groups of
`^(.*:)([^:%]+(?:\.[^:%]+){3})(%[0-9A-Za-z]+)?$`. -/
def matchDottedTail (raw : String) : Option (String × String × String) :=
  let behind := (raw.toList.reverse.takeWhile (· ≠ ':')).reverse
  let front := (raw.toList.reverse.dropWhile (· ≠ ':')).reverse
  let embedded := behind.takeWhile (· ≠ '%')
  let zone := behind.dropWhile (· ≠ '%')
  if front ≠ [] ∧ front.all (fun character => !JsString.isLineTerminator character) = true ∧
      matchesPieces 3 false embedded = true ∧ matchesZone zone = true then
    some (String.ofList front, String.ofList embedded, String.ofList zone)
  else none

/-- `toString(16)` of a number. -/
def toHex (number : ℕ) : String := String.ofList (Nat.toDigits 16 number)

/-- `parseInt` of decimal digits. -/
def parseInt (digits : String) : ℕ := digits.toNat?.getD 0

variable (library : AddressLibrary)

def parseIpv6WithEmbeddedIpv4 (raw : String) : Option Ipv6 :=
  if !JsString.includes raw ':' || !JsString.includes raw '.' then none
  else
    (matchDottedTail raw).bind fun (front, embeddedIpv4, zoneSuffix) =>
      if library.isValidFourPartDecimal embeddedIpv4 then
        let octets := (JsString.split embeddedIpv4 '.').map parseInt
        let high := toHex ((octets.getD 0 0 <<< 8) ||| octets.getD 1 0)
        let low := toHex ((octets.getD 2 0 <<< 8) ||| octets.getD 3 0)
        library.parseIpv6 (front ++ high ++ ":" ++ low ++ zoneSuffix)
      else none

def normalizeIpv4MappedAddress (address : ParsedIpAddress) : ParsedIpAddress :=
  match address with
  | .ipv4 address => .ipv4 address
  | .ipv6 address =>
    if library.isIPv4MappedAddress address then .ipv4 (library.toIPv4Address address)
    else .ipv6 address

def parseCanonicalIpAddress (raw : Option String) : Option ParsedIpAddress :=
  (normalizeIpParseInput raw).bind fun normalized =>
    if (library.parseIpv4 normalized).isSome then
      if library.isValidFourPartDecimal normalized then
        (library.parseIpv4 normalized).map .ipv4
      else none
    else if (library.parseIpv6 normalized).isSome then (library.parseIpv6 normalized).map .ipv6
    else (parseIpv6WithEmbeddedIpv4 library normalized).map .ipv6

def parseLooseIpAddress (raw : Option String) : Option ParsedIpAddress :=
  (normalizeIpParseInput raw).bind fun normalized =>
    if (library.parse normalized).isSome then library.parse normalized
    else (parseIpv6WithEmbeddedIpv4 library normalized).map .ipv6

def isCanonicalDottedDecimalIPv4 (raw : Option String) : Bool :=
  (normalizeIpParseInput raw).any library.isValidFourPartDecimal

def isLegacyIpv4Literal (raw : Option String) : Bool :=
  (normalizeIpParseInput raw).any fun normalized =>
    !JsString.includes normalized ':' &&
      !isCanonicalDottedDecimalIPv4 library (some normalized) &&
        let parts := JsString.split normalized '.'
        parts.length ≤ 4 && !parts.any (fun part => part = "") &&
          parts.all isNumericIpv4LiteralPart

end Texts

end NetAddresses
