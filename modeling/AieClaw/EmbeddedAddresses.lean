import AieClaw.AsciiLowercase
import AieClaw.NetAddresses
import Mathlib.Data.Nat.Bitwise
import Std.Data.String.ToNat

/-!
# IPv4 addresses inside IPv6 addresses

`src/shared/net/ip.ts` looks for IPv4 addresses inside IPv6 ones, and `src/infra/net/ssrf.ts`
asks it which addresses are private. Every predicate decodes one IPv4 address, by the first
form that matches. The forms exclude each other, except that an ISATAP interface identifier
may stand under a 6to4 or a Teredo prefix.
-/

namespace NetAddresses

section Rules

structure SentinelRule where
  isMatch : Parts → Bool
  toHextets : Parts → Hextet × Hextet

def EMBEDDED_IPV4_SENTINEL_RULES : List SentinelRule :=
  [ -- IPv4-compatible form ::w.x.y.z.
    { isMatch := fun parts =>
        parts[0] = 0 && parts[1] = 0 && parts[2] = 0 && parts[3] = 0 && parts[4] = 0 &&
          parts[5] = 0
      toHextets := fun parts => (parts[6], parts[7]) },
    -- NAT64 local-use prefix: 64:ff9b:1::/48.
    { isMatch := fun parts =>
        parts[0] = 0x0064 && parts[1] = 0xff9b && parts[2] = 0x0001 && parts[3] = 0 &&
          parts[4] = 0 && parts[5] = 0
      toHextets := fun parts => (parts[6], parts[7]) },
    -- 6to4 prefix: 2002::/16 (IPv4 lives in hextets 1..2).
    { isMatch := fun parts => parts[0] = 0x2002
      toHextets := fun parts => (parts[1], parts[2]) },
    -- Teredo prefix: 2001:0000::/32 (client IPv4 XOR 0xffff in hextets 6..7).
    { isMatch := fun parts => parts[0] = 0x2001 && parts[1] = 0x0000
      toHextets := fun parts => (parts[6] ^^^ 0xffff, parts[7] ^^^ 0xffff) },
    -- ISATAP IID marker: ....:0000:5efe:w.x.y.z with u/g bits allowed in hextet 4.
    { isMatch := fun parts => parts[4] &&& 0xfcff = 0 && parts[5] = 0x5efe
      toHextets := fun parts => (parts[6], parts[7]) } ]

end Rules

section Classes

variable (library : AddressLibrary)

structure Ipv4SpecialUseBlockOptions where
  allowRfc2544BenchmarkRange : Bool
  deriving DecidableEq, Repr

structure Ipv6SpecialUseBlockOptions where
  allowUniqueLocalRange : Bool
  deriving DecidableEq, Repr

def BLOCKED_IPV4_SPECIAL_USE_RANGES : List Ipv4Range :=
  [.unspecified, .broadcast, .multicast, .linkLocal, .loopback, .carrierGradeNat, .privateUse,
    .reserved]

def BLOCKED_IPV6_SPECIAL_USE_RANGES : List Ipv6Range :=
  [.unspecified, .loopback, .linkLocal, .uniqueLocal, .multicast, .reserved, .benchmarking,
    .discard, .orchid2]

def RFC2544_BENCHMARK_PREFIX : Ipv4 × ℕ := (⟨198, 18, 0, 0⟩, 15)

def CLOUD_METADATA_IP_ADDRESSES : List String := ["100.100.100.200", "fd00:ec2::254"]

/-- The address is parsed from the dotted decimal text of its octets. -/
def decodeIpv4FromHextets (high low : Hextet) : Option Ipv4 :=
  library.parseIpv4 (".".intercalate
    ([high >>> 8 &&& 0xff, high &&& 0xff, low >>> 8 &&& 0xff, low &&& 0xff].map fun octet =>
      Nat.repr octet.toNat))

def extractEmbeddedIpv4FromIpv6 (address : Ipv6) : Option Ipv4 :=
  if library.isIPv4MappedAddress address then some (library.toIPv4Address address)
  else if library.rangeIpv6 address = .rfc6145 then
    decodeIpv4FromHextets library address.parts[6] address.parts[7]
  else if library.rangeIpv6 address = .rfc6052 then
    decodeIpv4FromHextets library address.parts[6] address.parts[7]
  else
    (EMBEDDED_IPV4_SENTINEL_RULES.find? fun rule => rule.isMatch address.parts).bind fun rule =>
      decodeIpv4FromHextets library (rule.toHextets address.parts).1
        (rule.toHextets address.parts).2

def isBlockedSpecialUseIpv6Address (address : Ipv6) (options : Ipv6SpecialUseBlockOptions) :
    Bool :=
  if library.rangeIpv6 address = .uniqueLocal ∧ options.allowUniqueLocalRange = true then false
  else if library.rangeIpv6 address ∈ BLOCKED_IPV6_SPECIAL_USE_RANGES then true
  else decide (address.parts[0] &&& 0xffc0 = 0xfec0)

def isBlockedSpecialUseIpv4Address (address : Ipv4) (options : Ipv4SpecialUseBlockOptions) :
    Bool :=
  let inRfc2544BenchmarkRange := library.matchIpv4 address RFC2544_BENCHMARK_PREFIX
  if inRfc2544BenchmarkRange && options.allowRfc2544BenchmarkRange then false
  else decide (library.rangeIpv4 address ∈ BLOCKED_IPV4_SPECIAL_USE_RANGES) ||
    inRfc2544BenchmarkRange

def isLinkLocalIpAddress (raw : Option String) : Bool :=
  (parseLooseIpAddress library raw).any fun parsed =>
    match normalizeIpv4MappedAddress library parsed with
    | .ipv4 normalized => decide (library.rangeIpv4 normalized = .linkLocal)
    | .ipv6 normalized =>
      (extractEmbeddedIpv4FromIpv6 library normalized).any (fun embeddedIpv4 =>
          decide (library.rangeIpv4 embeddedIpv4 = .linkLocal)) ||
        decide (library.rangeIpv6 normalized = .linkLocal)

def isCloudMetadataIpAddress (raw : Option String) : Bool :=
  (parseLooseIpAddress library raw).any fun parsed =>
    match normalizeIpv4MappedAddress library parsed with
    | .ipv4 normalized =>
      decide (library.toStringIpv4 normalized ∈ CLOUD_METADATA_IP_ADDRESSES)
    | .ipv6 normalized =>
      (extractEmbeddedIpv4FromIpv6 library normalized).any (fun embeddedIpv4 =>
          decide (library.toStringIpv4 embeddedIpv4 ∈ CLOUD_METADATA_IP_ADDRESSES)) ||
        decide (library.toStringIpv6 normalized ∈ CLOUD_METADATA_IP_ADDRESSES)

end Classes

section Policy

variable (library : AddressLibrary) (lowercase : Lowercase)

/-- The address options of a policy; a missing policy has none of them. -/
structure SsrFPolicy where
  allowRfc2544BenchmarkRange : Option Bool
  allowIpv6UniqueLocalRange : Option Bool
  deriving DecidableEq, Repr

def resolveIpv4SpecialUseBlockOptions (policy : Option SsrFPolicy) :
    Ipv4SpecialUseBlockOptions where
  allowRfc2544BenchmarkRange := (policy.bind SsrFPolicy.allowRfc2544BenchmarkRange).getD false

def resolveIpv6SpecialUseBlockOptions (policy : Option SsrFPolicy) :
    Ipv6SpecialUseBlockOptions where
  allowUniqueLocalRange := (policy.bind SsrFPolicy.allowIpv6UniqueLocalRange).getD false

def normalizeLowercaseStringOrEmpty (value : String) : String :=
  ((normalizeOptionalString (some value)).map lowercase.toLowerCase).getD ""

def stripTrailingDot (text : String) : String :=
  if endsWith text "." then String.ofList text.toList.dropLast else text

def normalizeHostname (hostname : String) : String :=
  stripIpv6Brackets (stripTrailingDot (normalizeLowercaseStringOrEmpty lowercase hostname))

def looksLikeUnsupportedIpv4Literal (address : String) : Bool :=
  let parts := JsString.split address '.'
  if 4 < parts.length then false
  else if parts.any (fun part => part = "") then true
  else
    parts.all fun part =>
      (part.toList ≠ [] && part.toList.all isDecimalDigit) || (behindHexMark part.toList).isSome

def isPrivateIpAddress (address : String) (policy : Option SsrFPolicy) : Bool :=
  let normalized := normalizeHostname lowercase address
  if normalized = "" then false
  else
    match parseCanonicalIpAddress library (some normalized) with
    | some (.ipv4 strictIp) =>
      isBlockedSpecialUseIpv4Address library strictIp (resolveIpv4SpecialUseBlockOptions policy)
    | some (.ipv6 strictIp) =>
      if isBlockedSpecialUseIpv6Address library strictIp
          (resolveIpv6SpecialUseBlockOptions policy) then true
      else
        (extractEmbeddedIpv4FromIpv6 library strictIp).any fun embeddedIpv4 =>
          isBlockedSpecialUseIpv4Address library embeddedIpv4
            (resolveIpv4SpecialUseBlockOptions policy)
    | none =>
      -- Malformed IPv6 literals count as private.
      if JsString.includes normalized ':' &&
          (parseLooseIpAddress library (some normalized)).isNone then true
      else if !isCanonicalDottedDecimalIPv4 library (some normalized) &&
          isLegacyIpv4Literal library (some normalized) then true
      else looksLikeUnsupportedIpv4Literal normalized

end Policy

open List

section Forms

/-- The forms in which an IPv6 address holds an IPv4 address. -/
inductive EmbeddedForm where
  | mapped
  | compatible
  | translated
  | nat64WellKnown
  | nat64LocalUse
  | sixToFour
  | teredo
  | isatap
  deriving DecidableEq, Repr

/-- Whether an address has a form. -/
def EmbeddedForm.isForm (parts : Parts) : EmbeddedForm → Prop
  | .mapped =>
    parts[0] = 0 ∧ parts[1] = 0 ∧ parts[2] = 0 ∧ parts[3] = 0 ∧ parts[4] = 0 ∧ parts[5] = 0xffff
  | .compatible =>
    parts[0] = 0 ∧ parts[1] = 0 ∧ parts[2] = 0 ∧ parts[3] = 0 ∧ parts[4] = 0 ∧ parts[5] = 0
  | .translated =>
    parts[0] = 0 ∧ parts[1] = 0 ∧ parts[2] = 0 ∧ parts[3] = 0 ∧ parts[4] = 0xffff ∧ parts[5] = 0
  | .nat64WellKnown =>
    parts[0] = 0x0064 ∧ parts[1] = 0xff9b ∧ parts[2] = 0 ∧ parts[3] = 0 ∧ parts[4] = 0 ∧
      parts[5] = 0
  | .nat64LocalUse => parts[0] = 0x0064 ∧ parts[1] = 0xff9b ∧ parts[2] = 0x0001
  | .sixToFour => parts[0] = 0x2002
  | .teredo => parts[0] = 0x2001 ∧ parts[1] = 0
  | .isatap => parts[4] &&& 0xfcff = 0 ∧ parts[5] = 0x5efe

instance (parts : Parts) (form : EmbeddedForm) : Decidable (form.isForm parts) := by
  cases form <;> dsimp only [EmbeddedForm.isForm] <;> infer_instance

/-- The address that a form holds. -/
def EmbeddedForm.held (parts : Parts) : EmbeddedForm → Ipv4
  | .sixToFour => .ofHextets parts[1] parts[2]
  | .teredo => .ofHextets (parts[6] ^^^ 0xffff) (parts[7] ^^^ 0xffff)
  | _ => .ofHextets parts[6] parts[7]

/-- The documented behaviour of the address library that the code relies on. -/
structure AddressLibrary.Documented (library : AddressLibrary) : Prop where
  parseIpv4_dotted : ∀ address : Ipv4, library.parseIpv4 address.dotted = some address
  isValidFourPartDecimal_iff : ∀ text, library.isValidFourPartDecimal text = true ↔
    ∃ address : Ipv4, text = address.dotted
  parseIpv4_plain : ∀ text, (library.parseIpv4 text).isSome = true → ':' ∉ text.toList
  parseIpv6_colon : ∀ text, (library.parseIpv6 text).isSome = true → ':' ∈ text.toList
  parseIpv6_characters : ∀ text, (library.parseIpv6 text).isSome = true →
    ∀ character ∈ text.toList,
      character.isAlphanum = true ∨ character = ':' ∨ character = '.' ∨ character = '%'
  parseIpv6_ending : ∀ text, (library.parseIpv6 text).isSome = true →
    text.toList.getLast? ≠ some '.'
  /-- The digits and the zone may be written in either case. -/
  parseIpv6_lowercase : ∀ text, (library.parseIpv6 (JsString.asciiLower text)).map Ipv6.parts =
    (library.parseIpv6 text).map Ipv6.parts
  rangeIpv6_parts : ∀ address other, address.parts = other.parts →
    library.rangeIpv6 address = library.rangeIpv6 other
  isIPv4MappedAddress_iff : ∀ address, library.isIPv4MappedAddress address = true ↔
    EmbeddedForm.mapped.isForm address.parts
  toIPv4Address_mapped : ∀ address, EmbeddedForm.mapped.isForm address.parts →
    library.toIPv4Address address = EmbeddedForm.mapped.held address.parts
  rfc6145_iff : ∀ address, library.rangeIpv6 address = .rfc6145 ↔
    EmbeddedForm.translated.isForm address.parts
  rfc6052_iff : ∀ address, library.rangeIpv6 address = .rfc6052 ↔
    EmbeddedForm.nat64WellKnown.isForm address.parts

variable (library : AddressLibrary)

/-- A text is a spelling of an address. -/
def Spells (raw : String) (address : Ipv6) : Prop :=
  parseLooseIpAddress library (some raw) = some (.ipv6 address)

/-- What the predicates must say of a text that spells an address which holds another one. -/
structure Sees (lowercase : Lowercase) (raw : String) (policy : Option SsrFPolicy)
    (embedded : Ipv4) : Prop where
  blocked : isBlockedSpecialUseIpv4Address library embedded
      (resolveIpv4SpecialUseBlockOptions policy) = true →
    isPrivateIpAddress library lowercase raw policy = true
  linkLocal : library.rangeIpv4 embedded = .linkLocal →
    isLinkLocalIpAddress library (some raw) = true
  cloudMetadata : library.toStringIpv4 embedded ∈ CLOUD_METADATA_IP_ADDRESSES →
    isCloudMetadataIpAddress library (some raw) = true

/-- An address is of each class that another one is of, by itself or by a third one. -/
structure Covers (policy : Option SsrFPolicy) (address : Ipv6) (other : Option Ipv4)
    (embedded : Ipv4) : Prop where
  blocked : isBlockedSpecialUseIpv4Address library embedded
      (resolveIpv4SpecialUseBlockOptions policy) = true →
    isBlockedSpecialUseIpv6Address library address
        (resolveIpv6SpecialUseBlockOptions policy) = true ∨
      ∃ seen ∈ other, isBlockedSpecialUseIpv4Address library seen
        (resolveIpv4SpecialUseBlockOptions policy) = true
  linkLocal : library.rangeIpv4 embedded = .linkLocal →
    library.rangeIpv6 address = .linkLocal ∨
      ∃ seen ∈ other, library.rangeIpv4 seen = .linkLocal
  cloudMetadata : library.toStringIpv4 embedded ∈ CLOUD_METADATA_IP_ADDRESSES →
    library.toStringIpv6 address ∈ CLOUD_METADATA_IP_ADDRESSES ∨
      ∃ seen ∈ other, library.toStringIpv4 seen ∈ CLOUD_METADATA_IP_ADDRESSES

/-- When an address in a form is seen. -/
def SeenWhen (policy : Option SsrFPolicy) (address : Ipv6) (embedded : Ipv4) :
    EmbeddedForm → Prop
  | .isatap =>
    (EmbeddedForm.sixToFour.isForm address.parts →
      Covers library policy address (some (EmbeddedForm.sixToFour.held address.parts)) embedded) ∧
    (EmbeddedForm.teredo.isForm address.parts →
      Covers library policy address (some (EmbeddedForm.teredo.held address.parts)) embedded)
  | .nat64LocalUse =>
    (address.parts[3] = 0 ∧ address.parts[4] = 0 ∧ address.parts[5] = 0) ∨
      EmbeddedForm.isatap.isForm address.parts ∨ Covers library policy address none embedded
  | _ => True

end Forms

section Decoding

variable {library : AddressLibrary} (documented : library.Documented)

include documented

theorem decodeIpv4FromHextets_eq (high low : Hextet) :
    decodeIpv4FromHextets library high low = some (.ofHextets high low) := by
  have octet : ∀ hextet : Hextet,
      (hextet >>> 8 &&& 0xff).toNat = (hextet.extractLsb' 8 8).toNat ∧
        (hextet &&& 0xff).toNat = (hextet.extractLsb' 0 8).toNat := by
    intro hextet
    have mask : ∀ number : ℕ, number &&& 255 = number % 256 := fun number =>
      Nat.and_two_pow_sub_one_eq_mod number 8
    simp [mask]
  rw [← documented.parseIpv4_dotted (.ofHextets high low), decodeIpv4FromHextets]
  simp only [Ipv4.dotted, Ipv4.ofHextets, map_cons, map_nil, octet]

/-- The address that is decoded, from the parts alone. -/
def decoded (parts : Parts) : Option Ipv4 :=
  if EmbeddedForm.mapped.isForm parts ∨ EmbeddedForm.translated.isForm parts ∨
      EmbeddedForm.nat64WellKnown.isForm parts then
    some (.ofHextets parts[6] parts[7])
  else
    (EMBEDDED_IPV4_SENTINEL_RULES.find? fun rule => rule.isMatch parts).map fun rule =>
      .ofHextets (rule.toHextets parts).1 (rule.toHextets parts).2

theorem extractEmbeddedIpv4FromIpv6_eq (address : Ipv6) :
    extractEmbeddedIpv4FromIpv6 library address = decoded address.parts := by
  rw [extractEmbeddedIpv4FromIpv6, decoded]
  simp only [documented.isIPv4MappedAddress_iff, documented.rfc6145_iff, documented.rfc6052_iff,
    decodeIpv4FromHextets_eq documented]
  by_cases mapped : EmbeddedForm.mapped.isForm address.parts
  · rw [if_pos mapped, if_pos (.inl mapped), documented.toIPv4Address_mapped address mapped]
    rfl
  · by_cases translated : EmbeddedForm.translated.isForm address.parts
    · rw [if_neg mapped, if_pos translated, if_pos (.inr (.inl translated))]
    · by_cases wellKnown : EmbeddedForm.nat64WellKnown.isForm address.parts
      · rw [if_neg mapped, if_neg translated, if_pos wellKnown, if_pos (.inr (.inr wellKnown))]
      · rw [if_neg mapped, if_neg translated, if_neg wellKnown,
          if_neg (by simp [mapped, translated, wellKnown])]
        cases EMBEDDED_IPV4_SENTINEL_RULES.find? fun rule => rule.isMatch address.parts <;> rfl

omit documented

/-- The first form that matches, for the forms that exclude every other one. -/
theorem decoded_of_form {parts : Parts} {form : EmbeddedForm} (isForm : form.isForm parts)
    (noIdentifier : form = .isatap → ¬ EmbeddedForm.sixToFour.isForm parts ∧
      ¬ EmbeddedForm.teredo.isForm parts)
    (noSubnet : form = .nat64LocalUse →
      parts[3] = 0 ∧ parts[4] = 0 ∧ parts[5] = 0) : decoded parts = some (form.held parts) := by
  cases form with
  | mapped => rw [decoded, if_pos (.inl isForm)]; rfl
  | translated => rw [decoded, if_pos (.inr (.inl isForm))]; rfl
  | nat64WellKnown => rw [decoded, if_pos (.inr (.inr isForm))]; rfl
  | compatible =>
    obtain ⟨zero, one, two, three, four, five⟩ := isForm
    simp [decoded, EmbeddedForm.isForm, EMBEDDED_IPV4_SENTINEL_RULES, EmbeddedForm.held, zero,
      one, two, three, four, five]
  | nat64LocalUse =>
    obtain ⟨zero, one, two⟩ := isForm
    obtain ⟨three, four, five⟩ := noSubnet rfl
    simp [decoded, EmbeddedForm.isForm, EMBEDDED_IPV4_SENTINEL_RULES, EmbeddedForm.held, zero,
      one, two, three, four, five]
  | sixToFour =>
    have zero : parts[0] = 0x2002 := isForm
    simp [decoded, EmbeddedForm.isForm, EMBEDDED_IPV4_SENTINEL_RULES, EmbeddedForm.held, zero]
  | teredo =>
    obtain ⟨zero, one⟩ := isForm
    simp [decoded, EmbeddedForm.isForm, EMBEDDED_IPV4_SENTINEL_RULES, EmbeddedForm.held, zero,
      one]
  | isatap =>
    obtain ⟨four, five⟩ := isForm
    obtain ⟨notSixToFour, notTeredo⟩ := noIdentifier rfl
    have four : parts[4] &&& 64767#16 = 0#16 := four
    have notSixToFour : ¬ parts[0] = 8194#16 := notSixToFour
    have notTeredo : ¬ (parts[0] = 8193#16 ∧ parts[1] = 0#16) := notTeredo
    simp [decoded, EmbeddedForm.isForm, EMBEDDED_IPV4_SENTINEL_RULES, EmbeddedForm.held, four,
      five, notSixToFour, notTeredo]

theorem decoded_of_prefix {parts : Parts} {form : EmbeddedForm}
    (isPrefix : form = .sixToFour ∨ form = .teredo) (isForm : form.isForm parts) :
    decoded parts = some (form.held parts) := by
  rcases isPrefix with rfl | rfl
  · exact decoded_of_form isForm (fun same => by cases same) (fun same => by cases same)
  · exact decoded_of_form isForm (fun same => by cases same) (fun same => by cases same)

theorem decoded_of_subnet {parts : Parts} (isForm : EmbeddedForm.nat64LocalUse.isForm parts)
    (subnet : ¬(parts[3] = 0 ∧ parts[4] = 0 ∧ parts[5] = 0))
    (noIdentifier : ¬ EmbeddedForm.isatap.isForm parts) : decoded parts = none := by
  obtain ⟨zero, one, two⟩ := isForm
  have subnet : parts[3] = 0#16 → parts[4] = 0#16 → ¬ parts[5] = 0#16 := fun three four five =>
    subnet ⟨three, four, five⟩
  have noIdentifier : parts[4] &&& 64767#16 = 0#16 → ¬ parts[5] = 24318#16 := fun four five =>
    noIdentifier ⟨four, five⟩
  simpa [decoded, EmbeddedForm.isForm, EMBEDDED_IPV4_SENTINEL_RULES, zero, one, two] using
    ⟨subnet, noIdentifier⟩

end Decoding

section Spellings

open JsString (asciiLower)

/-- The characters of address texts: ASCII letters and digits, `:`, `.` and `%`. -/
def IsAddressCharacter (character : Char) : Prop :=
  (48 ≤ character.toNat ∧ character.toNat ≤ 58) ∨ (65 ≤ character.toNat ∧ character.toNat ≤ 90) ∨
    (97 ≤ character.toNat ∧ character.toNat ≤ 122) ∨ character.toNat = 46 ∨ character.toNat = 37

theorem isAlphanum_iff {character : Char} : character.isAlphanum = true ↔
    (65 ≤ character.toNat ∧ character.toNat ≤ 90) ∨
      (97 ≤ character.toNat ∧ character.toNat ≤ 122) ∨
        (48 ≤ character.toNat ∧ character.toNat ≤ 57) := by
  have unfolded : character.isAlphanum =
      (decide (65 ≤ character.val ∧ character.val ≤ 90) ||
        (decide (97 ≤ character.val) && decide (character.val ≤ 122)) ||
          (decide (48 ≤ character.val) && decide (character.val ≤ 57))) := rfl
  simp only [unfolded, Bool.or_eq_true, Bool.and_eq_true, decide_eq_true_eq,
    UInt32.le_iff_toNat_le, or_assoc]
  rfl

theorem isAddressCharacter_of_isAlphanum {character : Char}
    (plain : character.isAlphanum = true) : IsAddressCharacter character := by
  rw [isAlphanum_iff] at plain
  unfold IsAddressCharacter
  omega

theorem isAlphanum_toLower {character : Char} (alphanum : character.isAlphanum = true) :
    character.toLower.isAlphanum = true := by
  rw [isAlphanum_iff] at alphanum ⊢
  rw [JsString.toNat_toLower]
  split <;> omega

theorem isAddressCharacter_of_documented {character : Char} (plain : character.isAlphanum = true ∨
    character = ':' ∨ character = '.' ∨ character = '%') : IsAddressCharacter character := by
  rcases plain with alphanum | rfl | rfl | rfl
  · exact isAddressCharacter_of_isAlphanum alphanum
  all_goals unfold IsAddressCharacter; decide

theorem IsAddressCharacter.toLower {character : Char} (plain : IsAddressCharacter character) :
    IsAddressCharacter character.toLower := by
  unfold IsAddressCharacter at plain ⊢
  rw [JsString.toNat_toLower]
  split <;> omega

theorem toLower_eq_iff {character mark : Char} (isMark : mark.toNat < 65) :
    character.toLower = mark ↔ character = mark := by
  rw [← Char.toNat_inj, ← Char.toNat_inj, JsString.toNat_toLower]
  split <;> omega

/-- A text of address characters that does not end in a dot. -/
structure AddressText (text : String) : Prop where
  nonempty : text ≠ ""
  plain : ∀ character ∈ text.toList, IsAddressCharacter character
  ending : text.toList.getLast? ≠ some '.'

variable {text : String}

theorem toList_asciiLower (text : String) :
    (asciiLower text).toList = text.toList.map Char.toLower := by
  rw [asciiLower, String.toList_ofList]

theorem getLast?_asciiLower (text : String) :
    (asciiLower text).toList.getLast? = text.toList.getLast?.map Char.toLower := by
  rw [toList_asciiLower, getLast?_map]

theorem endsWith_singleton (character : Char) :
    endsWith text (String.ofList [character]) = true ↔ text.toList.getLast? = some character := by
  rw [endsWith, String.toList_ofList, isSuffixOf_iff_suffix]
  constructor
  · rintro ⟨front, shape⟩
    rw [← shape, getLast?_append]
    rfl
  · intro isLast
    obtain ⟨front, shape⟩ := getLast?_eq_some_iff.mp isLast
    exact ⟨front, shape.symm⟩

theorem startsWith_singleton (character : Char) :
    JsString.startsWith text (String.ofList [character]) = true ↔
      text.toList.head? = some character := by
  rw [JsString.startsWith, String.toList_ofList, isPrefixOf_iff_prefix]
  cases text.toList with
  | nil => simp
  | cons first rest => simp [eq_comm]

theorem stripIpv6Brackets_cases (value : String) :
    (stripIpv6Brackets value = value ∧
      ¬(value.toList.head? = some '[' ∧ value.toList.getLast? = some ']')) ∨
      value.toList = '[' :: (stripIpv6Brackets value).toList ++ [']'] := by
  have opens := @startsWith_singleton value '['
  have closes := @endsWith_singleton value ']'
  by_cases bracketed : value.toList.head? = some '[' ∧ value.toList.getLast? = some ']'
  · refine .inr ?_
    rw [stripIpv6Brackets, if_pos (by
      rw [Bool.and_eq_true]
      exact ⟨opens.mpr bracketed.1, closes.mpr bracketed.2⟩), String.toList_ofList]
    obtain ⟨first, last⟩ := bracketed
    cases shape : value.toList with
    | nil => simp [shape] at first
    | cons head rest =>
      rw [shape, head?_cons, Option.some_inj] at first
      subst first
      cases rest with
      | nil => simp [shape] at last
      | cons second later =>
        rw [shape, getLast?_cons_cons] at last
        obtain ⟨front, split⟩ := getLast?_eq_some_iff.mp last
        rw [split]
        simp
  · refine .inl ⟨?_, bracketed⟩
    rw [stripIpv6Brackets, if_neg]
    rw [Bool.and_eq_true]
    exact fun both => bracketed ⟨opens.mp both.1, closes.mp both.2⟩

theorem AddressText.lower (isAddress : AddressText text) : AddressText (asciiLower text) where
  nonempty := by
    intro empty
    apply isAddress.nonempty
    rw [← String.toList_inj, toList_asciiLower] at empty
    rw [← String.toList_inj]
    simpa using empty
  plain := by
    intro character member
    rw [toList_asciiLower, mem_map] at member
    obtain ⟨original, inText, rfl⟩ := member
    exact (isAddress.plain original inText).toLower
  ending := by
    rw [getLast?_asciiLower]
    intro dot
    obtain ⟨last, isLast, isDot⟩ := Option.map_eq_some_iff.mp dot
    rw [(toLower_eq_iff (by decide)).mp isDot] at isLast
    exact isAddress.ending isLast

theorem AddressText.trim (isAddress : AddressText text) : JsString.trim text = text := by
  refine JsString.trim_of_plain fun character member => ?_
  have bounds := isAddress.plain character member
  unfold IsAddressCharacter at bounds
  simp only [JsString.isWhitespace, Bool.or_eq_false_iff, Bool.and_eq_false_iff,
    decide_eq_false_iff_not, beq_eq_false_iff_ne]
  omega

theorem AddressText.strip (isAddress : AddressText text) : stripIpv6Brackets text = text := by
  rcases stripIpv6Brackets_cases text with ⟨same, -⟩ | bracketed
  · exact same
  · have opens : '[' ∈ text.toList := by
      rw [bracketed]
      simp
    exact absurd (isAddress.plain '[' opens) (by unfold IsAddressCharacter; decide)

theorem AddressText.normalizeIpParseInput (isAddress : AddressText text) :
    normalizeIpParseInput (some text) = some text := by
  simp [NetAddresses.normalizeIpParseInput, normalizeOptionalString, isAddress.trim,
    Option.filter_some, isAddress.nonempty, isAddress.strip]

theorem asciiLower_append (first second : String) :
    asciiLower (first ++ second) = asciiLower first ++ asciiLower second := by
  rw [← String.toList_inj]
  simp [toList_asciiLower]

theorem isSmallAscii_toHex (number : ℕ) : JsString.isSmallAscii (toHex number) = true := by
  rw [JsString.isSmallAscii, toHex, String.toList_ofList]
  induction number using Nat.strongRecOn with
  | ind number inductionHypothesis =>
    have digit : ∀ digit < 16, ((Nat.digitChar digit).toNat < 128 &&
        !(65 ≤ (Nat.digitChar digit).toNat && (Nat.digitChar digit).toNat ≤ 90)) = true := by
      decide
    rw [Nat.toDigits_eq_if (by decide)]
    split
    · rename_i small
      rw [all_cons, digit number small, all_nil]
      rfl
    · have smaller : number / 16 < number := by omega
      rw [all_append, inductionHypothesis _ smaller, all_cons, digit _ (Nat.mod_lt _ (by decide)),
        all_nil]
      rfl

theorem isDigit_of_mem_repr {number : ℕ} {character : Char}
    (member : character ∈ (Nat.repr number).toList) : character.isDigit = true := by
  rw [Nat.toList_repr] at member
  exact Nat.isDigit_of_mem_toDigits (by decide) (by decide) member

theorem dotted_characters (address : Ipv4) {character : Char}
    (member : character ∈ address.dotted.toList) : character.isDigit = true ∨ character = '.' := by
  simp only [Ipv4.dotted, String.toList_intercalate, map_cons, map_nil, intercalate_cons_cons,
    intercalate_singleton, mem_append] at member
  have dot : character ∈ (".":String).toList → character = '.' := by simp
  rcases member with (first | isDot) | (second | isDot) | (third | isDot) | fourth
  · exact .inl (isDigit_of_mem_repr first)
  · exact .inr (dot isDot)
  · exact .inl (isDigit_of_mem_repr second)
  · exact .inr (dot isDot)
  · exact .inl (isDigit_of_mem_repr third)
  · exact .inr (dot isDot)
  · exact .inl (isDigit_of_mem_repr fourth)

theorem getLast?_dotted (address : Ipv4) :
    ∃ digit, address.dotted.toList.getLast? = some digit ∧ digit.isDigit = true := by
  have nonempty : (Nat.repr address.fourth.toNat).toList ≠ [] := by
    rw [Nat.toList_repr]
    exact Nat.toDigits_ne_nil
  refine ⟨(Nat.repr address.fourth.toNat).toList.getLast nonempty, ?_,
    isDigit_of_mem_repr (getLast_mem nonempty)⟩
  simp only [Ipv4.dotted, String.toList_intercalate, map_cons, map_nil, intercalate_cons_cons,
    intercalate_singleton, getLast?_append_of_ne_nil _ nonempty, getLast?_append,
    getLast?_eq_some_getLast nonempty, Option.some_or]

theorem toNat_of_isDigit {character : Char} (digit : character.isDigit = true) :
    48 ≤ character.toNat ∧ character.toNat ≤ 57 := by
  simp only [Char.isDigit, Bool.and_eq_true, decide_eq_true_eq, ge_iff_le,
    UInt32.le_iff_toNat_le] at digit
  exact digit

theorem isSmallAscii_dotted (address : Ipv4) : JsString.isSmallAscii address.dotted = true := by
  rw [JsString.isSmallAscii, all_eq_true]
  intro character member
  simp only [Bool.and_eq_true, decide_eq_true_eq, Bool.not_eq_true', Bool.and_eq_false_iff,
    decide_eq_false_iff_not]
  rcases dotted_characters address member with digit | rfl
  · have := toNat_of_isDigit digit
    omega
  · decide

/-- The groups of a dotted tail. -/
structure DottedTail (raw front embedded zone : String) : Prop where
  shape : raw = front ++ embedded ++ zone
  isFront : String.ofList (raw.toList.reverse.dropWhile (· ≠ ':')).reverse = front
  isEmbedded : String.ofList ((raw.toList.reverse.takeWhile (· ≠ ':')).reverse.takeWhile
    (· ≠ '%')) = embedded
  isZone : String.ofList ((raw.toList.reverse.takeWhile (· ≠ ':')).reverse.dropWhile
    (· ≠ '%')) = zone
  frontNonempty : front ≠ ""
  frontLine : front.toList.all (fun character => !JsString.isLineTerminator character) = true
  pieces : matchesPieces 3 false embedded.toList = true
  zoneText : matchesZone zone.toList = true

theorem matchDottedTail_eq_some_iff {raw front embedded zone : String} :
    matchDottedTail raw = some (front, embedded, zone) ↔ DottedTail raw front embedded zone := by
  have split : raw = String.ofList (raw.toList.reverse.dropWhile (· ≠ ':')).reverse ++
      String.ofList ((raw.toList.reverse.takeWhile (· ≠ ':')).reverse.takeWhile (· ≠ '%')) ++
      String.ofList ((raw.toList.reverse.takeWhile (· ≠ ':')).reverse.dropWhile (· ≠ '%')) := by
    rw [← String.toList_inj]
    simp only [String.toList_append, String.toList_ofList, append_assoc, takeWhile_append_dropWhile]
    rw [← reverse_append, takeWhile_append_dropWhile, reverse_reverse]
  rw [matchDottedTail]
  constructor
  · intro isMatch
    split at isMatch
    · rename_i conditions
      obtain ⟨frontNonempty, frontLine, pieces, zoneText⟩ := conditions
      rw [Option.some.injEq, Prod.mk.injEq, Prod.mk.injEq] at isMatch
      obtain ⟨rfl, rfl, rfl⟩ := isMatch
      refine ⟨split, rfl, rfl, rfl, ?_, ?_, ?_, ?_⟩
      · rw [← String.toList_inj.ne]
        simpa using frontNonempty
      · rwa [String.toList_ofList]
      · rwa [String.toList_ofList]
      · rwa [String.toList_ofList]
    · cases isMatch
  · rintro ⟨-, rfl, rfl, rfl, frontNonempty, frontLine, pieces, zoneText⟩
    simp only [String.toList_ofList] at frontLine pieces zoneText
    have frontNonempty : (raw.toList.reverse.dropWhile (· ≠ ':')).reverse ≠ [] := by
      rw [← String.toList_inj.ne] at frontNonempty
      simpa using frontNonempty
    rw [if_pos ⟨frontNonempty, frontLine, pieces, zoneText⟩]

/-- A text in small letters has the tail of the text in small letters. -/
theorem DottedTail.lower {raw front embedded zone : String}
    (tail : DottedTail raw front embedded zone)
    (frontPlain : ∀ character ∈ front.toList, IsAddressCharacter character)
    (isDotted : ∃ address : Ipv4, embedded = address.dotted) :
    DottedTail (asciiLower raw) (asciiLower front) embedded (asciiLower zone) := by
  have colon : (fun character : Char => decide (character ≠ ':')) ∘ Char.toLower =
      fun character => decide (character ≠ ':') := by
    funext character
    simp [toLower_eq_iff]
  have percent : (fun character : Char => decide (character ≠ '%')) ∘ Char.toLower =
      fun character => decide (character ≠ '%') := by
    funext character
    simp [toLower_eq_iff]
  have embeddedLower : asciiLower embedded = embedded := by
    obtain ⟨address, rfl⟩ := isDotted
    exact JsString.asciiLower_of_isSmallAscii (isSmallAscii_dotted address)
  refine ⟨?_, ?_, ?_, ?_, ?_, ?_, tail.pieces, ?_⟩
  · rw [tail.shape, asciiLower_append, asciiLower_append, embeddedLower]
  · rw [toList_asciiLower, ← map_reverse, dropWhile_map, colon, ← map_reverse, ← tail.isFront,
      asciiLower, String.toList_ofList]
  · rw [toList_asciiLower, ← map_reverse, takeWhile_map, colon, ← map_reverse, takeWhile_map,
      percent, ← embeddedLower, ← tail.isEmbedded, asciiLower, String.toList_ofList]
  · rw [toList_asciiLower, ← map_reverse, takeWhile_map, colon, ← map_reverse, dropWhile_map,
      percent, ← tail.isZone, asciiLower, String.toList_ofList]
  · intro empty
    apply tail.frontNonempty
    rw [← String.toList_inj, toList_asciiLower] at empty
    rw [← String.toList_inj]
    simpa using empty
  · rw [toList_asciiLower, all_map, all_eq_true]
    intro character member
    have plain := (frontPlain character member).toLower
    unfold IsAddressCharacter at plain
    have noBreak : ∀ mark : Char, mark.toNat < 37 → character.toLower ≠ mark := by
      rintro mark control rfl
      omega
    have lineFeed := noBreak '\n' (by decide)
    have carriageReturn := noBreak '\r' (by decide)
    simp only [Function.comp_apply, JsString.isLineTerminator, Bool.not_eq_true',
      Bool.or_eq_false_iff, beq_eq_false_iff_ne]
    exact ⟨⟨⟨lineFeed, carriageReturn⟩, by omega⟩, by omega⟩
  · rw [toList_asciiLower]
    have zoneText := tail.zoneText
    cases shape : zone.toList with
    | nil => rfl
    | cons mark rest =>
      rw [shape, matchesZone, Bool.and_eq_true, Bool.and_eq_true, decide_eq_true_iff,
        decide_eq_true_iff, all_eq_true] at zoneText
      obtain ⟨⟨isMark, nonempty⟩, alphanum⟩ := zoneText
      rw [map_cons, matchesZone, Bool.and_eq_true, Bool.and_eq_true, decide_eq_true_iff,
        decide_eq_true_iff, all_map, all_eq_true]
      refine ⟨⟨(toLower_eq_iff (by decide)).mpr isMark, by simpa using nonempty⟩, ?_⟩
      intro character member
      exact isAlphanum_toLower (alphanum character member)

variable {library : AddressLibrary} {address : Ipv6} {raw : String}

theorem addressText_of_parseIpv6 (documented : library.Documented)
    (isAddress : library.parseIpv6 text = some address) : AddressText text where
  nonempty := by
    rintro rfl
    have := documented.parseIpv6_colon "" (Option.isSome_of_eq_some isAddress)
    simp at this
  plain character member := isAddressCharacter_of_documented
    (documented.parseIpv6_characters text (Option.isSome_of_eq_some isAddress) character member)
  ending := documented.parseIpv6_ending text (Option.isSome_of_eq_some isAddress)

theorem includes_iff (character : Char) :
    JsString.includes text character = true ↔ character ∈ text.toList := by
  rw [JsString.includes, contains_iff_mem]

/-- A text with a dotted tail, and the text that the library reads in its place. -/
structure EmbeddedText (library : AddressLibrary) (text : String) (address : Ipv6)
    (front embedded zone high low : String) : Prop where
  colon : ':' ∈ text.toList
  dot : '.' ∈ text.toList
  tail : DottedTail text front embedded zone
  isDotted : ∃ octets : Ipv4, embedded = octets.dotted
  isHigh : high = toHex ((((JsString.split embedded '.').map parseInt).getD 0 0 <<< 8) |||
    ((JsString.split embedded '.').map parseInt).getD 1 0)
  isLow : low = toHex ((((JsString.split embedded '.').map parseInt).getD 2 0 <<< 8) |||
    ((JsString.split embedded '.').map parseInt).getD 3 0)
  parsed : library.parseIpv6 (front ++ high ++ ":" ++ low ++ zone) = some address

theorem parseIpv6WithEmbeddedIpv4_eq_some_iff (documented : library.Documented) :
    parseIpv6WithEmbeddedIpv4 library text = some address ↔
      ∃ front embedded zone high low,
        EmbeddedText library text address front embedded zone high low := by
  rw [parseIpv6WithEmbeddedIpv4]
  by_cases marks : ':' ∈ text.toList ∧ '.' ∈ text.toList
  · rw [if_neg (by simp [includes_iff, marks])]
    constructor
    · intro isParsed
      obtain ⟨⟨front, embedded, zone⟩, isMatch, isParsed⟩ := Option.bind_eq_some_iff.mp isParsed
      simp only at isParsed
      split at isParsed
      · rename_i valid
        exact ⟨front, embedded, zone, _, _, marks.1, marks.2,
          matchDottedTail_eq_some_iff.mp isMatch,
          (documented.isValidFourPartDecimal_iff embedded).mp valid, rfl, rfl, isParsed⟩
      · cases isParsed
    · rintro ⟨front, embedded, zone, high, low, isText⟩
      rw [matchDottedTail_eq_some_iff.mpr isText.tail, Option.bind_some]
      simp only
      rw [if_pos ((documented.isValidFourPartDecimal_iff embedded).mpr isText.isDotted),
        ← isText.isHigh, ← isText.isLow]
      exact isText.parsed
  · rw [if_pos]
    · constructor
      · intro isParsed
        cases isParsed
      · rintro ⟨front, embedded, zone, high, low, isText⟩
        exact absurd ⟨isText.colon, isText.dot⟩ marks
    · rw [Bool.or_eq_true, Bool.not_eq_true', Bool.not_eq_true', ← Bool.not_eq_true,
        ← Bool.not_eq_true, includes_iff, includes_iff]
      exact not_and_or.mp marks

section Embedded

variable {front embedded zone high low : String} (documented : library.Documented)
  (isText : EmbeddedText library text address front embedded zone high low)

include documented isText

theorem EmbeddedText.frontPlain : ∀ character ∈ front.toList, IsAddressCharacter character := by
  intro character member
  refine (addressText_of_parseIpv6 documented isText.parsed).plain character ?_
  simp [member]

theorem EmbeddedText.addressText : AddressText text where
  nonempty := by
    rintro rfl
    simpa using isText.colon
  plain := by
    intro character member
    rw [isText.tail.shape, String.toList_append, String.toList_append, mem_append,
      mem_append] at member
    rcases member with (inFront | inEmbedded) | inZone
    · exact isText.frontPlain documented character inFront
    · obtain ⟨octets, rfl⟩ := isText.isDotted
      rcases dotted_characters octets inEmbedded with digit | rfl
      · have := toNat_of_isDigit digit
        unfold IsAddressCharacter
        omega
      · unfold IsAddressCharacter
        decide
    · refine (addressText_of_parseIpv6 documented isText.parsed).plain character ?_
      simp [inZone]
  ending := by
    rw [isText.tail.shape, String.toList_append, getLast?_append]
    have zoneText := isText.tail.zoneText
    cases shape : zone.toList with
    | nil =>
      obtain ⟨octets, rfl⟩ := isText.isDotted
      obtain ⟨digit, isLast, isDigit⟩ := getLast?_dotted octets
      rw [String.toList_append, getLast?_append, isLast]
      simp only [getLast?_nil, Option.none_or, Option.some_or, ne_eq, Option.some.injEq]
      rintro rfl
      cases isDigit
    | cons mark rest =>
      rw [shape, matchesZone, Bool.and_eq_true, Bool.and_eq_true, decide_eq_true_iff,
        decide_eq_true_iff, all_eq_true] at zoneText
      obtain ⟨⟨-, nonempty⟩, alphanum⟩ := zoneText
      rw [getLast?_cons_of_ne_nil nonempty, getLast?_eq_some_getLast nonempty, Option.some_or]
      intro dot
      have := alphanum _ (getLast_mem nonempty)
      rw [Option.some.inj dot] at this
      cases this

/-- In small letters the text spells an address with the same parts. -/
theorem EmbeddedText.lower : ∃ other, parseIpv6WithEmbeddedIpv4 library (asciiLower text) =
    some other ∧ other.parts = address.parts := by
  have small : asciiLower (front ++ high ++ ":" ++ low ++ zone) =
      asciiLower front ++ high ++ ":" ++ low ++ asciiLower zone := by
    have highSmall : asciiLower high = high := by
      rw [isText.isHigh]
      exact JsString.asciiLower_of_isSmallAscii (isSmallAscii_toHex _)
    have lowSmall : asciiLower low = low := by
      rw [isText.isLow]
      exact JsString.asciiLower_of_isSmallAscii (isSmallAscii_toHex _)
    have colonSmall : asciiLower ":" = ":" := by decide +kernel
    rw [asciiLower_append, asciiLower_append, asciiLower_append, asciiLower_append, highSmall,
      lowSmall, colonSmall]
  have parts := documented.parseIpv6_lowercase (front ++ high ++ ":" ++ low ++ zone)
  rw [isText.parsed, small, Option.map_some] at parts
  obtain ⟨other, parsed, sameParts⟩ := Option.map_eq_some_iff.mp parts
  have kept : ∀ mark : Char, mark.toNat < 65 → mark ∈ text.toList →
      mark ∈ (asciiLower text).toList := by
    intro mark isMark member
    rw [toList_asciiLower, mem_map]
    exact ⟨mark, member, (toLower_eq_iff isMark).mpr rfl⟩
  refine ⟨other, (parseIpv6WithEmbeddedIpv4_eq_some_iff documented).mpr
    ⟨asciiLower front, embedded, asciiLower zone, high, low, ?_⟩, sameParts⟩
  exact
    { colon := kept ':' (by decide) isText.colon
      dot := kept '.' (by decide) isText.dot
      tail := isText.tail.lower (isText.frontPlain documented) isText.isDotted
      isDotted := isText.isDotted
      isHigh := isText.isHigh
      isLow := isText.isLow
      parsed := parsed }

end Embedded

theorem exists_addressText_of_spells (documented : library.Documented)
    (spells : Spells library raw address) :
    ∃ text, normalizeIpParseInput (some raw) = some text ∧ AddressText text ∧
      ':' ∈ text.toList ∧
      (library.parseIpv6 text = some address ∨
        (library.parseIpv6 text = none ∧
          parseIpv6WithEmbeddedIpv4 library text = some address)) := by
  obtain ⟨text, isText, isParsed⟩ := Option.bind_eq_some_iff.mp spells
  refine ⟨text, isText, ?_⟩
  rw [AddressLibrary.parse] at isParsed
  cases six : library.parseIpv6 text with
  | some other =>
    rw [six] at isParsed
    obtain rfl : other = address := by simpa using isParsed
    exact ⟨addressText_of_parseIpv6 documented six,
      documented.parseIpv6_colon text (Option.isSome_of_eq_some six), .inl rfl⟩
  | none =>
    rw [six] at isParsed
    cases four : library.parseIpv4 text with
    | some other =>
      rw [four] at isParsed
      simp at isParsed
    | none =>
      rw [four] at isParsed
      have isEmbedded : parseIpv6WithEmbeddedIpv4 library text = some address := by
        simpa using isParsed
      obtain ⟨front, embedded, zone, high, low, isTail⟩ :=
        (parseIpv6WithEmbeddedIpv4_eq_some_iff documented).mp isEmbedded
      exact ⟨isTail.addressText documented, isTail.colon, .inr ⟨rfl, isEmbedded⟩⟩

/-- A spelling as a host name is its text in small letters. -/
theorem normalizeHostname_of_addressText (lowercase : Lowercase)
    (isText : normalizeIpParseInput (some raw) = some text) (isAddress : AddressText text) :
    normalizeHostname lowercase raw = asciiLower text := by
  obtain ⟨isStripped, -⟩ := Option.filter_eq_some_iff.mp isText
  obtain ⟨trimmed, isTrimmed, rfl⟩ := Option.map_eq_some_iff.mp isStripped
  obtain ⟨same, nonempty⟩ := Option.filter_eq_some_iff.mp isTrimmed
  obtain rfl : JsString.trim raw = trimmed := by simpa using same
  have shape : (JsString.trim raw).toList = (stripIpv6Brackets (JsString.trim raw)).toList ∨
      (JsString.trim raw).toList =
        '[' :: (stripIpv6Brackets (JsString.trim raw)).toList ++ [']'] := by
    rcases stripIpv6Brackets_cases (JsString.trim raw) with ⟨unchanged, -⟩ | bracketed
    · exact .inl (by rw [unchanged])
    · exact .inr bracketed
  have ascii : ∀ character ∈ (JsString.trim raw).toList, character.toNat < 128 := by
    have plain : ∀ character ∈ (stripIpv6Brackets (JsString.trim raw)).toList,
        character.toNat < 128 := by
      intro character member
      have := isAddress.plain character member
      unfold IsAddressCharacter at this
      omega
    intro character member
    rcases shape with unchanged | bracketed
    · exact plain character (unchanged ▸ member)
    · rw [bracketed, cons_append, mem_cons, mem_append, mem_singleton] at member
      rcases member with rfl | inside | rfl
      · decide
      · exact plain character inside
      · decide
  have lowered : normalizeLowercaseStringOrEmpty lowercase raw =
      asciiLower (JsString.trim raw) := by
    rw [normalizeLowercaseStringOrEmpty, isTrimmed, Option.map_some,
      Option.getD_some, lowercase.ofAscii _ ascii]
  have lower := isAddress.lower
  have noDot : ∀ value : String, value.toList.getLast? ≠ some '.' →
      stripTrailingDot value = value := by
    intro value ending
    rw [stripTrailingDot, if_neg]
    exact fun dot => ending ((endsWith_singleton '.').mp dot)
  rw [normalizeHostname, lowered]
  rcases shape with unchanged | bracketed
  · have sameText := congrArg asciiLower (String.toList_inj.mp unchanged)
    rw [sameText, noDot _ lower.ending, lower.strip]
  · have loweredShape : (asciiLower (JsString.trim raw)).toList =
        '[' :: (asciiLower (stripIpv6Brackets (JsString.trim raw))).toList ++ [']'] := by
      rw [toList_asciiLower, bracketed, toList_asciiLower, cons_append, map_cons, map_append]
      rfl
    have ending : (asciiLower (JsString.trim raw)).toList.getLast? ≠ some '.' := by
      rw [loweredShape, getLast?_append]
      simp
    rw [noDot _ ending]
    rcases stripIpv6Brackets_cases (asciiLower (JsString.trim raw)) with ⟨-, unbracketed⟩ | again
    · refine absurd ⟨?_, ?_⟩ unbracketed
      · rw [loweredShape]
        rfl
      · rw [loweredShape, getLast?_append]
        rfl
    · rw [loweredShape, cons_append, cons_append, cons.injEq, append_cancel_right_eq] at again
      exact (String.toList_inj.mp again.2).symm

theorem exists_parseCanonical_of_spells (documented : library.Documented) (lowercase : Lowercase)
    (spells : Spells library raw address) :
    normalizeHostname lowercase raw ≠ "" ∧ ∃ other, parseCanonicalIpAddress library
      (some (normalizeHostname lowercase raw)) = some (.ipv6 other) ∧
        other.parts = address.parts := by
  obtain ⟨text, isText, isAddress, colon, reads⟩ := exists_addressText_of_spells documented spells
  rw [normalizeHostname_of_addressText lowercase isText isAddress]
  refine ⟨isAddress.lower.nonempty, ?_⟩
  rw [parseCanonicalIpAddress, isAddress.lower.normalizeIpParseInput, Option.bind_some]
  have notFour : (library.parseIpv4 (asciiLower text)).isSome = false := by
    by_contra isFour
    rw [Bool.not_eq_false] at isFour
    apply documented.parseIpv4_plain _ isFour
    rw [toList_asciiLower, mem_map]
    exact ⟨':', colon, rfl⟩
  have parts := documented.parseIpv6_lowercase text
  rw [if_neg (by simp [notFour])]
  rcases reads with six | ⟨six, isEmbedded⟩
  · rw [six, Option.map_some] at parts
    obtain ⟨other, isOther, sameParts⟩ := Option.map_eq_some_iff.mp parts
    rw [isOther]
    exact ⟨other, rfl, sameParts⟩
  · rw [six, Option.map_none, Option.map_eq_none_iff] at parts
    obtain ⟨front, embedded, zone, high, low, isTail⟩ :=
      (parseIpv6WithEmbeddedIpv4_eq_some_iff documented).mp isEmbedded
    obtain ⟨other, isOther, sameParts⟩ := isTail.lower documented
    rw [parts, isOther]
    exact ⟨other, rfl, sameParts⟩

end Spellings

section Predicates

variable {library : AddressLibrary} {lowercase : Lowercase} {raw : String} {address : Ipv6}
  {embedded : Ipv4} {policy : Option SsrFPolicy} {form : EmbeddedForm}
  (documented : library.Documented) (spells : Spells library raw address)

include documented

theorem decoded_of_mapped (mapped : EmbeddedForm.mapped.isForm address.parts) :
    decoded address.parts = some (library.toIPv4Address address) := by
  rw [documented.toIPv4Address_mapped address mapped]
  exact decoded_of_form mapped (fun same => by cases same) (fun same => by cases same)

include spells

theorem isPrivateIpAddress_iff : isPrivateIpAddress library lowercase raw policy = true ↔
    isBlockedSpecialUseIpv6Address library address (resolveIpv6SpecialUseBlockOptions policy) =
        true ∨
      ∃ seen ∈ decoded address.parts, isBlockedSpecialUseIpv4Address library seen
        (resolveIpv4SpecialUseBlockOptions policy) = true := by
  obtain ⟨nonempty, other, isOther, sameParts⟩ :=
    exists_parseCanonical_of_spells documented lowercase spells
  have sameRange := documented.rangeIpv6_parts other address sameParts
  have sameBlocked : isBlockedSpecialUseIpv6Address library other
        (resolveIpv6SpecialUseBlockOptions policy) =
      isBlockedSpecialUseIpv6Address library address
        (resolveIpv6SpecialUseBlockOptions policy) := by
    rw [isBlockedSpecialUseIpv6Address, isBlockedSpecialUseIpv6Address, sameRange, sameParts]
  simp only [isPrivateIpAddress]
  rw [if_neg nonempty, isOther]
  simp only
  rw [sameBlocked, extractEmbeddedIpv4FromIpv6_eq documented, sameParts]
  by_cases blocked : isBlockedSpecialUseIpv6Address library address
      (resolveIpv6SpecialUseBlockOptions policy) = true
  · simp [blocked]
  · simp [blocked, Option.any_eq_true]

theorem isLinkLocalIpAddress_iff : isLinkLocalIpAddress library (some raw) = true ↔
    (∃ seen ∈ decoded address.parts, library.rangeIpv4 seen = .linkLocal) ∨
      (¬ EmbeddedForm.mapped.isForm address.parts ∧ library.rangeIpv6 address = .linkLocal) := by
  rw [isLinkLocalIpAddress, spells, Option.any_some, normalizeIpv4MappedAddress]
  by_cases mapped : EmbeddedForm.mapped.isForm address.parts
  · rw [if_pos ((documented.isIPv4MappedAddress_iff address).mpr mapped),
      decoded_of_mapped documented mapped]
    simp [mapped]
  · rw [if_neg fun isMapped => mapped ((documented.isIPv4MappedAddress_iff address).mp isMapped)]
    simp [mapped, extractEmbeddedIpv4FromIpv6_eq documented, Option.any_eq_true]

theorem isCloudMetadataIpAddress_iff : isCloudMetadataIpAddress library (some raw) = true ↔
    (∃ seen ∈ decoded address.parts,
      library.toStringIpv4 seen ∈ CLOUD_METADATA_IP_ADDRESSES) ∨
      (¬ EmbeddedForm.mapped.isForm address.parts ∧
        library.toStringIpv6 address ∈ CLOUD_METADATA_IP_ADDRESSES) := by
  rw [isCloudMetadataIpAddress, spells, Option.any_some, normalizeIpv4MappedAddress]
  by_cases mapped : EmbeddedForm.mapped.isForm address.parts
  · rw [if_pos ((documented.isIPv4MappedAddress_iff address).mpr mapped),
      decoded_of_mapped documented mapped]
    simp [mapped]
  · rw [if_neg fun isMapped => mapped ((documented.isIPv4MappedAddress_iff address).mp isMapped)]
    simp [mapped, extractEmbeddedIpv4FromIpv6_eq documented, Option.any_eq_true]

theorem sees_of_decoded (isDecoded : decoded address.parts = some embedded) :
    Sees library lowercase raw policy embedded where
  blocked isBlocked :=
    (isPrivateIpAddress_iff documented spells).mpr (.inr ⟨embedded, isDecoded, isBlocked⟩)
  linkLocal isLinkLocal :=
    (isLinkLocalIpAddress_iff documented spells).mpr (.inl ⟨embedded, isDecoded, isLinkLocal⟩)
  cloudMetadata isMetadata :=
    (isCloudMetadataIpAddress_iff documented spells).mpr (.inl ⟨embedded, isDecoded, isMetadata⟩)

theorem sees_iff_covers (notMapped : ¬ EmbeddedForm.mapped.isForm address.parts) :
    Sees library lowercase raw policy embedded ↔
      Covers library policy address (decoded address.parts) embedded := by
  constructor
  · intro sees
    refine ⟨fun isBlocked => ?_, fun isLinkLocal => ?_, fun isMetadata => ?_⟩
    · exact (isPrivateIpAddress_iff documented spells).mp (sees.blocked isBlocked)
    · exact ((isLinkLocalIpAddress_iff documented spells).mp (sees.linkLocal isLinkLocal)).symm.imp
        And.right id
    · exact ((isCloudMetadataIpAddress_iff documented spells).mp
        (sees.cloudMetadata isMetadata)).symm.imp And.right id
  · intro covers
    refine ⟨fun isBlocked => ?_, fun isLinkLocal => ?_, fun isMetadata => ?_⟩
    · exact (isPrivateIpAddress_iff documented spells).mpr (covers.blocked isBlocked)
    · exact (isLinkLocalIpAddress_iff documented spells).mpr
        ((covers.linkLocal isLinkLocal).symm.imp id fun own => ⟨notMapped, own⟩)
    · exact (isCloudMetadataIpAddress_iff documented spells).mpr
        ((covers.cloudMetadata isMetadata).symm.imp id fun own => ⟨notMapped, own⟩)

omit documented spells in
theorem not_mapped_of_isatap (isForm : EmbeddedForm.isatap.isForm address.parts) :
    ¬ EmbeddedForm.mapped.isForm address.parts := by
  rintro ⟨-, -, -, -, -, five⟩
  rw [isForm.2] at five
  exact absurd five (by decide)

omit documented spells in
theorem not_mapped_of_localUse (isForm : EmbeddedForm.nat64LocalUse.isForm address.parts) :
    ¬ EmbeddedForm.mapped.isForm address.parts := by
  rintro ⟨zero, -⟩
  rw [isForm.1] at zero
  exact absurd zero (by decide)

/-- An address that another one holds is seen exactly when no other form hides it. -/
theorem sees_iff (isForm : form.isForm address.parts)
    (isHeld : form.held address.parts = embedded) :
    Sees library lowercase raw policy embedded ↔
      SeenWhen library policy address embedded form := by
  subst isHeld
  have seen : ∀ other, decoded address.parts = some (form.held address.parts) →
      SeenWhen library policy address (form.held address.parts) other →
      (Sees library lowercase raw policy (form.held address.parts) ↔
        SeenWhen library policy address (form.held address.parts) other) :=
    fun _ isDecoded holds => iff_of_true (sees_of_decoded documented spells isDecoded) holds
  cases form with
  | mapped => exact seen .mapped (decoded_of_form isForm nofun nofun) trivial
  | compatible => exact seen .compatible (decoded_of_form isForm nofun nofun) trivial
  | translated => exact seen .translated (decoded_of_form isForm nofun nofun) trivial
  | nat64WellKnown => exact seen .nat64WellKnown (decoded_of_form isForm nofun nofun) trivial
  | sixToFour => exact seen .sixToFour (decoded_of_form isForm nofun nofun) trivial
  | teredo => exact seen .teredo (decoded_of_form isForm nofun nofun) trivial
  | nat64LocalUse =>
    by_cases subnet : address.parts[3] = 0 ∧ address.parts[4] = 0 ∧ address.parts[5] = 0
    · exact seen .nat64LocalUse (decoded_of_form isForm nofun fun _ => subnet) (.inl subnet)
    · by_cases identifier : EmbeddedForm.isatap.isForm address.parts
      · have outside : ¬ EmbeddedForm.sixToFour.isForm address.parts ∧
            ¬ EmbeddedForm.teredo.isForm address.parts := by
          constructor
          · intro zero
            rw [EmbeddedForm.isForm, isForm.1] at zero
            exact absurd zero (by decide)
          · rintro ⟨zero, -⟩
            rw [isForm.1] at zero
            exact absurd zero (by decide)
        have isDecoded : decoded address.parts =
            some (EmbeddedForm.isatap.held address.parts) :=
          decoded_of_form identifier (fun _ => outside) nofun
        exact seen .nat64LocalUse isDecoded (.inr (.inl identifier))
      · rw [sees_iff_covers documented spells (not_mapped_of_localUse isForm),
          decoded_of_subnet isForm subnet identifier, SeenWhen, or_iff_right subnet,
          or_iff_right identifier]
  | isatap =>
    have notMapped := not_mapped_of_isatap isForm
    by_cases sixToFour : EmbeddedForm.sixToFour.isForm address.parts
    · have notTeredo : ¬ EmbeddedForm.teredo.isForm address.parts := by
        rintro ⟨zero, -⟩
        rw [EmbeddedForm.isForm, zero] at sixToFour
        exact absurd sixToFour (by decide)
      rw [sees_iff_covers documented spells notMapped, decoded_of_prefix (.inl rfl) sixToFour]
      simp [SeenWhen, sixToFour, notTeredo]
    · by_cases teredo : EmbeddedForm.teredo.isForm address.parts
      · rw [sees_iff_covers documented spells notMapped, decoded_of_prefix (.inr rfl) teredo]
        simp [SeenWhen, sixToFour, teredo]
      · exact seen .isatap (decoded_of_form isForm (fun _ => ⟨sixToFour, teredo⟩) nofun)
          ⟨fun isSixToFour => absurd isSixToFour sixToFour,
            fun isTeredo => absurd isTeredo teredo⟩

end Predicates

section IdentifierUnderPrefix

open JsString (asciiLower)

/-- The octet that a piece writes. -/
def octet? (piece : String) : Option (BitVec 8) :=
  (piece.toNat?).bind fun number =>
    if number < 256 ∧ Nat.repr number = piece then some (BitVec.ofNat 8 number) else none

def parseDotted (text : String) : Option Ipv4 :=
  match (JsString.split text '.').map octet? with
  | [some first, some second, some third, some fourth] => some ⟨first, second, third, fourth⟩
  | _ => none

/-- The loopback address as an interface identifier under the 6to4 prefix of 8.8.8.8. -/
def underSixToFour : Ipv6 where
  parts := #v[0x2002, 0x0808, 0x0808, 0, 0, 0x5efe, 0x7f00, 0x0001]
  zoneId := none

def sampleText : String := "2002:808:808::5efe:7f00:1"

def parseSample (text : String) : Option Ipv6 :=
  if asciiLower text = sampleText then some underSixToFour else none

def rangeSample (address : Ipv6) : Ipv6Range :=
  if EmbeddedForm.translated.isForm address.parts then .rfc6145
  else if EmbeddedForm.nat64WellKnown.isForm address.parts then .rfc6052
  else if EmbeddedForm.sixToFour.isForm address.parts then .other "6to4"
  else .other "unicast"

/-- A library that reads one IPv6 address. -/
def sampleLibrary : AddressLibrary where
  parseIpv4 := parseDotted
  isValidFourPartDecimal text := (parseDotted text).isSome
  parseIpv6 := parseSample
  rangeIpv4 address :=
    if address.first = 127 then .loopback
    else if address.first = 169 ∧ address.second = 254 then .linkLocal
    else .other "unicast"
  rangeIpv6 := rangeSample
  matchIpv4 address range :=
    decide (address.first = range.1.first ∧
      address.second.toNat / 2 = range.1.second.toNat / 2 ∧ range.2 = 15)
  isIPv4MappedAddress address := decide (EmbeddedForm.mapped.isForm address.parts)
  toIPv4Address address := EmbeddedForm.mapped.held address.parts
  toStringIpv4 := Ipv4.dotted
  toStringIpv6 _ := sampleText

theorem octet?_repr (octet : BitVec 8) : octet? (Nat.repr octet.toNat) = some octet := by
  rw [octet?, Nat.toNat?_repr, Option.bind_some, if_pos ⟨octet.isLt, rfl⟩, BitVec.ofNat_toNat,
    BitVec.setWidth_eq]

theorem repr_of_octet? {piece : String} {octet : BitVec 8} (reads : octet? piece = some octet) :
    Nat.repr octet.toNat = piece := by
  obtain ⟨number, -, isOctet⟩ := Option.bind_eq_some_iff.mp reads
  split at isOctet
  · rename_i inRange
    rw [← Option.some.inj isOctet, BitVec.toNat_ofNat, Nat.mod_eq_of_lt inRange.1, inRange.2]
  · cases isOctet

theorem split_dotted (address : Ipv4) : JsString.split address.dotted '.' =
    [address.first, address.second, address.third, address.fourth].map fun octet =>
      Nat.repr octet.toNat := by
  have plain : ∀ piece ∈ [address.first, address.second, address.third, address.fourth].map
      (fun octet => (Nat.repr octet.toNat).toList), '.' ∉ piece := by
    intro piece member
    obtain ⟨octet, -, rfl⟩ := mem_map.mp member
    intro dot
    cases isDigit_of_mem_repr dot
  have joined : address.dotted.toList = ['.'].intercalate
      ([address.first, address.second, address.third, address.fourth].map
        fun octet => (Nat.repr octet.toNat).toList) := by
    rw [Ipv4.dotted, String.toList_intercalate, map_map]
    rfl
  rw [JsString.split, joined, splitOn_intercalate '.' plain (by simp), map_map]
  simp only [Function.comp_def, String.ofList_toList]

theorem parseDotted_dotted (address : Ipv4) : parseDotted address.dotted = some address := by
  rw [parseDotted, split_dotted]
  simp only [map_cons, map_nil, octet?_repr]

theorem dotted_of_parseDotted {text : String} {address : Ipv4}
    (reads : parseDotted text = some address) : text = address.dotted := by
  rw [parseDotted] at reads
  split at reads
  · rename_i first second third fourth shape
    obtain rfl := Option.some.inj reads
    have joined := JsString.intercalate_split text '.'
    cases pieces : JsString.split text '.' with
    | nil => simp [pieces] at shape
    | cons piece rest =>
      rw [pieces] at shape joined
      simp only [map_cons, cons.injEq, map_eq_cons_iff, map_eq_nil_iff] at shape
      obtain ⟨isFirst, two, later, rfl, isSecond, three, others, rfl, isThird, four, none, rfl,
        isFourth, rfl⟩ := shape
      rw [← joined, Ipv4.dotted]
      simp only [map_cons, map_nil, repr_of_octet? isFirst, repr_of_octet? isSecond,
        repr_of_octet? isThird, repr_of_octet? isFourth]
  · cases reads

theorem isAlphanum_of_toLower {character : Char}
    (alphanum : character.toLower.isAlphanum = true) : character.isAlphanum = true := by
  rw [isAlphanum_iff] at alphanum ⊢
  rw [JsString.toNat_toLower] at alphanum
  split at alphanum <;> omega

theorem asciiLower_of_parseSample {text : String} (isSome : (parseSample text).isSome = true) :
    asciiLower text = sampleText := by
  unfold parseSample at isSome
  split at isSome
  · assumption
  · cases isSome

theorem parseSample_characters {text : String} (isSome : (parseSample text).isSome = true)
    {character : Char} (member : character ∈ text.toList) :
    character.isAlphanum = true ∨ character = ':' := by
  have lowered : character.toLower ∈ (asciiLower text).toList := by
    rw [toList_asciiLower]
    exact mem_map_of_mem member
  rw [asciiLower_of_parseSample isSome] at lowered
  have plain : ∀ character ∈ sampleText.toList,
      character.isAlphanum = true ∨ character = ':' := by
    have each : (sampleText.toList.all fun character =>
        character.isAlphanum || character == ':') = true := by decide +kernel
    simpa using each
  rcases plain _ lowered with alphanum | colon
  · exact .inl (isAlphanum_of_toLower alphanum)
  · exact .inr ((toLower_eq_iff (by decide)).mp colon)

theorem parseSample_ending {text : String} (isSome : (parseSample text).isSome = true) :
    text.toList.getLast? ≠ some '.' := by
  intro dot
  have ending := getLast?_asciiLower text
  rw [asciiLower_of_parseSample isSome, dot] at ending
  have one : sampleText.toList.getLast? = some '1' := by decide +kernel
  rw [one] at ending
  exact absurd ending (by decide)

theorem parseSample_colon {text : String} (isSome : (parseSample text).isSome = true) :
    ':' ∈ text.toList := by
  refine JsString.mem_of_mem_asciiLower (by decide) ?_
  rw [asciiLower_of_parseSample isSome]
  decide +kernel

theorem rangeSample_eq_rfc6145_iff (address : Ipv6) :
    rangeSample address = .rfc6145 ↔ EmbeddedForm.translated.isForm address.parts := by
  unfold rangeSample
  by_cases translated : EmbeddedForm.translated.isForm address.parts
  · rw [if_pos translated]
    exact iff_of_true rfl translated
  · rw [if_neg translated]
    refine iff_of_false ?_ translated
    split
    · exact nofun
    · split <;> exact nofun

theorem rangeSample_eq_rfc6052_iff (address : Ipv6) :
    rangeSample address = .rfc6052 ↔ EmbeddedForm.nat64WellKnown.isForm address.parts := by
  unfold rangeSample
  by_cases translated : EmbeddedForm.translated.isForm address.parts
  · rw [if_pos translated]
    refine iff_of_false nofun ?_
    rintro ⟨zero, -⟩
    rw [translated.1] at zero
    exact absurd zero (by decide)
  · rw [if_neg translated]
    by_cases wellKnown : EmbeddedForm.nat64WellKnown.isForm address.parts
    · rw [if_pos wellKnown]
      exact iff_of_true rfl wellKnown
    · rw [if_neg wellKnown]
      refine iff_of_false ?_ wellKnown
      split <;> exact nofun

theorem parseSample_asciiLower (text : String) :
    parseSample (asciiLower text) = parseSample text := by
  simp only [parseSample, JsString.asciiLower_asciiLower]

theorem sampleLibrary_documented : sampleLibrary.Documented where
  parseIpv4_dotted address := by simp only [sampleLibrary, parseDotted_dotted]
  isValidFourPartDecimal_iff text := by
    change (parseDotted text).isSome = true ↔ _
    rw [Option.isSome_iff_exists]
    refine exists_congr fun address => ⟨dotted_of_parseDotted, ?_⟩
    rintro rfl
    exact parseDotted_dotted address
  parseIpv4_plain text isSome := by
    obtain ⟨address, reads⟩ := Option.isSome_iff_exists.mp isSome
    rw [dotted_of_parseDotted reads]
    intro colon
    rcases dotted_characters address colon with digit | dot
    · cases digit
    · cases dot
  parseIpv6_colon _ isSome := parseSample_colon isSome
  parseIpv6_characters _ isSome _ member := (parseSample_characters isSome member).imp_right .inl
  parseIpv6_ending _ isSome := parseSample_ending isSome
  parseIpv6_lowercase text := by simp only [sampleLibrary, parseSample_asciiLower]
  rangeIpv6_parts address other sameParts := by
    change rangeSample address = rangeSample other
    simp only [rangeSample, sameParts]
  isIPv4MappedAddress_iff _ := by simp only [sampleLibrary, decide_eq_true_iff]
  toIPv4Address_mapped _ _ := rfl
  rfc6145_iff := rangeSample_eq_rfc6145_iff
  rfc6052_iff := rangeSample_eq_rfc6052_iff

def asciiLowercase : Lowercase where
  toLowerCase := asciiLower
  ofAscii _ _ := rfl

theorem spells_underSixToFour : Spells sampleLibrary sampleText underSixToFour := by
  unfold Spells
  decide +kernel

theorem sees_iff_underSixToFour : Sees sampleLibrary asciiLowercase sampleText none ⟨127, 0, 0, 1⟩ ↔
    SeenWhen sampleLibrary none underSixToFour ⟨127, 0, 0, 1⟩ .isatap :=
  sees_iff sampleLibrary_documented spells_underSixToFour (by decide) (by decide)

/-- The loopback address under the prefix is blocked, but the address that holds it is not. -/
theorem not_sees_underSixToFour :
    Spells sampleLibrary sampleText underSixToFour ∧
      EmbeddedForm.isatap.isForm underSixToFour.parts ∧
      EmbeddedForm.isatap.held underSixToFour.parts = ⟨127, 0, 0, 1⟩ ∧
      ¬ Sees sampleLibrary asciiLowercase sampleText none ⟨127, 0, 0, 1⟩ := by
  refine ⟨spells_underSixToFour, by decide, by decide, fun sees => ?_⟩
  have isBlocked : isBlockedSpecialUseIpv4Address sampleLibrary ⟨127, 0, 0, 1⟩
      (resolveIpv4SpecialUseBlockOptions none) = true := by
    decide
  have isPrivate := (isPrivateIpAddress_iff sampleLibrary_documented spells_underSixToFour).mp
    (sees.blocked isBlocked)
  have isDecoded : decoded underSixToFour.parts = some ⟨8, 8, 8, 8⟩ := by decide
  rw [isDecoded] at isPrivate
  rcases isPrivate with ownRange | ⟨seen, isSeen, seenBlocked⟩
  · exact absurd ownRange (by decide)
  · obtain rfl := Option.some.inj isSeen
    exact absurd seenBlocked (by decide)

end IdentifierUnderPrefix

end NetAddresses
