import AieClaw.JsString

/-!
# Session keys

The key and string helpers of `src/utils/session-utils.ts` and
`src/utils/string-utils.ts`. Lowercasing follows the Unicode tables of the host
and is a parameter of every function that uses it.
-/

namespace SessionKeys

open JsString

/-- The last segment of a session key. -/
def extractUuidFromKey (sessionKey : String) : String := lastPiece sessionKey ':'

def uuidOfIdentifier (identifier : String) : String :=
  if includes identifier ':' then extractUuidFromKey identifier
  else identifier

def normalizeOptionalString (value : String) : Option String :=
  let trimmed := trim value
  if trimmed = "" then none else some trimmed

theorem normalizeOptionalString_eq_some_iff {value key : String} :
    normalizeOptionalString value = some key ↔ trim value = key ∧ key ≠ "" := by
  unfold normalizeOptionalString
  extract_lets trimmed
  split_ifs with blank
  · simp only [false_iff, not_and]
    rintro rfl
    simpa using blank
  · rw [Option.some.injEq]
    constructor
    · rintro rfl
      exact ⟨rfl, blank⟩
    · exact And.left

theorem normalizeOptionalString_of_eq_some {value key : String}
    (normalized : normalizeOptionalString value = some key) :
    normalizeOptionalString key = some key := by
  rw [normalizeOptionalString_eq_some_iff] at normalized ⊢
  obtain ⟨rfl, nonempty⟩ := normalized
  exact ⟨trim_trim value, nonempty⟩

/-- The agent id used when none is given. -/
def defaultAgentId : String := "main"

/-- A character of `[a-z0-9_-]`. -/
def isIdCharacter (character : Char) : Bool :=
  ('a' ≤ character && character ≤ 'z') ||
    ('0' ≤ character && character ≤ '9') ||
    character == '_' || character == '-'

/-- A character of `[a-z0-9]`, in either case. -/
def isIdStart (character : Char) : Bool :=
  ('a' ≤ character && character ≤ 'z') ||
    ('A' ≤ character && character ≤ 'Z') ||
    ('0' ≤ character && character ≤ '9')

/-- The test `VALID_ID_RE`. -/
def isValidId (text : String) : Bool :=
  match text.toList with
  | [] => false
  | first :: rest =>
    isIdStart first && rest.length ≤ 63 &&
      rest.all fun character => isIdStart character || character == '_' || character == '-'

/-- Replace each run of characters outside `[a-z0-9_-]` by one dash. -/
def collapseInvalid : List Char → List Char
  | [] => []
  | character :: rest =>
    if isIdCharacter character then character :: collapseInvalid rest
    else
      match collapseInvalid rest, rest with
      | collapsed, next :: _ => if isIdCharacter next then '-' :: collapsed else collapsed
      | collapsed, [] => '-' :: collapsed

section

variable (toLowerCase : String → String)

def normalizeLowercaseStringOrEmpty (value : String) : String :=
  ((normalizeOptionalString value).map toLowerCase).getD ""

def normalizeAgentId (value : String) : String :=
  let trimmed := trim value
  if trimmed = "" then defaultAgentId
  else
    let normalized := normalizeLowercaseStringOrEmpty toLowerCase trimmed
    if isValidId trimmed then normalized
    else
      let collapsed := collapseInvalid normalized.toList
      let leading := collapsed.dropWhile (· == '-')
      let trailing := (leading.reverse.dropWhile (· == '-')).reverse
      orElse (String.ofList (trailing.take 64)) defaultAgentId

/-- The session key of an agent in the group of a session uuid. -/
def constructKeyFromUuid (agentId sessionUuid : String) : String :=
  "agent:" ++ normalizeAgentId toLowerCase agentId ++ ":group:" ++
    normalizeLowercaseStringOrEmpty toLowerCase sessionUuid

end

@[simp] theorem uuidOfIdentifier_extractUuidFromKey (sessionKey : String) :
    uuidOfIdentifier (extractUuidFromKey sessionKey) = extractUuidFromKey sessionKey := by
  have absent := not_mem_lastPiece sessionKey ':'
  unfold uuidOfIdentifier includes extractUuidFromKey
  simp [absent]

theorem uuidOfIdentifier_eq (identifier : String) :
    uuidOfIdentifier identifier = extractUuidFromKey identifier := by
  unfold uuidOfIdentifier includes
  split
  · rfl
  next noColon =>
    have absent : ':' ∉ identifier.toList := by
      simpa using noColon
    exact (lastPiece_of_not_mem absent).symm

end SessionKeys
