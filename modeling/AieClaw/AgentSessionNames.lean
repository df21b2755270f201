import AieClaw.AgentSessionKeys

/-!
# The parts of a session key

Agent ids, account ids and channel names have no colon once they are normalized,
so a key can be read from its start: the agent, the channel, and a rest that
depends on the kind of chat and on the scope of direct messages.
-/

namespace SessionRouting

open SessionKeys JsString List

/--
Lowercasing makes no colon and no empty text, keeps white space and what is small
already.
-/
structure Lowercasing (toLowerCase : String → String) : Prop where
  colon : ∀ text, ':' ∈ (toLowerCase text).toList → ':' ∈ text.toList
  nonempty : ∀ text, text ≠ "" → toLowerCase text ≠ ""
  trim : ∀ text, JsString.trim (toLowerCase text) = toLowerCase (JsString.trim text)
  idempotent : ∀ text, toLowerCase (toLowerCase text) = toLowerCase text
  unknown : toLowerCase "unknown" = "unknown"

/-- An inbound conversation: who talks to which agent, on which channel and account. -/
structure Conversation where
  agentId : String
  channel : String
  accountId : Option String
  peer : RoutePeer

/-- The part of the configuration that scopes direct messages. -/
structure SessionConfig where
  dmScope : DmScope
  identityLinks : Option IdentityLinks

section Names

variable (toLowerCase : String → String) (cfg : SessionConfig)

section

variable (conversation : Conversation)

def Conversation.sessionKey : String :=
  buildAgentSessionKey toLowerCase conversation.agentId conversation.channel
    conversation.accountId (some conversation.peer) cfg.dmScope cfg.identityLinks

def Conversation.channelName : String :=
  orElse (normalizeLowercaseStringOrEmpty toLowerCase conversation.channel) "unknown"

/-- The peer's id after the case folding of its channel. -/
def Conversation.foldedId : String :=
  normalizeSessionPeerId toLowerCase (conversation.channelName toLowerCase)
    conversation.peer.kind conversation.peer.id

/-- The id that stands for the peer: its own, or `unknown` for a blank one. -/
def Conversation.givenId : String :=
  orElse (JsString.trim conversation.peer.id) "unknown"

/-- The canonical name that a direct peer is renamed to. -/
def Conversation.linkedName : Option String :=
  resolveLinkedPeerId toLowerCase cfg.identityLinks (conversation.channelName toLowerCase)
    conversation.givenId

/-- The identity links list the peer under a canonical name. -/
def Conversation.ListedUnder (name : String) : Prop :=
  ∃ entry ∈ cfg.identityLinks.getD [],
    SessionRouting.linkedName toLowerCase
      (linkCandidates toLowerCase (conversation.channelName toLowerCase)
        conversation.givenId) entry = some name

/-- The last part of a direct session key. -/
def Conversation.directName : String :=
  normalizeLowercaseStringOrEmpty toLowerCase
    ((conversation.linkedName toLowerCase cfg).getD conversation.givenId)

/-- The last part of a group or channel session key. -/
def Conversation.sharedName : String :=
  orElse
    (normalizeSessionPeerId toLowerCase (conversation.channelName toLowerCase)
      conversation.peer.kind conversation.givenId)
    "unknown"

end

def SamePlace (first second : Conversation) : Prop :=
  normalizeAgentId toLowerCase first.agentId = normalizeAgentId toLowerCase second.agentId ∧
    first.channelName toLowerCase = second.channelName toLowerCase ∧
      first.peer.kind = second.peer.kind ∧
        (cfg.dmScope = .perAccountChannelPeer → first.peer.kind = .direct →
          normalizeAccountId toLowerCase first.accountId =
            normalizeAccountId toLowerCase second.accountId)

def SamePeer (first second : Conversation) : Prop :=
  first.foldedId toLowerCase = second.foldedId toLowerCase ∨
    ∃ name, first.ListedUnder toLowerCase cfg name ∧ second.ListedUnder toLowerCase cfg name

/--
The account of a direct conversation is named like the kind of the other one,
whose id continues like a direct key.
-/
def LayoutClash (first second : Conversation) : Prop :=
  cfg.dmScope = .perAccountChannelPeer ∧ first.peer.kind = .direct ∧
    second.peer.kind ≠ .direct ∧
    normalizeAgentId toLowerCase first.agentId = normalizeAgentId toLowerCase second.agentId ∧
    first.channelName toLowerCase = second.channelName toLowerCase ∧
    normalizeAccountId toLowerCase first.accountId = second.peer.kind.name ∧
    second.sharedName toLowerCase = "direct:" ++ first.directName toLowerCase cfg

/-- A peer is renamed to what another one is called who is not listed with it. -/
def LinkClash (first second : Conversation) : Prop :=
  first.peer.kind = .direct ∧ (first.linkedName toLowerCase cfg).isSome ∧
    first.directName toLowerCase cfg = second.directName toLowerCase cfg ∧
    ¬SamePeer toLowerCase cfg first second

/-- A blank id is taken for `unknown`, which is the id of the other one. -/
def BlankClash (first second : Conversation) : Prop :=
  (first.peer.kind = .direct →
      first.linkedName toLowerCase cfg = none ∧ second.linkedName toLowerCase cfg = none) ∧
    JsString.trim first.peer.id = "" ∧ second.foldedId toLowerCase = "unknown" ∧
    ¬SamePeer toLowerCase cfg first second

def Confusable (first second : Conversation) : Prop :=
  LayoutClash toLowerCase cfg first second ∨ LayoutClash toLowerCase cfg second first ∨
    SamePlace toLowerCase cfg first second ∧
      (LinkClash toLowerCase cfg first second ∨ LinkClash toLowerCase cfg second first ∨
        BlankClash toLowerCase cfg first second ∨ BlankClash toLowerCase cfg second first)

end Names

section Parts

variable {toLowerCase : String → String}

theorem mem_of_mem_trim {text : String} {character : Char}
    (member : character ∈ (JsString.trim text).toList) : character ∈ text.toList := by
  rw [JsString.trim, String.toList_ofList, mem_reverse] at member
  have once := (dropWhile_sublist _).subset member
  exact (dropWhile_sublist _).subset (mem_reverse.mp once)

/-- A character that normalized ids do not have. -/
def IsSeparator (character : Char) : Prop :=
  isIdCharacter character = false ∧ isIdStart character = false

section Separators

variable {separator : Char}
  (keeps : ∀ text, separator ∈ (toLowerCase text).toList → separator ∈ text.toList)
  (isSeparator : IsSeparator separator)

include keeps in
theorem not_mem_normalizeLowercase {text : String} (plain : separator ∉ text.toList) :
    separator ∉ (normalizeLowercaseStringOrEmpty toLowerCase text).toList := by
  intro member
  unfold normalizeLowercaseStringOrEmpty normalizeOptionalString at member
  dsimp only at member
  split at member
  · exact absurd member (by simp)
  · exact plain (mem_of_mem_trim (keeps _ member))

include isSeparator

theorem not_mem_collapseInvalid (characters : List Char) :
    separator ∉ collapseInvalid characters := by
  have notDash : separator ≠ '-' := by
    rintro rfl
    exact absurd isSeparator.1 (by decide)
  have differs : ∀ {character}, isIdCharacter character = true → separator ≠ character := by
    rintro character isId rfl
    rw [isSeparator.1] at isId
    exact Bool.false_ne_true isId
  induction characters with
  | nil => simp [collapseInvalid]
  | cons character rest inductionHypothesis =>
    cases rest with
    | nil =>
      rw [collapseInvalid.eq_def]
      dsimp only
      split
      · rename_i isId
        exact not_mem_cons_of_ne_of_not_mem (differs isId) inductionHypothesis
      · simpa [collapseInvalid] using notDash
    | cons next others =>
      rw [collapseInvalid.eq_def]
      dsimp only
      split
      · rename_i isId
        exact not_mem_cons_of_ne_of_not_mem (differs isId) inductionHypothesis
      · split
        · exact not_mem_cons_of_ne_of_not_mem notDash inductionHypothesis
        · exact inductionHypothesis

theorem not_mem_sanitized (text : String) : separator ∉ (String.ofList
      (((((collapseInvalid text.toList).dropWhile (· == '-')).reverse.dropWhile
        (· == '-')).reverse).take 64)).toList := by
  rw [String.toList_ofList]
  intro member
  have inTrimmed := mem_reverse.mp (mem_of_mem_take member)
  have inLeading := mem_reverse.mp ((dropWhile_sublist _).subset inTrimmed)
  exact not_mem_collapseInvalid isSeparator _ ((dropWhile_sublist _).subset inLeading)

theorem not_mem_of_isValidId {text : String} (valid : isValidId text = true) :
    separator ∉ text.toList := by
  unfold isValidId at valid
  intro member
  cases isText : text.toList with
  | nil => rw [isText] at member; exact not_mem_nil member
  | cons first rest =>
    rw [isText] at valid member
    simp only [Bool.and_eq_true, all_eq_true] at valid
    rcases mem_cons.mp member with rfl | later
    · exact absurd valid.1.1 (by simp [isSeparator.2])
    · have isInner := valid.2 separator later
      simp only [isSeparator.2, Bool.false_or, Bool.or_eq_true, beq_iff_eq] at isInner
      rcases isInner with rfl | rfl
      · exact absurd isSeparator.1 (by decide)
      · exact absurd isSeparator.1 (by decide)

theorem not_mem_of_isIdCharacter {text : String} (idText : text.toList.all isIdCharacter = true) :
    separator ∉ text.toList := by
  intro member
  have isId := all_eq_true.mp idText separator member
  rw [isSeparator.1] at isId
  exact Bool.false_ne_true isId

include keeps

theorem not_mem_normalizeAgentId (agentId : String) :
    separator ∉ (normalizeAgentId toLowerCase agentId).toList := by
  have notDefault : separator ∉ defaultAgentId.toList :=
    not_mem_of_isIdCharacter isSeparator (by decide)
  unfold normalizeAgentId
  dsimp only
  split
  · exact notDefault
  · split
    · rename_i valid
      exact not_mem_normalizeLowercase keeps (not_mem_of_isValidId isSeparator valid)
    · rw [orElse]
      split
      · exact notDefault
      · exact not_mem_sanitized isSeparator _

theorem not_mem_canonicalizeAccountId (value : String) :
    separator ∉ (canonicalizeAccountId toLowerCase value).toList := by
  unfold canonicalizeAccountId
  dsimp only
  split
  · rename_i valid
    exact not_mem_normalizeLowercase keeps (not_mem_of_isValidId isSeparator valid)
  · exact not_mem_sanitized isSeparator _

theorem not_mem_normalizeAccountId (accountId : Option String) :
    separator ∉ (normalizeAccountId toLowerCase accountId).toList := by
  have notDefault : separator ∉ defaultAccountId.toList :=
    not_mem_of_isIdCharacter isSeparator (by decide)
  unfold normalizeAccountId normalizeCanonicalAccountId
  dsimp only
  split
  · exact notDefault
  · split
    · exact notDefault
    · exact not_mem_canonicalizeAccountId keeps isSeparator _

end Separators

theorem isSeparator_colon : IsSeparator ':' := ⟨by decide, by decide⟩

section

variable (lowercasing : Lowercasing toLowerCase)
include lowercasing

theorem Lowercasing.not_colon_of_normalizeLowercase {text : String} (plain : ':' ∉ text.toList) :
    ':' ∉ (normalizeLowercaseStringOrEmpty toLowerCase text).toList :=
  not_mem_normalizeLowercase lowercasing.colon plain

theorem Lowercasing.not_colon_of_normalizeAgentId
    (agentId : String) : ':' ∉ (normalizeAgentId toLowerCase agentId).toList :=
  not_mem_normalizeAgentId lowercasing.colon isSeparator_colon agentId

theorem Lowercasing.not_colon_of_normalizeAccountId
    (accountId : Option String) : ':' ∉ (normalizeAccountId toLowerCase accountId).toList :=
  not_mem_normalizeAccountId lowercasing.colon isSeparator_colon accountId

theorem Lowercasing.not_colon_of_channelName
    {conversation : Conversation} (plain : ':' ∉ conversation.channel.toList) :
    ':' ∉ (conversation.channelName toLowerCase).toList := by
  rw [Conversation.channelName, orElse]
  split
  · exact by decide
  · exact lowercasing.not_colon_of_normalizeLowercase plain

theorem Lowercasing.normalizeLowercase_normalizeLowercase (text : String) :
    normalizeLowercaseStringOrEmpty toLowerCase (normalizeLowercaseStringOrEmpty toLowerCase text) =
      normalizeLowercaseStringOrEmpty toLowerCase text := by
  unfold normalizeLowercaseStringOrEmpty normalizeOptionalString
  dsimp only
  by_cases blank : JsString.trim text = ""
  · rw [if_pos blank]
    rfl
  · rw [if_neg blank, Option.map_some, Option.getD_some, lowercasing.trim,
      trim_trim, if_neg (lowercasing.nonempty _ blank), Option.map_some,
      Option.getD_some, lowercasing.idempotent]

theorem Lowercasing.normalizeLowercase_unknown :
    normalizeLowercaseStringOrEmpty toLowerCase "unknown" = "unknown" :=
  lowercasing.unknown

theorem Lowercasing.channelName_stable (conversation : Conversation) : orElse
        (normalizeLowercaseStringOrEmpty toLowerCase (conversation.channelName toLowerCase))
        "unknown" =
      conversation.channelName toLowerCase := by
  by_cases blank : normalizeLowercaseStringOrEmpty toLowerCase conversation.channel = ""
  · have isUnknown : conversation.channelName toLowerCase = "unknown" := if_pos blank
    rw [isUnknown, lowercasing.normalizeLowercase_unknown]
    rfl
  · have isChannel : conversation.channelName toLowerCase =
        normalizeLowercaseStringOrEmpty toLowerCase conversation.channel := if_neg blank
    rw [isChannel, lowercasing.normalizeLowercase_normalizeLowercase]
    exact if_neg blank

theorem Lowercasing.normalizeLowercase_ne_empty
    {text : String} (notBlank : JsString.trim text ≠ "") :
    normalizeLowercaseStringOrEmpty toLowerCase text ≠ "" := by
  unfold normalizeLowercaseStringOrEmpty normalizeOptionalString
  dsimp only
  rw [if_neg notBlank]
  exact lowercasing.nonempty _ notBlank

end

end Parts

section Layout

variable {toLowerCase : String → String} {cfg : SessionConfig}

/-- What follows the agent and the channel in a key. -/
def Conversation.keyRest (toLowerCase : String → String) (cfg : SessionConfig)
    (conversation : Conversation) : String :=
  if conversation.peer.kind = .direct then
    if cfg.dmScope = .perAccountChannelPeer then
      normalizeAccountId toLowerCase conversation.accountId ++ ":" ++
        ("direct:" ++ conversation.directName toLowerCase cfg)
    else "direct:" ++ conversation.directName toLowerCase cfg
  else conversation.peer.kind.name ++ ":" ++ conversation.sharedName toLowerCase

theorem givenId_trim (conversation : Conversation) :
    JsString.trim conversation.givenId = conversation.givenId := by
  rw [Conversation.givenId, orElse]
  split
  · rfl
  · exact trim_trim _

theorem givenId_ne_empty (conversation : Conversation) : conversation.givenId ≠ "" := by
  rw [Conversation.givenId, orElse]
  split
  · exact by decide
  · rename_i notBlank
    exact notBlank

theorem trim_ne_empty_of_linkedName {conversation : Conversation} {name : String}
    (linked : conversation.linkedName toLowerCase cfg = some name) : JsString.trim name ≠ "" := by
  unfold Conversation.linkedName resolveLinkedPeerId at linked
  dsimp only at linked
  split at linked
  · exact absurd linked (by simp)
  · obtain ⟨entry, -, isName⟩ := exists_of_findSome?_eq_some linked
    unfold linkedName at isName
    dsimp only at isName
    split at isName
    · exact absurd isName (by simp)
    · rename_i notBlank
      split at isName
      · rw [← Option.some_inj.mp isName, trim_trim]
        exact notBlank
      · exact absurd isName (by simp)

theorem directName_ne_empty (lowercasing : Lowercasing toLowerCase) (conversation : Conversation) :
    conversation.directName toLowerCase cfg ≠ "" := by
  unfold Conversation.directName
  cases linked : conversation.linkedName toLowerCase cfg with
  | none =>
    refine lowercasing.normalizeLowercase_ne_empty ?_
    rw [Option.getD_none, givenId_trim]
    exact givenId_ne_empty conversation
  | some name => exact lowercasing.normalizeLowercase_ne_empty (trim_ne_empty_of_linkedName linked)

theorem sessionKey_eq (lowercasing : Lowercasing toLowerCase)
    (byChannel : cfg.dmScope = .perChannelPeer ∨ cfg.dmScope = .perAccountChannelPeer)
    (conversation : Conversation) : conversation.sessionKey toLowerCase cfg =
      "agent:" ++ (normalizeAgentId toLowerCase conversation.agentId ++ ":" ++
        (conversation.channelName toLowerCase ++ ":" ++ conversation.keyRest toLowerCase cfg)) := by
  have notMain : cfg.dmScope ≠ .main := by
    rcases byChannel with isScope | isScope <;> simp [isScope]
  have named : conversation.directName toLowerCase cfg ≠ "" :=
    directName_ne_empty lowercasing conversation
  unfold Conversation.sessionKey buildAgentSessionKey
  change buildAgentPeerSessionKey toLowerCase conversation.agentId (some defaultMainKey)
    (conversation.channelName toLowerCase) conversation.accountId conversation.peer.kind
    (some conversation.givenId) cfg.identityLinks cfg.dmScope = _
  unfold buildAgentPeerSessionKey Conversation.keyRest
  dsimp only [Option.getD_some]
  rw [lowercasing.channelName_stable, givenId_trim, if_neg notMain]
  have isName : normalizeLowercaseStringOrEmpty toLowerCase
      ((resolveLinkedPeerId toLowerCase cfg.identityLinks
        (conversation.channelName toLowerCase) conversation.givenId).getD
          conversation.givenId) = conversation.directName toLowerCase cfg := rfl
  have separator : ":direct:" = ":" ++ "direct:" := rfl
  rw [isName, separator]
  by_cases direct : conversation.peer.kind = .direct
  · rw [if_pos direct, if_pos direct]
    by_cases byAccount : cfg.dmScope = .perAccountChannelPeer
    · rw [if_pos ⟨byAccount, named⟩, if_pos byAccount]
      simp only [String.append_assoc]
    · rw [if_neg (fun both => byAccount both.1), if_neg byAccount,
        if_pos ⟨byChannel.resolve_right byAccount, named⟩]
      simp only [String.append_assoc]
  · rw [if_neg direct, if_neg direct]
    simp only [String.append_assoc, Conversation.sharedName]

end Layout

end SessionRouting
