import AieClaw.AgentSessionNames
import AieClaw.AsciiLowercase

/-!
# Isolation of direct message sessions

Where direct messages are scoped to the channel or to the account, two
conversations share a session only when the rest of their keys agrees: by an
account that is named like a kind of chat, by a linked name that is somebody's id,
or by a blank id.
-/

namespace SessionRouting

open SessionKeys JsString Conversation

section Agreement

variable {toLowerCase : String → String} {cfg : SessionConfig}
  {first second : Conversation}

theorem append_colon_append_inj {part other rest later : String}
    (partPlain : ':' ∉ part.toList) (otherPlain : ':' ∉ other.toList)
    (same : part ++ ":" ++ rest = other ++ ":" ++ later) : part = other ∧ rest = later := by
  have characters := congrArg String.toList same
  simp only [String.toList_append, List.append_assoc] at characters
  obtain ⟨samePart, sameRest⟩ := append_separator_inj partPlain otherPlain characters
  exact ⟨String.toList_inj.mp samePart, String.toList_inj.mp sameRest⟩

theorem ChatType.not_colon_of_name (kind : ChatType) : ':' ∉ kind.name.toList := by
  cases kind with
  | direct => decide
  | group => decide
  | channel => decide

theorem ChatType.name_inj {kind other : ChatType} (same : kind.name = other.name) :
    kind = other := by
  cases kind <;> cases other <;> first | rfl | exact absurd same (by decide)

theorem sessionKey_eq_iff (lowercasing : Lowercasing toLowerCase)
    (byChannel : cfg.dmScope = .perChannelPeer ∨ cfg.dmScope = .perAccountChannelPeer)
    (firstPlain : ':' ∉ first.channel.toList) (secondPlain : ':' ∉ second.channel.toList) :
    first.sessionKey toLowerCase cfg = second.sessionKey toLowerCase cfg ↔
      normalizeAgentId toLowerCase first.agentId = normalizeAgentId toLowerCase second.agentId ∧
        first.channelName toLowerCase = second.channelName toLowerCase ∧
          first.keyRest toLowerCase cfg = second.keyRest toLowerCase cfg := by
  rw [sessionKey_eq lowercasing byChannel, sessionKey_eq lowercasing byChannel]
  constructor
  · intro same
    obtain ⟨sameAgent, sameLater⟩ := append_colon_append_inj
      (lowercasing.not_colon_of_normalizeAgentId _)
      (lowercasing.not_colon_of_normalizeAgentId _) ((String.append_right_inj _).mp same)
    obtain ⟨sameChannel, sameRest⟩ := append_colon_append_inj
      (lowercasing.not_colon_of_channelName firstPlain)
      (lowercasing.not_colon_of_channelName secondPlain) sameLater
    exact ⟨sameAgent, sameChannel, sameRest⟩
  · rintro ⟨sameAgent, sameChannel, sameRest⟩
    rw [sameAgent, sameChannel, sameRest]

theorem keyRest_of_direct (direct : first.peer.kind = .direct)
    (byAccount : cfg.dmScope = .perAccountChannelPeer) : first.keyRest toLowerCase cfg =
      normalizeAccountId toLowerCase first.accountId ++ ":" ++
        ("direct:" ++ first.directName toLowerCase cfg) := by
  rw [keyRest, if_pos direct, if_pos byAccount]

theorem keyRest_of_direct_of_not_byAccount (direct : first.peer.kind = .direct)
    (notByAccount : cfg.dmScope ≠ .perAccountChannelPeer) : first.keyRest toLowerCase cfg =
      ChatType.direct.name ++ ":" ++ first.directName toLowerCase cfg := by
  rw [keyRest, if_pos direct, if_neg notByAccount]
  rfl

theorem keyRest_of_not_direct (notDirect : first.peer.kind ≠ .direct) :
    first.keyRest toLowerCase cfg =
      first.peer.kind.name ++ ":" ++ first.sharedName toLowerCase := by
  rw [keyRest, if_neg notDirect]

theorem keyRest_eq_iff_of_kind_ne (lowercasing : Lowercasing toLowerCase)
    (direct : first.peer.kind = .direct) (notDirect : second.peer.kind ≠ .direct) :
    first.keyRest toLowerCase cfg = second.keyRest toLowerCase cfg ↔
      cfg.dmScope = .perAccountChannelPeer ∧
        normalizeAccountId toLowerCase first.accountId = second.peer.kind.name ∧
          second.sharedName toLowerCase = "direct:" ++ first.directName toLowerCase cfg := by
  rw [keyRest_of_not_direct notDirect]
  by_cases byAccount : cfg.dmScope = .perAccountChannelPeer
  · rw [keyRest_of_direct direct byAccount]
    constructor
    · intro same
      obtain ⟨sameAccount, sameName⟩ := append_colon_append_inj
        (lowercasing.not_colon_of_normalizeAccountId _) (ChatType.not_colon_of_name _) same
      exact ⟨byAccount, sameAccount, sameName.symm⟩
    · rintro ⟨-, sameAccount, sameName⟩
      rw [sameAccount, sameName]
  · rw [keyRest_of_direct_of_not_byAccount direct byAccount]
    constructor
    · intro same
      have sameKind := (append_colon_append_inj (ChatType.not_colon_of_name _)
        (ChatType.not_colon_of_name _) same).1
      exact absurd (ChatType.name_inj sameKind).symm notDirect
    · rintro ⟨isByAccount, -⟩
      exact absurd isByAccount byAccount

theorem keyRest_eq_iff_of_direct (lowercasing : Lowercasing toLowerCase)
    (firstDirect : first.peer.kind = .direct) (secondDirect : second.peer.kind = .direct) :
    first.keyRest toLowerCase cfg = second.keyRest toLowerCase cfg ↔
      (cfg.dmScope = .perAccountChannelPeer →
          normalizeAccountId toLowerCase first.accountId =
            normalizeAccountId toLowerCase second.accountId) ∧
        first.directName toLowerCase cfg = second.directName toLowerCase cfg := by
  by_cases byAccount : cfg.dmScope = .perAccountChannelPeer
  · rw [keyRest_of_direct firstDirect byAccount, keyRest_of_direct secondDirect byAccount]
    constructor
    · intro same
      obtain ⟨sameAccount, sameName⟩ := append_colon_append_inj
        (lowercasing.not_colon_of_normalizeAccountId _)
        (lowercasing.not_colon_of_normalizeAccountId _) same
      exact ⟨fun _ => sameAccount, (String.append_right_inj _).mp sameName⟩
    · rintro ⟨sameAccount, sameName⟩
      rw [sameAccount byAccount, sameName]
  · rw [keyRest_of_direct_of_not_byAccount firstDirect byAccount,
      keyRest_of_direct_of_not_byAccount secondDirect byAccount]
    constructor
    · intro same
      exact ⟨fun isByAccount => absurd isByAccount byAccount, (String.append_right_inj _).mp same⟩
    · rintro ⟨-, sameName⟩
      rw [sameName]

theorem keyRest_eq_iff_of_not_direct (firstShared : first.peer.kind ≠ .direct)
    (secondShared : second.peer.kind ≠ .direct) :
    first.keyRest toLowerCase cfg = second.keyRest toLowerCase cfg ↔
      first.peer.kind = second.peer.kind ∧
        first.sharedName toLowerCase = second.sharedName toLowerCase := by
  rw [keyRest_of_not_direct firstShared, keyRest_of_not_direct secondShared]
  constructor
  · intro same
    obtain ⟨sameKind, sameName⟩ := append_colon_append_inj (ChatType.not_colon_of_name _)
      (ChatType.not_colon_of_name _) same
    exact ⟨ChatType.name_inj sameKind, sameName⟩
  · rintro ⟨sameKind, sameName⟩
    rw [sameKind, sameName]

end Agreement

section Peers

variable {toLowerCase : String → String} {cfg : SessionConfig}
  {first second : Conversation}

/-- The name of a peer that is not renamed. -/
def Conversation.plainName (toLowerCase : String → String) (conversation : Conversation) : String :=
  if trim conversation.peer.id = "" then "unknown"
  else conversation.foldedId toLowerCase

theorem foldedId_of_blank (blank : trim first.peer.id = "") : first.foldedId toLowerCase = "" :=
  if_pos blank

theorem normalizeSessionPeerId_ne_empty (lowercasing : Lowercasing toLowerCase)
    {channel peerId : String} {kind : ChatType} (notBlank : trim peerId ≠ "") :
    normalizeSessionPeerId toLowerCase channel kind peerId ≠ "" := by
  unfold normalizeSessionPeerId
  dsimp only
  rw [if_neg notBlank]
  split
  · exact notBlank
  · refine lowercasing.normalizeLowercase_ne_empty ?_
    rwa [trim_trim]

theorem normalizeSessionPeerId_trim (channel peerId : String) (kind : ChatType) :
    normalizeSessionPeerId toLowerCase channel kind (trim peerId) =
      normalizeSessionPeerId toLowerCase channel kind peerId := by
  unfold normalizeSessionPeerId
  dsimp only
  rw [trim_trim]

section

variable (lowercasing : Lowercasing toLowerCase)
include lowercasing

theorem normalizeSessionPeerId_unknown (channel : String) (kind : ChatType) :
    normalizeSessionPeerId toLowerCase channel kind "unknown" = "unknown" := by
  unfold normalizeSessionPeerId
  dsimp only
  split
  · rename_i blank
    exact absurd blank (by decide)
  · split
    · rfl
    · exact lowercasing.normalizeLowercase_unknown

theorem sharedName_eq_plainName : first.sharedName toLowerCase = first.plainName toLowerCase := by
  unfold sharedName plainName givenId
  by_cases blank : trim first.peer.id = ""
  · rw [if_pos blank, blank]
    exact congrArg (orElse · "unknown") (normalizeSessionPeerId_unknown lowercasing _ _)
  · rw [if_neg blank, orElse, orElse, if_neg blank,
      normalizeSessionPeerId_trim, if_neg (normalizeSessionPeerId_ne_empty lowercasing blank)]
    rfl

theorem directName_eq_plainName
    (direct : first.peer.kind = .direct) (unlinked : first.linkedName toLowerCase cfg = none) :
    first.directName toLowerCase cfg = first.plainName toLowerCase := by
  unfold directName plainName
  rw [unlinked, Option.getD_none, givenId, orElse]
  by_cases blank : trim first.peer.id = ""
  · rw [if_pos blank, if_pos blank]
    exact lowercasing.normalizeLowercase_unknown
  · rw [if_neg blank, if_neg blank]
    unfold foldedId normalizeSessionPeerId
    dsimp only
    rw [if_neg blank, if_neg (fun both => by simp [direct] at both)]

end

theorem eq_or_blank_of_plainName_eq
    (same : first.plainName toLowerCase = second.plainName toLowerCase) :
    first.foldedId toLowerCase = second.foldedId toLowerCase ∨
      trim first.peer.id = "" ∧ second.foldedId toLowerCase = "unknown" ∨
        trim second.peer.id = "" ∧ first.foldedId toLowerCase = "unknown" := by
  unfold plainName at same
  by_cases firstBlank : trim first.peer.id = ""
  · by_cases secondBlank : trim second.peer.id = ""
    · exact Or.inl ((foldedId_of_blank firstBlank).trans (foldedId_of_blank secondBlank).symm)
    · rw [if_pos firstBlank, if_neg secondBlank] at same
      exact Or.inr (Or.inl ⟨firstBlank, same.symm⟩)
  · by_cases secondBlank : trim second.peer.id = ""
    · rw [if_neg firstBlank, if_pos secondBlank] at same
      exact Or.inr (Or.inr ⟨secondBlank, same⟩)
    · rw [if_neg firstBlank, if_neg secondBlank] at same
      exact Or.inl same

theorem plainName_eq_of_blank (blank : trim first.peer.id = "")
    (isUnknown : second.foldedId toLowerCase = "unknown") :
    first.plainName toLowerCase = second.plainName toLowerCase := by
  have notBlank : trim second.peer.id ≠ "" := by
    intro secondBlank
    rw [foldedId_of_blank secondBlank] at isUnknown
    exact absurd isUnknown (by decide)
  rw [plainName, if_pos blank, plainName, if_neg notBlank, isUnknown]

end Peers

section Isolation

variable {toLowerCase : String → String} {cfg : SessionConfig}
  {first second : Conversation}

theorem SamePlace.symm (same : SamePlace toLowerCase cfg first second) :
    SamePlace toLowerCase cfg second first :=
  ⟨same.1.symm, same.2.1.symm, same.2.2.1.symm, fun byAccount direct =>
    (same.2.2.2 byAccount (same.2.2.1.trans direct)).symm⟩

section

variable (lowercasing : Lowercasing toLowerCase)
include lowercasing

section

variable (same : SamePlace toLowerCase cfg first second)
include same

theorem keyRest_eq_of_confusable (sameDirect : first.peer.kind = .direct →
      first.directName toLowerCase cfg = second.directName toLowerCase cfg)
    (sameShared : first.peer.kind ≠ .direct →
      first.sharedName toLowerCase = second.sharedName toLowerCase) :
    first.keyRest toLowerCase cfg = second.keyRest toLowerCase cfg := by
  by_cases direct : first.peer.kind = .direct
  · exact (keyRest_eq_iff_of_direct lowercasing direct (same.2.2.1 ▸ direct)).mpr
      ⟨fun byAccount => same.2.2.2 byAccount direct, sameDirect direct⟩
  · exact (keyRest_eq_iff_of_not_direct direct (same.2.2.1 ▸ direct)).mpr
      ⟨same.2.2.1, sameShared direct⟩

theorem BlankClash.keyRest_eq (clash : BlankClash toLowerCase cfg first second) :
    first.keyRest toLowerCase cfg = second.keyRest toLowerCase cfg := by
  obtain ⟨unlinked, blank, isUnknown, -⟩ := clash
  have sameName := plainName_eq_of_blank blank isUnknown
  refine keyRest_eq_of_confusable lowercasing same ?_ ?_
  · intro direct
    rw [directName_eq_plainName lowercasing direct (unlinked direct).1,
      directName_eq_plainName lowercasing (same.2.2.1 ▸ direct) (unlinked direct).2, sameName]
  · intro _
    rw [sharedName_eq_plainName lowercasing, sharedName_eq_plainName lowercasing, sameName]

theorem LinkClash.keyRest_eq (clash : LinkClash toLowerCase cfg first second) :
    first.keyRest toLowerCase cfg = second.keyRest toLowerCase cfg :=
  keyRest_eq_of_confusable lowercasing same (fun _ => clash.2.2.1)
    (fun notDirect => absurd clash.1 notDirect)

end

end

theorem SamePeer.symm (same : SamePeer toLowerCase cfg first second) :
    SamePeer toLowerCase cfg second first :=
  same.imp Eq.symm fun ⟨name, listed, listedToo⟩ => ⟨name, listedToo, listed⟩

/-- Where keys meet in one place without a clash, the peers are the same. -/
theorem samePeer_of_not_clash (lowercasing : Lowercasing toLowerCase)
    (same : SamePlace toLowerCase cfg first second) (sameDirect : first.peer.kind = .direct →
      first.directName toLowerCase cfg = second.directName toLowerCase cfg)
    (sameShared : first.peer.kind ≠ .direct →
      first.sharedName toLowerCase = second.sharedName toLowerCase)
    (unconfused : ¬(LinkClash toLowerCase cfg first second ∨
      LinkClash toLowerCase cfg second first ∨ BlankClash toLowerCase cfg first second ∨
        BlankClash toLowerCase cfg second first)) : SamePeer toLowerCase cfg first second := by
  by_contra different
  have differentBack : ¬SamePeer toLowerCase cfg second first :=
    fun samePeer => different samePeer.symm
  have fromNames (unlinked : first.peer.kind = .direct →
        first.linkedName toLowerCase cfg = none ∧ second.linkedName toLowerCase cfg = none)
      (sameName : first.plainName toLowerCase = second.plainName toLowerCase) : False := by
    rcases eq_or_blank_of_plainName_eq sameName with sameId | ⟨blank, isUnknown⟩ |
      ⟨blank, isUnknown⟩
    · exact different (Or.inl sameId)
    · exact unconfused (Or.inr (Or.inr (Or.inl ⟨unlinked, blank, isUnknown, different⟩)))
    · exact unconfused (Or.inr (Or.inr (Or.inr
        ⟨fun direct => (unlinked (same.2.2.1.trans direct)).symm, blank, isUnknown,
          differentBack⟩)))
  by_cases direct : first.peer.kind = .direct
  · have secondDirect : second.peer.kind = .direct := same.2.2.1 ▸ direct
    have sameName := sameDirect direct
    cases firstLinked : first.linkedName toLowerCase cfg with
    | some name =>
      exact unconfused (Or.inl ⟨direct, by rw [firstLinked]; rfl, sameName, different⟩)
    | none =>
      cases secondLinked : second.linkedName toLowerCase cfg with
      | some name =>
        exact unconfused (Or.inr (Or.inl
          ⟨secondDirect, by rw [secondLinked]; rfl, sameName.symm, differentBack⟩))
      | none =>
        rw [directName_eq_plainName lowercasing direct firstLinked,
          directName_eq_plainName lowercasing secondDirect secondLinked] at sameName
        exact fromNames (fun _ => ⟨firstLinked, secondLinked⟩) sameName
  · have sameName := sameShared direct
    rw [sharedName_eq_plainName lowercasing, sharedName_eq_plainName lowercasing] at sameName
    exact fromNames (fun isDirect => absurd isDirect direct) sameName

theorem sessionKey_ne_main (lowercasing : Lowercasing toLowerCase)
    (byChannel : cfg.dmScope = .perChannelPeer ∨ cfg.dmScope = .perAccountChannelPeer)
    (conversation : Conversation) : conversation.sessionKey toLowerCase cfg ≠
      buildAgentMainSessionKey toLowerCase conversation.agentId (some defaultMainKey) := by
  intro same
  rw [sessionKey_eq lowercasing byChannel, buildAgentMainSessionKey] at same
  simp only [String.append_assoc, String.append_right_inj] at same
  have colon : ':' ∈ (normalizeMainKey toLowerCase (some defaultMainKey)).toList := by
    rw [← same]
    simp only [String.toList_append]
    exact List.mem_append_right _ (List.mem_append_left _ (by decide))
  have plain : ':' ∉ (normalizeMainKey toLowerCase (some defaultMainKey)).toList := by
    rw [normalizeMainKey, orElse]
    split
    · exact by decide
    · exact lowercasing.not_colon_of_normalizeLowercase (by decide)
  exact plain colon

/-- Sessions are isolated exactly where two conversations cannot be confused. -/
theorem isolated_iff_not_confusable (lowercasing : Lowercasing toLowerCase)
    (byChannel : cfg.dmScope = .perChannelPeer ∨ cfg.dmScope = .perAccountChannelPeer)
    (firstPlain : ':' ∉ first.channel.toList) (secondPlain : ':' ∉ second.channel.toList) :
    ((first.sessionKey toLowerCase cfg = second.sessionKey toLowerCase cfg →
        SamePlace toLowerCase cfg first second ∧ SamePeer toLowerCase cfg first second) ∧
      (first.peer.kind = .direct → trim first.peer.id ≠ "" →
        first.sessionKey toLowerCase cfg ≠
          buildAgentMainSessionKey toLowerCase first.agentId (some defaultMainKey))) ↔
      ¬Confusable toLowerCase cfg first second := by
  rw [sessionKey_eq_iff lowercasing byChannel firstPlain secondPlain]
  constructor
  · rintro ⟨isolated, -⟩
    rintro (clash | clash | ⟨same, clash⟩)
    · obtain ⟨byAccount, direct, notDirect, sameAgent, sameChannel, clashes⟩ := clash
      have sameRest := (keyRest_eq_iff_of_kind_ne lowercasing direct notDirect).mpr
        ⟨byAccount, clashes⟩
      have sameKind := (isolated ⟨sameAgent, sameChannel, sameRest⟩).1.2.2.1
      exact notDirect (sameKind ▸ direct)
    · obtain ⟨byAccount, direct, notDirect, sameAgent, sameChannel, clashes⟩ := clash
      have sameRest := (keyRest_eq_iff_of_kind_ne lowercasing direct notDirect).mpr
        ⟨byAccount, clashes⟩
      have sameKind := (isolated ⟨sameAgent.symm, sameChannel.symm, sameRest.symm⟩).1.2.2.1
      exact notDirect (sameKind ▸ direct)
    · rcases clash with clash | clash | clash | clash
      · exact clash.2.2.2 (isolated ⟨same.1, same.2.1, clash.keyRest_eq lowercasing same⟩).2
      · exact clash.2.2.2
          (isolated ⟨same.1, same.2.1, (clash.keyRest_eq lowercasing same.symm).symm⟩).2.symm
      · exact clash.2.2.2 (isolated ⟨same.1, same.2.1, clash.keyRest_eq lowercasing same⟩).2
      · exact clash.2.2.2
          (isolated ⟨same.1, same.2.1, (clash.keyRest_eq lowercasing same.symm).symm⟩).2.symm
  · intro unconfused
    refine ⟨?_, fun _ _ => sessionKey_ne_main lowercasing byChannel first⟩
    rintro ⟨sameAgent, sameChannel, sameRest⟩
    by_cases firstDirect : first.peer.kind = .direct
    · by_cases secondDirect : second.peer.kind = .direct
      · obtain ⟨sameAccount, sameName⟩ :=
          (keyRest_eq_iff_of_direct lowercasing firstDirect secondDirect).mp sameRest
        have same : SamePlace toLowerCase cfg first second :=
          ⟨sameAgent, sameChannel, firstDirect.trans secondDirect.symm,
            fun byAccount _ => sameAccount byAccount⟩
        exact ⟨same, samePeer_of_not_clash lowercasing same (fun _ => sameName)
          (fun notDirect => absurd firstDirect notDirect)
          (fun clash => unconfused (Or.inr (Or.inr ⟨same, clash⟩)))⟩
      · have clash := (keyRest_eq_iff_of_kind_ne lowercasing firstDirect secondDirect).mp sameRest
        exact absurd (Or.inl ⟨clash.1, firstDirect, secondDirect, sameAgent, sameChannel,
          clash.2⟩) unconfused
    · by_cases secondDirect : second.peer.kind = .direct
      · have clash := (keyRest_eq_iff_of_kind_ne lowercasing secondDirect firstDirect).mp
          sameRest.symm
        exact absurd (Or.inr (Or.inl ⟨clash.1, secondDirect, firstDirect, sameAgent.symm,
          sameChannel.symm, clash.2⟩)) unconfused
      · obtain ⟨sameKind, sameName⟩ :=
          (keyRest_eq_iff_of_not_direct firstDirect secondDirect).mp sameRest
        have same : SamePlace toLowerCase cfg first second :=
          ⟨sameAgent, sameChannel, sameKind, fun _ isDirect => absurd isDirect firstDirect⟩
        exact ⟨same, samePeer_of_not_clash lowercasing same
          (fun isDirect => absurd isDirect firstDirect) (fun _ => sameName)
          (fun clash => unconfused (Or.inr (Or.inr ⟨same, clash⟩)))⟩

end Isolation

section Ascii

theorem lowercasing_asciiLower : Lowercasing asciiLower where
  colon := fun _ => mem_of_mem_asciiLower (by decide)
  nonempty := by
    intro text nonempty empty
    have characters := congrArg String.toList empty
    rw [asciiLower, String.toList_ofList] at characters
    exact nonempty (String.toList_inj.mp (List.map_eq_nil_iff.mp characters))
  trim := trim_asciiLower
  idempotent := asciiLower_asciiLower
  unknown := by decide

end Ascii

section Examples

/-- Direct messages by channel, with one linked identity. -/
def linkedConfig : SessionConfig where
  dmScope := .perChannelPeer
  identityLinks := some [("alice", ["telegram:111"])]

def conversationOf (kind : ChatType) (accountId id : String) : Conversation where
  agentId := "main"
  channel := "telegram"
  accountId := some accountId
  peer := { kind := kind, id := id }

theorem isolated_of_numbers :
    (((conversationOf .direct "default" "111").sessionKey asciiLower linkedConfig =
          (conversationOf .direct "default" "222").sessionKey asciiLower linkedConfig →
        SamePlace asciiLower linkedConfig (conversationOf .direct "default" "111")
            (conversationOf .direct "default" "222") ∧
          SamePeer asciiLower linkedConfig (conversationOf .direct "default" "111")
            (conversationOf .direct "default" "222")) ∧
      ((conversationOf .direct "default" "111").peer.kind = .direct →
        trim (conversationOf .direct "default" "111").peer.id ≠ "" →
          (conversationOf .direct "default" "111").sessionKey asciiLower linkedConfig ≠
            buildAgentMainSessionKey asciiLower "main" (some defaultMainKey))) ↔
      ¬Confusable asciiLower linkedConfig (conversationOf .direct "default" "111")
        (conversationOf .direct "default" "222") :=
  isolated_iff_not_confusable lowercasing_asciiLower (Or.inl rfl) (by decide) (by decide)

/-- The peer whose id is somebody else's canonical name is in that one's session. -/
theorem not_isolated :
    ¬∀ cfg : SessionConfig,
      cfg.dmScope = .perChannelPeer ∨ cfg.dmScope = .perAccountChannelPeer →
        ∀ first second : Conversation,
          ':' ∉ first.channel.toList → ':' ∉ second.channel.toList →
            first.sessionKey asciiLower cfg = second.sessionKey asciiLower cfg →
              SamePlace asciiLower cfg first second ∧ SamePeer asciiLower cfg first second := by
  intro isolated
  have samePeer := (isolated linkedConfig (Or.inl rfl) (conversationOf .direct "default" "111")
    (conversationOf .direct "default" "alice") (by decide) (by decide) (by decide +kernel)).2
  rcases samePeer with sameId | ⟨name, -, entry, member, listed⟩
  · exact absurd sameId (by decide +kernel)
  · obtain rfl := List.mem_singleton.mp member
    exact absurd listed (by
      have unlisted : linkedName asciiLower (linkCandidates asciiLower
            ((conversationOf .direct "default" "alice").channelName asciiLower)
            (conversationOf .direct "default" "alice").givenId)
          ("alice", ["telegram:111"]) = none := by decide +kernel
      rw [unlisted]
      exact Option.some_ne_none name ∘ Eq.symm)

/-- An account named `group` puts a direct message into a group's session. -/
example :
    LayoutClash asciiLower
      { dmScope := .perAccountChannelPeer, identityLinks := none }
      (conversationOf .direct "group" "7") (conversationOf .group "work" "direct:7") := by
  refine ⟨rfl, rfl, by decide, rfl, rfl, ?_, ?_⟩
  · decide +kernel
  · decide +kernel

end Examples

end SessionRouting
