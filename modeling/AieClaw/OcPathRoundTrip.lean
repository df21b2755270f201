import AieClaw.OcPathFormat

/-!
# Round trips of the `oc://` syntax

A formatted path is read back as the same path wherever its parts can be read
at all: the formatter writes some files and sub-segments that the parser
refuses, and it refuses some paths that the parser returns.
-/

namespace OcPathSyntax

open List

section Printing

theorem hasControlChar_append (first second : String) : hasControlChar (first ++ second) =
      (hasControlChar first || hasControlChar second) := by
  simp [hasControlChar, String.toList_append, any_append]

theorem hasControlChar_intercalate {separator : String} {pieces : List String}
    (printable : hasControlChar separator = false)
    (each : ∀ piece ∈ pieces, hasControlChar piece = false) :
    hasControlChar (separator.intercalate pieces) = false := by
  induction pieces with
  | nil => rfl
  | cons first rest inductionHypothesis =>
    have firstPrintable := each first mem_cons_self
    have restPrintable :=
      inductionHypothesis fun piece member => each piece (.tail first member)
    cases rest with
    | nil => simpa using firstPrintable
    | cons second later =>
      rw [String.intercalate_cons_cons, hasControlChar_append,
        hasControlChar_append, firstPrintable, printable, restPrintable]
      rfl

theorem ValidSegment.printable {seg : String} (valid : ValidSegment seg) :
    hasControlChar seg = false := by
  obtain ⟨subs, splits, -, validSubs⟩ := valid.subs
  rw [splits.joined]
  exact hasControlChar_intercalate (by decide) fun sub member => (validSubs sub member).printable

end Printing

section Sessions

theorem eq_append_of_span {pair key value : List Char} {sign : Char}
    (taken : pair.span (· ≠ '=') = (key, sign :: value)) : pair = key ++ '=' :: value := by
  rw [span_eq_takeWhile_dropWhile] at taken
  obtain ⟨rfl, behind⟩ := Prod.mk.inj taken
  have notEmpty : pair.dropWhile (· ≠ '=') ≠ [] := by
    rw [behind]
    exact cons_ne_nil sign value
  have isSign : sign = '=' := by
    have isHead : (pair.dropWhile (· ≠ '=')).head notEmpty = sign := by
      simp only [behind, head_cons]
    have fails := head_dropWhile_not (· ≠ '=') notEmpty
    rw [isHead] at fails
    simpa using fails
  subst isSign
  rw [← behind, takeWhile_append_dropWhile]

/-- The query of a formatted session is read back. -/
theorem extractSession_sessionMark {session : Option String}
    (valid : ∀ text ∈ session, ValidSession text) (nonempty : session ≠ some "") :
    extractSession ((sessionMark session).getD "") "" = .ok session := by
  cases session with
  | none => rfl
  | some text =>
    have validText := valid text rfl
    have withoutAnd : '&' ∉ ("session=" ++ text).toList := by
      have unreserved := any_eq_false.mp validText.2
      intro member
      rw [String.toList_append, mem_append] at member
      rcases member with inKey | inText
      · revert inKey
        decide
      · exact unreserved '&' inText (by decide)
    have single : JsString.split ("session=" ++ text) '&' = ["session=" ++ text] := by
      rw [JsString.split, splitOn_eq_singleton withoutAnd, map_singleton, String.ofList_toList]
    have taken : ("session=" ++ text).toList.span (· ≠ '=') =
          ("session".toList, '=' :: text.toList) := by
      simp [String.toList_append, span_eq_takeWhile_dropWhile]
    have notEmpty : text.toList ≠ [] := by
      intro empty
      exact nonempty (congrArg some (String.toList_inj.mp empty))
    have queryNonempty : "session=" ++ text ≠ "" := by
      intro empty
      have characters := congrArg String.toList empty
      simp at characters
    simp only [sessionMark, Option.map_some, Option.getD_some,
      extractSession, queryNonempty, if_false, single, extractSession.go,
      taken, String.ofList_toList]
    simp [notEmpty, bind_eq_ok_iff, validateSessionSlot, validText.1, validText.2]

/-- A session that is read from a query is part of it. -/
theorem session_of_extractSession {query session : String}
    (found : extractSession query "" = .ok (some session)) : ValidSession session ∧ session ≠ "" ∧
      ("session=" ++ session).toList <:+: query.toList := by
  have inPairs (pairs : List String) (foundIn : extractSession.go "" pairs = .ok (some session)) :
      ValidSession session ∧ session ≠ "" ∧ "session=" ++ session ∈ pairs := by
    induction pairs with
    | nil => cases foundIn
    | cons pair rest inductionHypothesis =>
      simp only [extractSession.go] at foundIn
      split at foundIn
      next key taken =>
        obtain ⟨valid, nonempty, member⟩ := inductionHypothesis foundIn
        exact ⟨valid, nonempty, .tail pair member⟩
      next key sign value taken =>
        split_ifs at foundIn with isSession
        · obtain ⟨valid, returned⟩ := checks_eq_ok_iff.mp foundIn
          obtain rfl := Option.some.inj (Except.ok.inj returned)
          simp only [Bool.and_eq_true, decide_eq_true_eq] at isSession
          obtain ⟨isKey, nonempty⟩ := isSession
          have shape := eq_append_of_span taken
          have whole : "session=" ++ String.ofList value = pair := by
            have keyShape : key = "session".toList := by
              rw [← isKey, String.toList_ofList]
            rw [← String.toList_inj, shape, keyShape]
            simp [String.toList_append]
          refine ⟨validateSessionSlot_eq_ok_iff.mp valid, ?_, ?_⟩
          · intro empty
            have characters := congrArg String.toList empty
            rw [String.toList_ofList] at characters
            exact nonempty characters
          · rw [whole]
            exact .head _
        · obtain ⟨valid, nonempty, member⟩ := inductionHypothesis foundIn
          exact ⟨valid, nonempty, .tail pair member⟩
  simp only [extractSession] at found
  split at found
  · cases found
  obtain ⟨valid, nonempty, member⟩ := inPairs _ found
  refine ⟨valid, nonempty, ?_⟩
  have occurs : ("session=" ++ session).toList <:+:
        ((String.ofList ['&']).intercalate (JsString.split query '&')).toList :=
    JsString.isInfix_intercalate member
  rwa [JsString.intercalate_split] at occurs

end Sessions

section Reading

variable {normalize : String → String}
variable {path : OcPath} {slots : List String} {text : String}

theorem withoutBom_formatted (rest : String) :
    withoutBom (ocScheme ++ rest) = ocScheme ++ rest := by
  simp [withoutBom, JsString.startsWith, ocScheme, List.isPrefixOf]

theorem Formats.withoutBom (formats : Formats path slots text) : withoutBom text = text := by
  rw [formats.shape, String.append_assoc, withoutBom_formatted]

/-- The parser reads back what the formatter wrote, if its parts are readable. -/
theorem parseOcPath_of_formats (formats : Formats path slots text)
    (normal : normalize text = text) (readableFile : ReadableFile path.file)
    (readableSlots : ∀ slot ∈ path.slots, ReadableSlot slot) (session : path.session ≠ some "") :
    parseOcPath normalize text = .ok (path.withSlots slots) ∧
      List.Forall₂ (fun slot text => unquotedSubs (some text) = unquotedSubs (some slot))
        path.slots slots := by
  obtain ⟨fileSegment, fileRead⟩ :=
    validSegment_canonicalFile formats.validFile formats.quotable readableFile
  have outcome : List.Forall₂
        (fun text slot => ValidSegment text ∧ unquotedSubs (some text) = unquotedSubs (some slot))
        slots path.slots := by
    have both := (forall₂_and_left _ _).mpr ⟨readableSlots, formats.slotTexts⟩
    refine (both.imp ?_).flip
    rintro slot slotText ⟨readable, written⟩
    exact validSegment_of_slotText written readable
  obtain ⟨validSlots, sameNames⟩ := (forall₂_and_left _ _).mp outcome
  have few : slots.length ≤ 3 := by
    rw [outcome.length_eq]
    exact formats.nested.length_slots
  have accepted : ValidSegments (canonicalFile path.file :: slots) := {
    nonempty := cons_ne_nil _ slots
    few := by
      rw [length_cons]
      omega
    valid := by
      intro seg member
      rcases mem_cons.mp member with rfl | behind
      · exact fileSegment
      · exact validSlots seg behind }
  have printableMark : hasControlChar (queryText (sessionMark path.session)) = false := by
    cases found : path.session with
    | none => rfl
    | some session =>
      have valid := formats.validSession session found
      simp only [sessionMark, Option.map_some, queryText, hasControlChar_append, valid.1]
      rfl
  have printable : hasControlChar text = false := by
    have printablePath :
        hasControlChar ("/".intercalate (canonicalFile path.file :: slots)) = false :=
      hasControlChar_intercalate (by decide)
        fun seg member => (accepted.valid seg member).printable
    rw [formats.shape, hasControlChar_append, hasControlChar_append, printablePath, printableMark]
    rfl
  have read : normalize (withoutBom text) = text := by
    rw [formats.withoutBom, normal]
  have isText : IsText (normalize (withoutBom text)) (canonicalFile path.file :: slots)
        (sessionMark path.session) := by
    rw [read]
    exact {
      shape := formats.shape
      short := formats.short
      printable := printable
      accepted := accepted }
  have isPath : IsPath (canonicalFile path.file :: slots) (sessionMark path.session)
        (path.withSlots slots) := {
    file := fileRead.symm
    validFile := formats.validFile
    sectionSlot := rfl
    itemSlot := rfl
    fieldSlot := rfl
    session := extractSession_sessionMark formats.validSession session }
  exact ⟨parseOcPath_eq_ok_iff.mpr ⟨formats.short, _, _, isText, isPath⟩,
    List.Forall₂.flip sameNames⟩

theorem unquotedSubs_getElem? {before after : List String} (same : List.Forall₂
        (fun slot text => unquotedSubs (some text) = unquotedSubs (some slot)) before after)
    (index : ℕ) : unquotedSubs after[index]? = unquotedSubs before[index]? := by
  induction same generalizing index with
  | nil => rfl
  | cons sameHead _ inductionHypothesis =>
    cases index with
    | zero => exact sameHead
    | succ index => exact inductionHypothesis index

/--
The text is read back with the file and the session of the path, and slot by
slot with its sub-segments up to their quotes.
-/
def ReadsBack (normalize : String → String) (text : String) (path : OcPath) : Prop :=
  ∃ parsed,
    parseOcPath normalize text = .ok parsed ∧
      parsed.file = path.file ∧
      parsed.session = path.session ∧
      unquotedSubs parsed.sectionSlot = unquotedSubs path.sectionSlot ∧
      unquotedSubs parsed.itemSlot = unquotedSubs path.itemSlot ∧
      unquotedSubs parsed.fieldSlot = unquotedSubs path.fieldSlot

/--
A path that formats to a normalized text is read back, if the parser can read
what the formatter writes as it is.
-/
theorem parse_of_format (formatted : formatOcPath path = .ok text)
    (normal : normalize text = text) (readableFile : ReadableFile path.file)
    (readableSlots : ∀ slot ∈ path.slots, ReadableSlot slot) (session : path.session ≠ some "") :
    ReadsBack normalize text path := by
  obtain ⟨slots, formats⟩ := formatOcPath_eq_ok_iff.mp formatted
  obtain ⟨parsed, sameNames⟩ :=
    parseOcPath_of_formats formats normal readableFile readableSlots session
  have own := formats.nested.withSlots_slots
  have names := unquotedSubs_getElem? sameNames
  refine ⟨path.withSlots slots, parsed, rfl, rfl, ?_, ?_, ?_⟩
  · rw [← congrArg OcPath.sectionSlot own]
    exact names 0
  · rw [← congrArg OcPath.itemSlot own]
    exact names 1
  · rw [← congrArg OcPath.fieldSlot own]
    exact names 2

theorem readableSlot_of_splits {slot : String} {subs : List String}
    (splits : Splits '.' slot subs) (few : subs.length ≤ maxSubSegmentsPerSlot)
    (verbatim : ∀ sub ∈ subs, isVerbatimForm sub = true → Readable sub) : ReadableSlot slot := by
  intro others otherSplits
  obtain rfl := splits.unique (by decide) otherSplits
  exact ⟨few, verbatim⟩

end Reading

section Normalization

/--
What is relied on of Unicode normalization: parts of normalized texts are
normalized, and so are normalized texts put together where no mark of the second
can combine with the first.
-/
structure NormalForm (normalize : String → String) : Prop where
  idempotent : ∀ text, normalize (normalize text) = normalize text
  part :
    ∀ before text after,
      normalize (before ++ text ++ after) = before ++ text ++ after →
      normalize text = text
  append :
    ∀ before after,
      normalize before = before →
      normalize after = after →
      (∀ character ∈ after.toList.head?, character.toNat < 0x80) →
      normalize (before ++ after) = before ++ after
  slash : ∀ text, normalize text = text → normalize ("/" ++ text) = "/" ++ text
  quote : ∀ text, normalize text = text → normalize ("\"" ++ text) = "\"" ++ text

variable {normalize : String → String}
variable {path : OcPath} {text : String}

theorem NormalForm.of_isInfix (nfc : NormalForm normalize) {whole : String}
    (normal : normalize whole = whole) (occurs : text.toList <:+: whole.toList) :
    normalize text = text := by
  obtain ⟨before, after, shape⟩ := occurs
  have parts : String.ofList before ++ text ++ String.ofList after = whole := by
    rw [← String.toList_inj, ← shape]
    simp
  exact nfc.part (String.ofList before) text (String.ofList after) (by rw [parts, normal])

theorem NormalForm.quoted (nfc : NormalForm normalize) (normal : normalize text = text)
    (quotes : normalize "\"" = "\"") : normalize (quoted text) = quoted text := by
  refine nfc.append ("\"" ++ text) "\"" (nfc.quote text normal) quotes ?_
  intro character isFirst
  cases isFirst
  decide

end Normalization

section Canonical

/-- The text of a path that needs no quotes besides those it has. -/
def canonicalText (path : OcPath) : String :=
  ocScheme ++ "/".intercalate (canonicalFile path.file :: path.slots) ++
    queryText (sessionMark path.session)

/-- A sub-segment that is written as it is. -/
def isCanonicalSub (sub : String) : Bool :=
  isVerbatimForm sub ||
    sub.toList.all fun character =>
      character ≠ '"' && character ≠ '\\' && !needsQuoteInSlot character

/-- The paths that come back as they are. -/
structure Canonical (path : OcPath) : Prop where
  nonempty : path.file ≠ ""
  quotable : QuotableFile path.file
  readable : ReadableFile path.file
  subs :
    ∀ slot ∈ path.slots,
      ∀ subs,
        Splits '.' slot subs →
        ∀ sub ∈ subs, isCanonicalSub sub = true
  short : JsString.length (canonicalText path) ≤ maxPathLength
  withoutSentinel : JsString.includesText (canonicalText path) redactedSentinel = false

variable {segments : List String} {mark : Option String}
variable {path : OcPath} {text : String}

theorem slots_of_isPath (accepted : ValidSegments segments) (isPath : IsPath segments mark path) :
    path.Nested ∧ segments.tail = path.slots := by
  simp only [OcPath.Nested, OcPath.slots, isPath.sectionSlot, isPath.itemSlot, isPath.fieldSlot]
  have nonempty := accepted.nonempty
  have few := accepted.few
  rcases segments with
    _ | ⟨file, _ | ⟨first, _ | ⟨second, _ | ⟨third, _ | ⟨fourth, rest⟩⟩⟩⟩⟩
  · exact (nonempty rfl).elim
  · simp
  · simp
  · simp
  · simp
  · simp only [length_cons] at few
    omega

theorem mem_segments_of_mem_slots (accepted : ValidSegments segments)
    (isPath : IsPath segments mark path) {slot : String} (member : slot ∈ path.slots) :
    slot ∈ segments := by
  rw [← (slots_of_isPath accepted isPath).2] at member
  exact mem_of_mem_tail member

theorem ValidSegment.readable {seg : String} {subs : List String} (valid : ValidSegment seg)
    (splits : Splits '.' seg subs) :
    subs.length ≤ maxSubSegmentsPerSlot ∧ ∀ sub ∈ subs, Readable sub := by
  obtain ⟨others, otherSplits, few, validSubs⟩ := valid.subs
  obtain rfl := splits.unique (by decide) otherSplits
  refine ⟨few, ?_⟩
  intro sub member
  exact {
    valid := validSubs sub member
    withoutDot := splits.whole sub member
    withoutSlash := splits.whole_pieces (by decide) valid.withoutSlash sub member
    withoutQuery := splits.whole_pieces (by decide) valid.withoutQuery sub member }

theorem formatSubSegment_of_canonical {sub : String} (nonempty : sub ≠ "")
    (canonical : isCanonicalSub sub = true) : formatSubSegment sub = .ok sub := by
  rw [formatSubSegment_eq]
  split_ifs with verbatim
  · rfl
  · simp only [isCanonicalSub, verbatim, Bool.false_or, all_eq_true,
      Bool.and_eq_true, decide_eq_true_eq, Bool.not_eq_true'] at canonical
    have plain : sub.toList.any needsQuoteInSlot = false := by
      rw [any_eq_false]
      intro character member
      simp [(canonical character member).2]
    refine (quoteSeg_eq_ok_iff nonempty).mpr ⟨?_, ?_, ?_⟩
    · intro member
      exact (canonical '"' member).1.1 rfl
    · intro member
      exact (canonical '\\' member).1.2 rfl
    · rw [plain]
      rfl

theorem ValidSegment.slotText {seg : String} (valid : ValidSegment seg) (canonical : ∀ subs,
        Splits '.' seg subs →
        ∀ sub ∈ subs, isCanonicalSub sub = true) : SlotText seg seg := by
  obtain ⟨subs, splits, -, validSubs⟩ := valid.subs
  refine ⟨subs, subs, splits, ?_, ?_, splits.joined⟩
  · intro sub member
    exact ⟨(validSubs sub member).nonempty, (validSubs sub member).printable⟩
  · rw [forall₂_same]
    intro sub member
    exact formatSubSegment_of_canonical (validSubs sub member).nonempty
      (canonical subs splits sub member)

theorem formats_canonicalText (accepted : ValidSegments segments)
    (isPath : IsPath segments mark path) (canonical : Canonical path) :
    Formats path path.slots (canonicalText path) where
  nonempty := canonical.nonempty
  validFile := isPath.validFile
  nested := (slots_of_isPath accepted isPath).1
  quotable := canonical.quotable
  slotTexts := by
    rw [forall₂_same]
    intro slot member
    have valid := accepted.valid slot (mem_segments_of_mem_slots accepted isPath member)
    exact valid.slotText (canonical.subs slot member)
  validSession := by
    intro session member
    have found := isPath.session
    rw [Option.mem_def.mp member] at found
    exact (session_of_extractSession found).1
  shape := rfl
  short := canonical.short
  withoutSentinel := canonical.withoutSentinel

theorem isInfix_unquoteSeg (seg : String) : (unquoteSeg seg).toList <:+: seg.toList := by
  simp only [unquoteSeg, inner]
  split_ifs
  · rw [String.toList_ofList]
    exact (List.dropLast_prefix _).isInfix.trans (drop_suffix 1 _).isInfix
  · exact infix_refl _

theorem head?_join_slots (slots : List String) :
    ∀ character ∈ (String.join (slots.map ("/" ++ ·))).toList.head?, character.toNat < 0x80 := by
  cases slots with
  | nil => simp
  | cons slot rest => simp [String.toList_append]

theorem head?_queryText (query : Option String) : ∀ character ∈ (queryText query).toList.head?,
      character.toNat < 0x80 := by
  cases query with
  | none => simp [queryText]
  | some query => simp [queryText, String.toList_append]

variable {normalize : String → String}

theorem normalize_canonicalText (nfc : NormalForm normalize)
    (normal : normalize text = text) (isText : IsText text segments mark)
    (isPath : IsPath segments mark path) : normalize (canonicalText path) = canonicalText path := by
  obtain ⟨-, sameSlots⟩ := slots_of_isPath isText.accepted isPath
  obtain ⟨fileSeg, rest, rfl⟩ := exists_cons_of_ne_nil isText.accepted.nonempty
  obtain rfl : rest = path.slots := sameSlots
  have shape := isText.shape
  rw [intercalate_cons_eq_join] at shape
  have occurs {part : String} (before after : String) (whole : text = before ++ part ++ after) :
      normalize part = part :=
    nfc.part before part after (by rw [← whole, normal])
  have schemeNormal : normalize ocScheme = ocScheme :=
    occurs "" _ (by rw [shape]; simp [String.append_assoc]; rfl)
  have slotsNormal : normalize (String.join (path.slots.map ("/" ++ ·))) =
        String.join (path.slots.map ("/" ++ ·)) :=
    occurs (ocScheme ++ fileSeg) (queryText mark) (by rw [shape]; simp only [String.append_assoc])
  have segNormal : normalize fileSeg = fileSeg :=
    occurs ocScheme (String.join (path.slots.map ("/" ++ ·)) ++ queryText mark)
      (by rw [shape]; simp only [String.append_assoc])
  have fileNormal : normalize path.file = path.file := by
    rw [isPath.file]
    exact nfc.of_isInfix segNormal (isInfix_unquoteSeg fileSeg)
  have fileTextNormal : normalize (ocScheme ++ canonicalFile path.file) =
        ocScheme ++ canonicalFile path.file := by
    by_cases needs : path.file.toList.any needsQuoteInFile = true
    · have emptyNormal : normalize "" = "" := nfc.of_isInfix normal (List.nil_infix)
      have quoteNormal : normalize "\"" = "\"" := by
        simpa using nfc.quote "" emptyNormal
      simp only [canonicalFile, needs, if_true]
      refine nfc.append ocScheme _ schemeNormal (nfc.quoted fileNormal quoteNormal) ?_
      simp [toList_quoted]
    · have startNormal : normalize "oc:/" = "oc:/" :=
        nfc.of_isInfix schemeNormal ⟨[], ['/'], by decide⟩
      have joined : ocScheme ++ canonicalFile path.file = "oc:/" ++ ("/" ++ path.file) := by
        rw [← String.append_assoc, canonicalFile, if_neg needs]
        rfl
      rw [joined]
      refine nfc.append "oc:/" _ startNormal (nfc.slash _ fileNormal) ?_
      simp [String.toList_append]
  have queryNormal : normalize (queryText (sessionMark path.session)) =
        queryText (sessionMark path.session) := by
    cases isSession : path.session with
    | none => exact nfc.of_isInfix normal (List.nil_infix)
    | some session =>
      have found := isPath.session
      rw [isSession] at found
      obtain ⟨-, -, inQuery⟩ := session_of_extractSession found
      cases mark with
      | none => cases found
      | some query =>
        have questionNormal : normalize "?" = "?" :=
          occurs (ocScheme ++ (fileSeg ++ String.join (path.slots.map ("/" ++ ·)))) query
            (by rw [shape]; simp only [queryText, String.append_assoc])
        have markNormal : normalize query = query :=
          occurs (ocScheme ++ (fileSeg ++ String.join (path.slots.map ("/" ++ ·))) ++ "?") ""
            (by
              rw [shape, String.append_empty]
              simp only [queryText, String.append_assoc])
        have sessionNormal := nfc.of_isInfix markNormal inQuery
        refine nfc.append "?" ("session=" ++ session) questionNormal sessionNormal ?_
        simp [String.toList_append]
  have pathNormal := nfc.append _ _ fileTextNormal slotsNormal (head?_join_slots path.slots)
  have wholeNormal :=
    nfc.append _ _ pathNormal queryNormal (head?_queryText (sessionMark path.session))
  simpa only [canonicalText, intercalate_cons_eq_join, String.append_assoc] using wholeNormal

/--
A parsed path that is canonical is formatted to its canonical text, which is
parsed to the same path.
-/
theorem format_of_parse {input : String} (nfc : NormalForm normalize)
    (parsed : parseOcPath normalize input = .ok path) (canonical : Canonical path) :
    ∃ text, formatOcPath path = .ok text ∧ parseOcPath normalize text = .ok path := by
  obtain ⟨-, segments, mark, isText, isPath⟩ := parseOcPath_eq_ok_iff.mp parsed
  have accepted := isText.accepted
  have formats := formats_canonicalText accepted isPath canonical
  have normal := normalize_canonicalText nfc (nfc.idempotent (withoutBom input)) isText isPath
  have readableSlots : ∀ slot ∈ path.slots, ReadableSlot slot := by
    intro slot member subs splits
    have valid := accepted.valid slot (mem_segments_of_mem_slots accepted isPath member)
    obtain ⟨few, readable⟩ := valid.readable splits
    exact ⟨few, fun sub subMember _ => readable sub subMember⟩
  have session : path.session ≠ some "" := by
    intro empty
    have found := isPath.session
    rw [empty] at found
    exact (session_of_extractSession found).2.1 rfl
  obtain ⟨reread, -⟩ :=
    parseOcPath_of_formats formats normal canonical.readable readableSlots session
  rw [formats.nested.withSlots_slots] at reread
  exact ⟨canonicalText path, formatOcPath_eq_ok_iff.mpr ⟨path.slots, formats⟩, reread⟩

end Canonical

section Instances

theorem normalForm_id : NormalForm id where
  idempotent _ := rfl
  part _ _ _ _ := rfl
  append _ _ _ _ _ := rfl
  slash _ _ := rfl
  quote _ _ := rfl

/-- A text with a quoted file, a union, a predicate and other parameters. -/
theorem format_of_parse_union :
    ∃ text,
      formatOcPath {
          file := "skills/email"
          sectionSlot := some "\"a.b\".[k=1.0]"
          itemSlot := some "\x7bx,y\x7d"
          fieldSlot := none
          session := some "daily" } = .ok text ∧
        parseOcPath id text = .ok {
          file := "skills/email"
          sectionSlot := some "\"a.b\".[k=1.0]"
          itemSlot := some "\x7bx,y\x7d"
          fieldSlot := none
          session := some "daily" } := by
  have first : Splits '.' "\"a.b\".[k=1.0]" ["\"a.b\"", "[k=1.0]"] :=
    Splits.of_split (by decide) (by decide +kernel)
  have second : Splits '.' "\x7bx,y\x7d" ["\x7bx,y\x7d"] :=
    Splits.of_split (by decide) (by decide +kernel)
  have parsed :
      parseOcPath id "oc://\"skills/email\"/\"a.b\".[k=1.0]/\x7bx,y\x7d?q=1&session=daily" = .ok {
          file := "skills/email"
          sectionSlot := some "\"a.b\".[k=1.0]"
          itemSlot := some "\x7bx,y\x7d"
          fieldSlot := none
          session := some "daily" } := by
    decide +kernel
  refine format_of_parse normalForm_id parsed {
    nonempty := by decide +kernel
    quotable := fun _ => by decide +kernel
    readable := fun plain => absurd plain (by decide +kernel)
    subs := ?_
    short := by decide +kernel
    withoutSentinel := by decide +kernel }
  intro slot member subs splits
  have cases : slot = "\"a.b\".[k=1.0]" ∨ slot = "\x7bx,y\x7d" := by
    simpa [OcPath.slots] using member
  rcases cases with rfl | rfl
  · obtain rfl := first.unique (by decide) splits
    decide +kernel
  · obtain rfl := second.unique (by decide) splits
    decide +kernel

/-- A path with the redaction sentinel is parsed but not formatted. -/
theorem not_format_of_parse_sentinel :
    ¬ ∀ normalize,
        NormalForm normalize →
        ∀ input path,
          parseOcPath normalize input = .ok path →
          ∃ text, formatOcPath path = .ok text ∧ parseOcPath normalize text = .ok path := by
  intro always
  obtain ⟨text, formatted, -⟩ :=
    always id normalForm_id "oc://AGENTS.md/__OPENCLAW_REDACTED__" {
      file := "AGENTS.md"
      sectionSlot := some "__OPENCLAW_REDACTED__"
      itemSlot := none
      fieldSlot := none
      session := none } (by decide +kernel)
  have refused : formatOcPath {
          file := "AGENTS.md"
          sectionSlot := some "__OPENCLAW_REDACTED__"
          itemSlot := none
          fieldSlot := none
          session := none } =
        .error (.sentinel "oc://AGENTS.md/__OPENCLAW_REDACTED__") := by
    decide +kernel
  rw [refused] at formatted
  cases formatted

/-- A path with a quoted file, a predicate and a raw slot with a blank. -/
private def draftPath : OcPath where
  file := "skills/email-drafter"
  sectionSlot := some "tools.[k=1.0]"
  itemSlot := some "a b"
  fieldSlot := none
  session := some "daily"

theorem parse_of_format_draft :
    ReadsBack id
      "oc://\"skills/email-drafter\"/tools.[k=1.0]/\"a b\"?session=daily"
      draftPath := by
  have tools : Splits '.' "tools.[k=1.0]" ["tools", "[k=1.0]"] :=
    Splits.of_split (by decide) (by decide +kernel)
  have blank : Splits '.' "a b" ["a b"] := Splits.of_split (by decide) (by decide +kernel)
  have predicate : Readable "[k=1.0]" :=
    ⟨by decide +kernel, by decide +kernel, by decide +kernel, by decide +kernel⟩
  refine parse_of_format (by decide +kernel) rfl ?_ ?_ (by decide +kernel)
  · intro plain
    exact absurd plain (by decide +kernel)
  · intro slot member
    have cases : slot = "tools.[k=1.0]" ∨ slot = "a b" := by
      simpa [draftPath, OcPath.slots] using member
    rcases cases with rfl | rfl
    · refine readableSlot_of_splits tools (by decide) ?_
      intro sub subMember verbatim
      have subCases : sub = "tools" ∨ sub = "[k=1.0]" := by
        simpa using subMember
      rcases subCases with rfl | rfl
      · exact absurd verbatim (by decide +kernel)
      · exact predicate
    · refine readableSlot_of_splits blank (by decide) ?_
      intro sub subMember verbatim
      obtain rfl := mem_singleton.mp subMember
      exact absurd verbatim (by decide +kernel)

/-- The normalizer on texts whose only combining mark is an acute on `e`. -/
private def composeAcute (text : String) : String := String.ofList (go text.toList)
where
  go : List Char → List Char
    | 'e' :: '\u0301' :: rest => 'é' :: go rest
    | character :: rest => character :: go rest
    | [] => []

/-- A file that is not normalized is read back normalized. -/
theorem parse_of_format_not_normalized :
    ¬ ∀ (path : OcPath) text,
        formatOcPath path = .ok text →
        ReadsBack composeAcute text path := by
  intro always
  let path : OcPath := {
    file := "cafe\u0301.md"
    sectionSlot := none
    itemSlot := none
    fieldSlot := none
    session := none }
  obtain ⟨parsed, read, sameFile, -⟩ := always path "oc://cafe\u0301.md" (by decide +kernel)
  have composed : parseOcPath composeAcute "oc://cafe\u0301.md" =
        .ok { path with file := "café.md" } := by
    decide +kernel
  rw [composed] at read
  obtain rfl := Except.ok.inj read
  exact absurd sameFile (by decide +kernel)

end Instances

end OcPathSyntax
