import AieClaw.JsString
import AieClaw.JsonValue
import AieClaw.Utf8Decoding

/-!
# Watching a progress file

A script appends lines to its progress file, and the watcher polls the file. Each
poll decodes the bytes behind the ones it has read and keeps the start of a line
that is not complete for the next.
-/

namespace ProgressWatcher

open Utf8 List

structure WatchEntry where
  sessionKey : String
  skill : String
  /-- The bytes of the file that have been read. -/
  offset : ℕ
  /-- The start of a line whose end has not been read. -/
  remainder : List Char

structure SkillProgress where
  sessionKey : String
  skill : String
  progress : JsonValue
  ts : Option JsonValue

/-- The bytes of the file at a poll, unless it cannot be read, and the time. -/
structure Poll where
  file : Option (List UInt8)
  now : ℤ

def startWatch (sessionKey skill : String) : WatchEntry := ⟨sessionKey, skill, 0, []⟩

section Lines

/-- The text before the last line feed, and the text behind it. -/
def splitLast : List Char → Option (List Char × List Char)
  | [] => none
  | character :: rest =>
    match splitLast rest with
    | some (complete, remainder) => some (character :: complete, remainder)
    | none => if character = '\n' then some ([], rest) else none

/-- The lines of a text that are ended by a line feed. -/
def completeLines (text : List Char) : List (List Char) := (text.splitOn '\n').dropLast

private theorem splitLast_spec (text : List Char) : (splitLast text = none ∧ '\n' ∉ text) ∨
      ∃ complete remainder, splitLast text = some (complete, remainder) ∧
        text = complete ++ '\n' :: remainder ∧ '\n' ∉ remainder := by
  induction text with
  | nil => exact .inl ⟨rfl, not_mem_nil⟩
  | cons character rest inductionHypothesis =>
    rcases inductionHypothesis with ⟨none, absent⟩ | ⟨complete, remainder, found, shape, absent⟩
    · by_cases feed : character = '\n'
      · exact .inr ⟨[], rest, by simp [splitLast, none, feed], by simp [feed], absent⟩
      · exact .inl ⟨by simp [splitLast, none, feed], by simp [absent, Ne.symm feed]⟩
    · exact .inr
        ⟨character :: complete, remainder, by simp [splitLast, found], by simp [shape], absent⟩

private theorem completeLines_of_not_mem {text : List Char} (absent : '\n' ∉ text) :
    completeLines text = [] := by
  rw [completeLines, splitOn_eq_singleton absent, dropLast_singleton]

private theorem completeLines_append (complete later : List Char) :
    completeLines (complete ++ '\n' :: later) = complete.splitOn '\n' ++ completeLines later := by
  rw [completeLines, splitOn_append_cons_self,
    dropLast_append_of_ne_nil (splitOn_ne_nil '\n' later), completeLines]

private theorem splitLast_lines (text : List Char) :
    (splitLast text = none ∧ completeLines text = []) ∨
      ∃ complete remainder, splitLast text = some (complete, remainder) ∧
        completeLines text = complete.splitOn '\n' ∧
        ∀ later, completeLines (text ++ later) =
          completeLines text ++ completeLines (remainder ++ later) := by
  rcases splitLast_spec text with ⟨none, absent⟩ | ⟨complete, remainder, found, shape, absent⟩
  · exact .inl ⟨none, completeLines_of_not_mem absent⟩
  · have lines : completeLines text = complete.splitOn '\n' := by
      rw [shape, completeLines_append, completeLines_of_not_mem absent, append_nil]
    refine .inr ⟨complete, remainder, found, lines, fun later => ?_⟩
    rw [lines, shape, append_assoc, cons_append, completeLines_append]

end Lines

section Emission

variable (parse : String → Option JsonValue)

/-- The progress of a line, unless it is blank, malformed or lacks a member. -/
def parseLine (line : List Char) : Option JsonValue :=
  if JsString.trim (String.ofList line) = "" then none
  else
    (parse (String.ofList line)).filter fun parsed =>
      (parsed.member? "type").any JsonValue.isTruthy &&
        (parsed.member? "skill").any JsonValue.isTruthy

def isDone (progress : JsonValue) : Bool :=
  (progress.member? "type").bind JsonValue.asString? = some "done"

/-- What is emitted for the lines, and whether completion was signalled. -/
def emitLines (entry : WatchEntry) (now : ℤ) : List (List Char) → List SkillProgress × Bool
  | [] => ([], false)
  | line :: lines =>
    match parseLine parse line with
    | none => emitLines entry now lines
    | some progress =>
      let ts := JsonValue.orNullish (progress.member? "ts") (some (.number (.finite now)))
      let event : SkillProgress := ⟨entry.sessionKey, entry.skill, progress, ts⟩
      if isDone progress then ([event], true)
      else
        let later := emitLines entry now lines
        (event :: later.1, later.2)

def poll (entry : WatchEntry) (seen : Poll) : Option WatchEntry × List SkillProgress :=
  match seen.file with
  | none => (some entry, [])
  | some bytes =>
    let offset := if bytes.length < entry.offset then 0 else entry.offset
    if bytes.length ≤ offset then (some { entry with offset := offset }, [])
    else
      let content := entry.remainder ++ decode (bytes.drop offset)
      match splitLast content with
      | none => (some { entry with offset := bytes.length, remainder := content }, [])
      | some (complete, remainder) =>
        let read := { entry with offset := bytes.length, remainder := remainder }
        let emitted := emitLines parse read seen.now (complete.splitOn '\n')
        (if emitted.2 then none else some read, emitted.1)

/-- What is emitted by the polls, one after the other, until the watch is stopped. -/
def run : Option WatchEntry → List Poll → List SkillProgress
  | none, _ => []
  | some _, [] => []
  | some entry, seen :: polls => (poll parse entry seen).2 ++ run (poll parse entry seen).1 polls

/-- The file only grows from poll to poll. -/
def AppendOnly : List UInt8 → List Poll → Prop
  | _, [] => True
  | content, seen :: polls =>
    content <+: seen.file.getD content ∧ AppendOnly (seen.file.getD content) polls

/-- The content of the file at the last poll that read it. -/
def contentAfter (content : List UInt8) (polls : List Poll) : List UInt8 :=
  polls.foldl (fun content seen => seen.file.getD content) content

/-- The entries up to the first that signals completion. -/
def upToDone : List JsonValue → List JsonValue
  | [] => []
  | progress :: later => if isDone progress then [progress] else progress :: upToDone later

def entries (content : List UInt8) : List JsonValue :=
  (completeLines (decode content)).filterMap (parseLine parse)

private theorem emitLines_spec (entry : WatchEntry) (now : ℤ) (lines : List (List Char)) :
    (emitLines parse entry now lines).1.map SkillProgress.progress =
        upToDone (lines.filterMap (parseLine parse)) ∧
      (emitLines parse entry now lines).2 = (lines.filterMap (parseLine parse)).any isDone := by
  induction lines with
  | nil => exact ⟨rfl, rfl⟩
  | cons line lines inductionHypothesis =>
    cases parsed : parseLine parse line with
    | none => simpa [emitLines, parsed] using inductionHypothesis
    | some progress =>
      cases done : isDone progress with
      | true => simp [emitLines, parsed, done, upToDone]
      | false => simpa [emitLines, parsed, done, upToDone] using inductionHypothesis

private theorem upToDone_append_of_done {earlier : List JsonValue} (later : List JsonValue)
    (done : earlier.any isDone = true) : upToDone (earlier ++ later) = upToDone earlier := by
  induction earlier with
  | nil => simp at done
  | cons progress rest inductionHypothesis =>
    cases first : isDone progress with
    | true => simp [upToDone, first]
    | false =>
      rw [any_cons, first, Bool.false_or] at done
      simp [upToDone, first, inductionHypothesis done]

private theorem upToDone_append_of_running {earlier : List JsonValue} (later : List JsonValue)
    (running : earlier.any isDone = false) :
    upToDone (earlier ++ later) = earlier ++ upToDone later := by
  induction earlier with
  | nil => rfl
  | cons progress rest inductionHypothesis =>
    rw [any_cons, Bool.or_eq_false_iff] at running
    simp [upToDone, running.1, inductionHypothesis running.2]

private theorem upToDone_of_running {entries : List JsonValue}
    (running : entries.any isDone = false) : upToDone entries = entries := by
  simpa [upToDone] using upToDone_append_of_running [] running

/-- The watch has read the content, and none of its complete lines signals completion. -/
structure Follows (entry : WatchEntry) (content : List UInt8) : Prop where
  offset : entry.offset = content.length
  whole : EndsWhole content
  lines : ∀ later, completeLines (decode content ++ later) =
    completeLines (decode content) ++ completeLines (entry.remainder ++ later)
  running : (entries parse content).any isDone = false

variable {entry : WatchEntry} {content : List UInt8}

section

variable (follows : Follows parse entry content)
include follows

private theorem Follows.entries_append (added : List UInt8) :
    entries parse (content ++ added) = entries parse content ++
      (completeLines (entry.remainder ++ decode added)).filterMap (parseLine parse) := by
  rw [entries, decode_append follows.whole, follows.lines, filterMap_append, entries]

private theorem Follows.extend {added : List UInt8} (whole : EndsWhole (content ++ added))
    (running : ((completeLines (entry.remainder ++ decode added)).filterMap
      (parseLine parse)).any isDone = false)
    {after : WatchEntry} (offset : after.offset = (content ++ added).length)
    (lines : ∀ later, completeLines (entry.remainder ++ decode added ++ later) =
      completeLines (entry.remainder ++ decode added) ++
        completeLines (after.remainder ++ later)) : Follows parse after (content ++ added) where
  offset := offset
  whole := whole
  lines later := by
    rw [decode_append follows.whole, append_assoc, follows.lines, follows.lines,
      ← append_assoc entry.remainder, lines, append_assoc]
  running := by
    rw [follows.entries_append, any_append, follows.running, running]
    rfl

/-- One poll of a file that grew emits the entries of the lines that it completes. -/
private theorem poll_spec {added : List UInt8}
    (whole : EndsWhole (content ++ added)) (now : ℤ) {fresh : List JsonValue} (isFresh : fresh =
      (completeLines (entry.remainder ++ decode added)).filterMap (parseLine parse))
    {outcome : Option WatchEntry × List SkillProgress}
    (polled : poll parse entry ⟨some (content ++ added), now⟩ = outcome) :
    outcome.2.map SkillProgress.progress = upToDone fresh ∧
      ((fresh.any isDone = true ∧ outcome.1 = none) ∨
        (fresh.any isDone = false ∧
          ∃ after, outcome.1 = some after ∧ Follows parse after (content ++ added))) := by
  have offset : (if (content ++ added).length < entry.offset then 0 else entry.offset) =
      content.length := by
    rw [follows.offset, if_neg (by simp)]
  simp only [poll, offset] at polled
  by_cases grown : added = []
  · subst grown
    have same := follows.entries_append parse []
    rw [append_nil, ← isFresh, self_eq_append_right] at same
    rw [if_pos (by simp), ← follows.offset] at polled
    subst polled
    rw [same, append_nil]
    exact ⟨rfl, .inr ⟨rfl, entry, rfl, follows⟩⟩
  rw [if_neg (by simpa using grown), drop_left] at polled
  rcases splitLast_lines (entry.remainder ++ decode added) with
    ⟨none, noLines⟩ | ⟨complete, remainder, found, lines, continues⟩
  · rw [none] at polled
    subst polled
    rw [noLines, filterMap_nil] at isFresh
    subst isFresh
    refine ⟨rfl, .inr ⟨rfl, _, rfl, follows.extend parse whole ?_ rfl fun later => ?_⟩⟩
    · rw [noLines]
      rfl
    · rw [noLines, nil_append]
  · rw [found] at polled
    subst polled
    rw [lines] at isFresh
    obtain ⟨emitted, done⟩ := emitLines_spec parse
      { entry with offset := (content ++ added).length, remainder := remainder } now
      (complete.splitOn '\n')
    rw [← isFresh] at emitted done
    refine ⟨emitted, ?_⟩
    simp only [done]
    cases completes : fresh.any isDone with
    | true => exact .inl ⟨rfl, rfl⟩
    | false =>
      refine .inr ⟨rfl, _, rfl, follows.extend parse whole ?_ rfl continues⟩
      rw [lines, ← isFresh, completes]

end

private theorem entries_append (whole : EndsWhole content) (added : List UInt8) :
    entries parse content <+: entries parse (content ++ added) := by
  rw [entries, entries, decode_append whole]
  refine List.IsPrefix.filterMap _ ?_
  rcases splitLast_lines (decode content) with ⟨_, noLines⟩ | ⟨_, _, _, _, continues⟩
  · rw [noLines]
    exact nil_prefix
  · rw [continues]
    exact prefix_append _ _

private theorem prefix_contentAfter {polls : List Poll} (appended : AppendOnly content polls) :
    content <+: contentAfter content polls := by
  induction polls generalizing content with
  | nil => exact prefix_rfl
  | cons seen polls inductionHypothesis => exact appended.1.trans (inductionHypothesis appended.2)

private theorem run_spec {polls : List Poll} (follows : Follows parse entry content)
    (appended : AppendOnly content polls)
    (whole : ∀ seen ∈ polls, ∀ bytes ∈ seen.file, EndsWhole bytes) :
    upToDone (entries parse (contentAfter content polls)) =
      entries parse content ++ (run parse (some entry) polls).map SkillProgress.progress := by
  induction polls generalizing entry content with
  | nil => exact (upToDone_of_running follows.running).trans (append_nil _).symm
  | cons seen polls inductionHypothesis =>
    have later := fun other member => whole other (.tail seen member)
    obtain ⟨file, now⟩ := seen
    cases file with
    | none => exact inductionHypothesis follows appended.2 later
    | some bytes =>
      obtain ⟨added, rfl⟩ := appended.1
      have wholeHere := whole _ mem_cons_self _ rfl
      obtain ⟨emitted, outcome⟩ := poll_spec parse follows wholeHere now rfl rfl
      have entriesHere := follows.entries_append parse added
      rw [run, map_append, emitted]
      rcases outcome with ⟨done, stopped⟩ | ⟨running, after, watching, followsAfter⟩
      · -- the watch is stopped; what is appended later does not matter
        obtain ⟨more, grown⟩ :=
          prefix_contentAfter (show AppendOnly (content ++ added) polls from appended.2)
        obtain ⟨rest, longer⟩ := entries_append parse wholeHere more
        rw [stopped, run, map_nil, append_nil]
        change upToDone (entries parse (contentAfter (content ++ added) polls)) = _
        rw [← grown, ← longer, entriesHere, append_assoc,
          upToDone_append_of_running _ follows.running, upToDone_append_of_done _ done]
      · have rest := inductionHypothesis followsAfter appended.2 later
        rw [watching, upToDone_of_running running]
        change upToDone (entries parse (contentAfter (content ++ added) polls)) = _
        rw [rest, entriesHere, append_assoc]

/--
If no poll ends inside a character, what the watcher has emitted after any number
of polls is what is read from the content at once, up to the completion.
-/
theorem run_eq_upToDone (sessionKey skill : String) {polls : List Poll}
    (appended : AppendOnly [] polls)
    (whole : ∀ seen ∈ polls, ∀ bytes ∈ seen.file, EndsWhole bytes) :
    (run parse (some (startWatch sessionKey skill)) polls).map SkillProgress.progress =
      upToDone (entries parse (contentAfter [] polls)) := by
  have follows : Follows parse (startWatch sessionKey skill) [] :=
    ⟨rfl, rfl, fun later => rfl, rfl⟩
  rw [run_spec parse follows appended whole]
  rfl

/-- The bytes of an entry up to its skill, which is not a text of ASCII letters. -/
private def opening : List UInt8 :=
  "\x7b\"type\":\"log\",\"skill\":\"".toList.map fun character => UInt8.ofNat character.toNat

/-- The values of the two texts that are parsed below. -/
private def parseLog (line : String) : Option JsonValue :=
  if line = "\x7b\"type\":\"log\",\"skill\":\"é\"\x7d" then
    some (.object [("type", .string "log"), ("skill", .string "é")])
  else if line = "\x7b\"type\":\"log\",\"skill\":\"��\"\x7d" then
    some (.object [("type", .string "log"), ("skill", .string "��")])
  else none

private def skills (progress : List JsonValue) : List (Option String) :=
  progress.map fun entry => (entry.member? "skill").bind JsonValue.asString?

private def wholeLine : List UInt8 := opening ++ [0xC3, 0xA9, 34, 125, 10]

/-- The file is missing at first, then ends inside an entry, and gets one entry after another. -/
private def growingPolls : List Poll :=
  [⟨none, 0⟩, ⟨some (opening ++ [0xC3, 0xA9]), 2000⟩, ⟨some wholeLine, 4000⟩,
    ⟨some (wholeLine ++ wholeLine), 6000⟩]

theorem run_eq_upToDone_whole :
    (run parseLog (some (startWatch "main" "report")) growingPolls).map SkillProgress.progress =
        upToDone (entries parseLog (wholeLine ++ wholeLine)) ∧
      (entries parseLog (wholeLine ++ wholeLine)).length = 2 := by
  have appended : AppendOnly [] growingPolls :=
    ⟨List.nil_prefix, List.nil_prefix, (prefix_append_right_inj opening).mpr ⟨[34, 125, 10], rfl⟩,
      prefix_append _ _, trivial⟩
  refine ⟨run_eq_upToDone parseLog "main" "report" appended ?_, by decide +kernel⟩
  intro seen member bytes isFile
  have whole : ∀ seen ∈ growingPolls, ∀ bytes ∈ seen.file.toList, EndsWhole bytes := by
    decide +kernel
  exact whole seen member bytes (Option.mem_toList.mpr isFile)

/-- A poll between the two bytes of a letter reads it as two unknown characters. -/
theorem not_run_eq_upToDone_split :
    ¬ ∀ (parse : String → Option JsonValue) (polls : List Poll), AppendOnly [] polls →
      (run parse (some (startWatch "main" "report")) polls).map SkillProgress.progress =
        upToDone (entries parse (contentAfter [] polls)) := by
  intro agrees
  have appended : AppendOnly []
      [⟨some (opening ++ [0xC3]), 0⟩, ⟨some (opening ++ [0xC3] ++ [0xA9, 34, 125, 10]), 2000⟩] :=
    ⟨List.nil_prefix, prefix_append _ _, trivial⟩
  have same := congrArg skills (agrees parseLog _ appended)
  revert same
  decide +kernel

end Emission

end ProgressWatcher
