import SkillAudit.Proofs.Script.Judgements
import SkillAudit.Proofs.Script.Verdicts
import SkillAudit.Proofs.Text.Occurrences
import SkillAudit.Proofs.Text.Segments

/-!
# What a shell says of a script

A shell that cannot parse a script writes lines to its error stream, each with the path of the
script in front of a message.  The judgement takes the first line that is not blank, trims it, looks
for the words of a syntax error in it, and only then drops the path.  So the words may also be found
in the path, a path that starts with blanks is not dropped, and what a later line says does not
count.

* `judgeShell_eq_invalid_iff`, `judgeShell_of_isFirst`: the judgement in terms of the first line.
* `IsMessage.mentionsSyntaxError_iff`, `IsMessage.dropPath_eq`: a line and its message.
* `shell_blames_iff`: when a script is blamed; for most paths the message decides.
* `shell_blames_for_path`: a script that is blamed for its path.
* `shell_reports_iff_first`: a syntax error on any line is reported exactly if the first line speaks
  of one.
* `shell_passes_over_second`: a syntax error on the second line that is not reported.
-/

namespace SkillAudit
namespace Script

section Lines

/-- The lines that a run wrote to its error stream. -/
def Run.errorLines (run : Run) : List (List Char) :=
  Text.lines (Text.Utf8.decodeLenient run.errors).toList

/-- The first line of the error stream that is not blank. -/
def Run.IsFirst (run : Run) (line : List Char) : Prop :=
  IsFirstOf run.errorLines line

/-- The words by which a shell calls something a syntax error. -/
def MentionsSyntaxError (text : List Char) : Prop :=
  "syntax error".toList <:+: text

instance (text : List Char) : Decidable (MentionsSyntaxError text) :=
  inferInstanceAs (Decidable ("syntax error".toList <:+: text))

/-- The words begin and end with letters. -/
theorem not_isBlank_of_syntaxError :
    ∀ c, "syntax error".toList.head? = some c ∨ "syntax error".toList.getLast? = some c →
      Text.isBlank c = false := by
  rintro c (h | h) <;> cases h <;> decide

theorem mentionsSyntaxError_trim_iff
    (line : List Char) :
    MentionsSyntaxError (Text.trim line) ↔ MentionsSyntaxError line :=
  Text.infix_trim_iff not_isBlank_of_syntaxError line

/-- Behind a path and a colon the words stand where they stand in the path or in the message. -/
theorem mentionsSyntaxError_append_iff
    {file : String}
    {rest : List Char} :
    MentionsSyntaxError ((file ++ ": ").toList ++ rest) ↔
      MentionsSyntaxError file.toList ∨ MentionsSyntaxError rest := by
  have hcolon : ':' ∉ "syntax error".toList := by
    decide
  have hspace : ∀ c ∈ [' '], Text.isBlank c = true :=
    List.forall_mem_singleton.2 (by decide)
  have hparts : (file ++ ": ").toList ++ rest = file.toList ++ ':' :: ([' '] ++ rest) := by
    simp
  rw [MentionsSyntaxError, hparts, Text.infix_append_cons_iff hcolon,
    Text.infix_blanks_append_iff (fun c hc => not_isBlank_of_syntaxError c (Or.inl hc)) hspace]
  rfl

/-- A line with the words is not blank. -/
theorem MentionsSyntaxError.not_isBlankLine
    {line : List Char}
    (h : MentionsSyntaxError line) :
    ¬ IsBlankLine line := by
  intro hblank
  have hletter : 's' ∈ line := h.subset (by decide)
  exact absurd (hblank 's' hletter) (by decide)

theorem Run.IsFirst.unique
    {run : Run}
    {line other : List Char}
    (h : run.IsFirst line)
    (hother : run.IsFirst other) :
    line = other :=
  IsFirstOf.unique h hother

end Lines

section Judgement

/-- A text without the path and the colon that it may start with. -/
def dropPath (file : String) (text : List Char) : List Char :=
  (List.isPrefixOf? (file ++ ": ").toList text).getD text

/-- The judgement asks for the words before it drops the path. -/
theorem judgeShell_of_firstLine
    {file : String}
    {run : Run}
    {taken : List Char}
    (hexit : run.exitCode ≠ some 0)
    (htaken : (firstLine (Text.Utf8.decodeLenient run.errors)).toList = taken) :
    Language.judgeShell file run =
      if MentionsSyntaxError taken then .invalid (String.ofList (dropPath file taken))
      else .unchecked := by
  have hwords : Text.occursIn "syntax error".toList taken = true ↔ MentionsSyntaxError taken :=
    Text.occursIn_iff
  simp only [Language.judgeShell, if_neg hexit, htaken, hwords, dropPath]
  split
  · split
    · next rest hrest =>
        rw [hrest, Option.getD_some]
    · next hnone =>
        rw [hnone, Option.getD_none, ← htaken, String.ofList_toList]
  · rfl

/-- A run that fails is judged by its first line. -/
theorem judgeShell_of_isFirst
    {run : Run}
    {line : List Char}
    (hexit : run.exitCode ≠ some 0)
    (hline : run.IsFirst line)
    (file : String) :
    Language.judgeShell file run =
      if MentionsSyntaxError line then .invalid (String.ofList (dropPath file (Text.trim line)))
      else .unchecked := by
  have htaken : (firstLine (Text.Utf8.decodeLenient run.errors)).toList = Text.trim line := by
    rw [firstLine_of_isFirst hline, String.toList_ofList]
  simp only [judgeShell_of_firstLine hexit htaken, mentionsSyntaxError_trim_iff]

/-- A script is found invalid if the first line has the words; what is said is that line without the
path. -/
theorem judgeShell_eq_invalid_iff
    {file detail : String}
    {run : Run} :
    Language.judgeShell file run = .invalid detail ↔
      run.exitCode ≠ some 0 ∧
        ∃ line, run.IsFirst line ∧ MentionsSyntaxError line ∧
          detail = String.ofList (dropPath file (Text.trim line)) := by
  by_cases hexit : run.exitCode = some 0
  · simp [Language.judgeShell, hexit]
  rcases exists_isFirst_or_blank run.errorLines with ⟨line, hline⟩ | hblank
  · rw [judgeShell_of_isFirst hexit hline]
    constructor
    · intro h
      split at h
      · next hwords => exact ⟨hexit, line, hline, hwords, (Outcome.invalid.inj h).symm⟩
      · cases h
    · rintro ⟨-, other, hother, hwords, rfl⟩
      obtain rfl := hline.unique hother
      exact if_pos hwords
  · rw [judgeShell_of_firstLine hexit (congrArg String.toList (firstLine_of_blank hblank))]
    constructor
    · intro h
      cases h
    · rintro ⟨-, line, ⟨before, after, hlines, -, hline⟩, -⟩
      exact absurd (hblank line (by simp [hlines])) hline

/-- A shell is asked for its judgement of a file. -/
theorem checkFile_shell_eq_invalid_iff
    {tools : Toolchain}
    {program file shown detail : String} :
    checkFile tools .shell program file shown = .invalid detail ↔
      ∃ run, tools.launch program ["-n", file] = some run ∧
        Language.judgeShell file run = .invalid detail := by
  rw [checkFile, Language.arguments]
  cases tools.launch program ["-n", file] <;> simp [Language.judge]

end Judgement

section Messages

/-- The message of a line about a file: what stands behind the path, which may have blanks in front
of it, or the whole line if the path is not there; blanks at the end do not count. -/
inductive IsMessage (file : String) (line : List Char) : List Char → Prop
  | behindPath
      {before rest : List Char}
      (hbefore : IsBlankLine before)
      (hline : line = before ++ ((file ++ ": ").toList ++ rest)) :
      IsMessage file line (Text.trimEnd rest)
  | whole
      (hplain : ∀ before rest, IsBlankLine before →
        line ≠ before ++ ((file ++ ": ").toList ++ rest)) :
      IsMessage file line (Text.trim line)

theorem exists_isMessage
    (file : String)
    (line : List Char) :
    ∃ message, IsMessage file line message := by
  by_cases h : ∃ before rest, IsBlankLine before ∧ line = before ++ ((file ++ ": ").toList ++ rest)
  · obtain ⟨before, rest, hbefore, hline⟩ := h
    exact ⟨_, .behindPath hbefore hline⟩
  · exact ⟨_, .whole fun before rest hbefore hline => h ⟨before, rest, hbefore, hline⟩⟩

/-- A message stands in its line. -/
theorem IsMessage.isInfix
    {file : String}
    {line message : List Char}
    (h : IsMessage file line message) :
    message <:+: line := by
  cases h with
  | behindPath hbefore hline =>
      rw [hline, ← List.append_assoc]
      exact (Text.trimEnd_isPrefix _).isInfix.trans (List.suffix_append _ _).isInfix
  | whole hplain =>
      exact Text.trim_isInfix line

/-- The path does not start with a blank. -/
def StartsPlain (file : String) : Prop :=
  ∀ c, file.toList.head? = some c → Text.isBlank c = false

variable {file : String}
variable {line message : List Char}

/-- Trimming keeps a path in front of a message, unless the message is blank. -/
theorem trim_behindPath
    (hfile : StartsPlain file)
    {before rest : List Char}
    (hbefore : IsBlankLine before)
    (hrest : ¬ IsBlankLine rest) :
    Text.trim (before ++ ((file ++ ": ").toList ++ rest)) =
      (file ++ ": ").toList ++ Text.trimEnd rest := by
  have hhead : ∀ c, ((file ++ ": ").toList ++ rest).head? = some c → Text.isBlank c = false := by
    intro c hc
    rw [String.toList_append, List.append_assoc, List.head?_append] at hc
    cases hpath : file.toList.head? with
    | none =>
        rw [hpath] at hc
        cases hc
        decide
    | some first =>
        rw [hpath] at hc
        exact hfile c (hpath.trans hc)
  rw [Text.trim_blanks_append hbefore, Text.trim, Text.dropWhile_isBlank_eq_self hhead]
  exact Text.trimEnd_append_of_not_blank hrest _

theorem dropPath_append
    (file : String)
    (rest : List Char) :
    dropPath file ((file ++ ": ").toList ++ rest) = rest := by
  rw [dropPath, List.isPrefixOf?_eq_some_iff_append_eq.2 rfl, Option.getD_some]

/-- Behind a path without the words, a line has the words if its message has them. -/
theorem IsMessage.mentionsSyntaxError_iff
    (hwords : ¬ MentionsSyntaxError file.toList)
    (h : IsMessage file line message) :
    MentionsSyntaxError line ↔ MentionsSyntaxError message := by
  cases h with
  | @behindPath before rest hbefore hline =>
      have hrest : MentionsSyntaxError (Text.trimEnd rest) ↔ MentionsSyntaxError rest :=
        Text.infix_trimEnd_iff (fun c hc => not_isBlank_of_syntaxError c (Or.inr hc)) rest
      have hpath : MentionsSyntaxError line ↔
          MentionsSyntaxError ((file ++ ": ").toList ++ rest) := by
        rw [hline]
        exact Text.infix_blanks_append_iff
          (fun c hc => not_isBlank_of_syntaxError c (Or.inl hc)) hbefore _
      rw [hpath, mentionsSyntaxError_append_iff, or_iff_right hwords, hrest]
  | whole hplain =>
      exact (mentionsSyntaxError_trim_iff line).symm

/-- Behind a path that does not start with a blank, a message with the words is what is left of the
line. -/
theorem IsMessage.dropPath_eq
    (hfile : StartsPlain file)
    (hwords : MentionsSyntaxError message)
    (h : IsMessage file line message) :
    dropPath file (Text.trim line) = message := by
  cases h with
  | @behindPath before rest hbefore hline =>
      have hrest : MentionsSyntaxError rest := hwords.trans (Text.trimEnd_isPrefix rest).isInfix
      rw [hline, trim_behindPath hfile hbefore hrest.not_isBlankLine, dropPath_append]
  | whole hplain =>
      rw [dropPath]
      cases hdrop : List.isPrefixOf? (file ++ ": ").toList (Text.trim line) with
      | none => rfl
      | some rest =>
          -- The path would stand in the line, with blanks around what the line is without them.
          obtain ⟨before, after, hbefore, -, hline⟩ := Text.exists_eq_append_trim line
          rw [← List.isPrefixOf?_eq_some_iff_append_eq.1 hdrop, List.append_assoc] at hline
          exact absurd hline (hplain before _ hbefore)

/--
A shell script is found invalid exactly if its shell was started, did not succeed, and wrote a first
line with the words of a syntax error in it; what is said is that line without the path.  Where the
path of the script has no such words and does not start with a blank, this is so exactly if the
message of the first line has the words, and what is said is the message.
-/
theorem shell_blames_iff
    (tools : Toolchain)
    (program file shown : String) :
    (∀ detail, checkFile tools .shell program file shown = .invalid detail ↔
      ∃ run line, tools.launch program ["-n", file] = some run ∧ run.exitCode ≠ some 0 ∧
        run.IsFirst line ∧ MentionsSyntaxError line ∧
        detail = String.ofList (dropPath file (Text.trim line))) ∧
    (StartsPlain file → ¬ MentionsSyntaxError file.toList →
      ∀ detail, checkFile tools .shell program file shown = .invalid detail ↔
        ∃ run line message, tools.launch program ["-n", file] = some run ∧
          run.exitCode ≠ some 0 ∧ run.IsFirst line ∧ IsMessage file line message ∧
          MentionsSyntaxError message ∧ detail = String.ofList message) := by
  have hlaw : ∀ detail, checkFile tools .shell program file shown = .invalid detail ↔
      ∃ run line, tools.launch program ["-n", file] = some run ∧ run.exitCode ≠ some 0 ∧
        run.IsFirst line ∧ MentionsSyntaxError line ∧
        detail = String.ofList (dropPath file (Text.trim line)) := by
    intro detail
    simp only [checkFile_shell_eq_invalid_iff, judgeShell_eq_invalid_iff, ← exists_and_left]
  refine ⟨hlaw, fun hfile hwords detail => (hlaw detail).trans ?_⟩
  constructor
  · rintro ⟨run, line, hrun, hexit, hline, hmentions, rfl⟩
    obtain ⟨message, hmessage⟩ := exists_isMessage file line
    have hblamed := (hmessage.mentionsSyntaxError_iff hwords).1 hmentions
    have hleft := hmessage.dropPath_eq hfile hblamed
    exact ⟨run, line, message, hrun, hexit, hline, hmessage, hblamed, by rw [hleft]⟩
  · rintro ⟨run, line, message, hrun, hexit, hline, hmessage, hblamed, rfl⟩
    have hmentions := (hmessage.mentionsSyntaxError_iff hwords).2 hblamed
    have hleft := hmessage.dropPath_eq hfile hblamed
    exact ⟨run, line, hrun, hexit, hline, hmentions, by rw [hleft]⟩

/-- A line that a shell writes about a file. -/
def lineAbout (file message : String) : List Char :=
  (file ++ ": ").toList ++ message.toList

theorem isMessage_lineAbout
    (file message : String) :
    IsMessage file (lineAbout file message) (Text.trimEnd message.toList) :=
  @IsMessage.behindPath _ _ [] _ isBlankLine_nil rfl

theorem dropPath_trim_lineAbout
    {message : String}
    (hfile : StartsPlain file)
    (hmessage : ¬ IsBlankLine message.toList) :
    dropPath file (Text.trim (lineAbout file message)) = Text.trimEnd message.toList := by
  have htrim := trim_behindPath hfile isBlankLine_nil hmessage
  rw [List.nil_append] at htrim
  rw [lineAbout, htrim, dropPath_append]

/-- A run that fails with these lines on its error stream. -/
def failedRun (lines : List (List Char)) : Run where
  exitCode := some 2
  output := []
  errors := Text.toBytes (lines.map (· ++ ['\n'])).flatten

/-- The characters of a line are printed ones below 128. -/
def IsPlainLine (line : List Char) : Prop :=
  ∀ c ∈ line, 0x20 ≤ c.toNat ∧ c.toNat < 0x80

theorem exitCode_failedRun
    (lines : List (List Char)) :
    (failedRun lines).exitCode ≠ some 0 :=
  nofun

/-- Plain lines are read as they were written. -/
theorem errorLines_failedRun
    {lines : List (List Char)}
    (h : ∀ line ∈ lines, IsPlainLine line) :
    (failedRun lines).errorLines = lines := by
  have hascii : ∀ c ∈ (lines.map (· ++ ['\n'])).flatten, c.toNat < 0x80 := by
    intro c hc
    obtain ⟨ended, hended, hc⟩ := List.mem_flatten.1 hc
    obtain ⟨line, hline, rfl⟩ := List.mem_map.1 hended
    rcases List.mem_append.1 hc with hc | hc
    · exact (h line hline c hc).2
    · rw [List.mem_singleton.1 hc]
      decide
  have hends : ∀ line ∈ lines, '\n' ∉ line ∧ '\r' ∉ line := fun line hline =>
    ⟨fun hc => absurd (h line hline _ hc).1 (by decide),
      fun hc => absurd (h line hline _ hc).1 (by decide)⟩
  have hshown := Text.shown_of_ascii hascii
  rw [Text.shown] at hshown
  rw [Run.errorLines, failedRun, hshown, String.toList_ofList, Text.lines_flatten_ended hends]

theorem isFirst_failedRun
    {more : List (List Char)}
    (h : ∀ other ∈ line :: more, IsPlainLine other)
    (hline : ¬ IsBlankLine line) :
    (failedRun (line :: more)).IsFirst line :=
  ⟨[], more, errorLines_failedRun h, List.forall_mem_nil _, hline⟩

/-- A host with a shell whose runs all end so. -/
def shellEnding (run : Run) : Toolchain where
  available _ := true
  launch _ _ := some run

/-- There, a file is judged by the first line. -/
theorem checkFile_shellEnding
    {run : Run}
    (hline : run.IsFirst line)
    (hexit : run.exitCode ≠ some 0)
    (program shown : String) :
    checkFile (shellEnding run) .shell program file shown =
      if MentionsSyntaxError line then .invalid (String.ofList (dropPath file (Text.trim line)))
      else .unchecked :=
  judgeShell_of_isFirst hexit hline file

/-- What a shell says of a script that lacks a word. -/
def brokenRun : Run :=
  failedRun [[], lineAbout "/p/scripts/x.sh" "line 2: syntax error: no `fi'"]

theorem mentionsSyntaxError_brokenRun :
    MentionsSyntaxError (lineAbout "/p/scripts/x.sh" "line 2: syntax error: no `fi'") :=
  mentionsSyntaxError_append_iff.2 (Or.inr (by decide))

theorem isFirst_brokenRun :
    brokenRun.IsFirst (lineAbout "/p/scripts/x.sh" "line 2: syntax error: no `fi'") := by
  have hlines : brokenRun.errorLines = _ :=
    errorLines_failedRun (by simp [IsPlainLine, lineAbout])
  exact ⟨[[]], [], hlines, List.forall_mem_singleton.2 isBlankLine_nil,
    mentionsSyntaxError_brokenRun.not_isBlankLine⟩

/-- A message with the words is what is said of a script with an ordinary path. -/
theorem shell_blames_broken_script :
    StartsPlain "/p/scripts/x.sh" ∧
    ¬ MentionsSyntaxError "/p/scripts/x.sh".toList ∧
    checkFile (shellEnding brokenRun) .shell "bash" "/p/scripts/x.sh" "x.sh" =
      .invalid "line 2: syntax error: no `fi'" := by
  have hplain : StartsPlain "/p/scripts/x.sh" := by
    intro c hc
    cases hc
    decide
  have hwords : ¬ MentionsSyntaxError "/p/scripts/x.sh".toList := by
    decide
  refine ⟨hplain, hwords, ((shell_blames_iff _ _ _ _).2 hplain hwords _).2 ?_⟩
  exact ⟨_, _, _, rfl, exitCode_failedRun _, isFirst_brokenRun, isMessage_lineAbout _ _,
    by decide, by decide⟩

/-- What a shell says of a script that it must not read. -/
def deniedRun : Run :=
  failedRun [lineAbout "/p/scripts/syntax error.sh" "Permission denied"]

/-- What a shell says of a script whose path starts with a blank. -/
def blankPathRun : Run :=
  failedRun [lineAbout " x.sh" "line 1: syntax error: no `fi'"]

/-- A script is blamed for its path, though no message of the first line has the words; and a path
that starts with a blank is kept in what is said. -/
theorem shell_blames_for_path :
    checkFile (shellEnding deniedRun) .shell "bash" "/p/scripts/syntax error.sh" "syntax error.sh" =
      .invalid "Permission denied" ∧
    (¬ ∃ line message, deniedRun.IsFirst line ∧
      IsMessage "/p/scripts/syntax error.sh" line message ∧ MentionsSyntaxError message) ∧
    checkFile (shellEnding blankPathRun) .shell "bash" " x.sh" " x.sh" =
      .invalid "x.sh: line 1: syntax error: no `fi'" ∧
    ∃ line, blankPathRun.IsFirst line ∧
      IsMessage " x.sh" line "line 1: syntax error: no `fi'".toList := by
  have hplain : StartsPlain "/p/scripts/syntax error.sh" := by
    intro c hc
    cases hc
    decide
  have hdenied : MentionsSyntaxError (lineAbout "/p/scripts/syntax error.sh" "Permission denied") :=
    mentionsSyntaxError_append_iff.2 (Or.inl (by decide))
  have hdeniedFirst : deniedRun.IsFirst _ :=
    isFirst_failedRun (by simp [IsPlainLine, lineAbout]) hdenied.not_isBlankLine
  have hmessage : ¬ IsBlankLine "Permission denied".toList :=
    fun h => absurd (h 'P' (by decide)) (by decide)
  have hsaid : dropPath "/p/scripts/syntax error.sh"
      (Text.trim (lineAbout "/p/scripts/syntax error.sh" "Permission denied")) =
        "Permission denied".toList := by
    rw [dropPath_trim_lineAbout hplain hmessage]
    decide
  have hblank : MentionsSyntaxError (lineAbout " x.sh" "line 1: syntax error: no `fi'") :=
    mentionsSyntaxError_append_iff.2 (Or.inr (by decide))
  have hblankFirst : blankPathRun.IsFirst _ :=
    isFirst_failedRun (by simp [IsPlainLine, lineAbout]) hblank.not_isBlankLine
  have htrimmed : Text.trimEnd "line 1: syntax error: no `fi'".toList =
      "line 1: syntax error: no `fi'".toList := by
    decide
  refine ⟨?_, ?_, ?_, _, hblankFirst, ?_⟩
  · rw [checkFile_shellEnding hdeniedFirst (exitCode_failedRun _), if_pos hdenied, hsaid,
      String.ofList_toList]
  · rintro ⟨line, message, hline, hmessage, hwords⟩
    obtain rfl := hline.unique hdeniedFirst
    rw [← hmessage.dropPath_eq hplain hwords, hsaid] at hwords
    revert hwords
    decide
  · rw [checkFile_shellEnding hblankFirst (exitCode_failedRun _), if_pos hblank]
    decide
  · rw [← htrimmed]
    exact isMessage_lineAbout _ _

end Messages

section Reporting

/-- Some line of the error stream has a message about the file that speaks of a syntax error. -/
def Run.Reports (run : Run) (file : String) : Prop :=
  ∃ line ∈ run.errorLines, ∃ message, IsMessage file line message ∧ MentionsSyntaxError message

/-- Where something is reported there is a first line. -/
theorem Run.Reports.exists_isFirst
    {run : Run}
    {file : String}
    (h : run.Reports file) :
    ∃ first, run.IsFirst first := by
  obtain ⟨line, hline, message, hmessage, hwords⟩ := h
  have hmentions : MentionsSyntaxError line := hwords.trans hmessage.isInfix
  refine (exists_isFirst_or_blank run.errorLines).resolve_right fun hblank => ?_
  exact hmentions.not_isBlankLine (hblank line hline)

variable {tools : Toolchain}
variable {interpreters : Interpreters}
variable {package : Package}
variable {file : List String}
variable {run : Run}

/-- A script that its interpreter finds invalid is reported. -/
theorem mem_diagnostics_of_says
    {d : Diagnostic}
    (hfile : file ∈ package.files)
    (hplace : file.dropLast = ["scripts"])
    (hsaid : Says tools interpreters package.root file d) :
    d ∈ diagnostics tools interpreters package := by
  rw [diagnostics_eq_filterMap, filesDirectlyIn_scriptsDirectory]
  refine List.mem_filterMap.2 ⟨file, List.mem_filter.2 ⟨hfile, decide_eq_true hplace⟩, ?_⟩
  exact (alone_eq_some_iff tools interpreters).2 hsaid

/-- Nothing is said of a script that an installed interpreter did not judge. -/
theorem not_says_of_unchecked
    {language : Language}
    (hscript : IsScriptOf file language)
    (hinstalled : tools.available (interpreters.program language) = true)
    (hunchecked : checkFile tools language (interpreters.program language)
      (Path.join package.root (Path.ofNames file)) (file.getLastD "") = .unchecked) :
    ∀ d, ¬ Says tools interpreters package.root file d := by
  intro d hsaid
  cases hsaid with
  | notInstalled other hother hmissing =>
      rw [hother.unique hscript, hinstalled] at hmissing
      cases hmissing
  | invalid other detail hother _ houtcome =>
      rw [hother.unique hscript, hunchecked] at houtcome
      cases houtcome

/--
A shell that fails on a script of a package reports a syntax error in it on some line.  If the first
line speaks of a syntax error, then the script is found invalid, and its diagnostic says so; if it
does not, then the script counts as not judged, and nothing is said of it.
-/
theorem shell_reports_iff_first
    (hfile : file ∈ package.files)
    (hplace : file.dropLast = ["scripts"])
    (hscript : IsScriptOf file .shell)
    (hinstalled : tools.available interpreters.shell = true)
    (hlaunch : tools.launch interpreters.shell
      ["-n", Path.join package.root (Path.ofNames file)] = some run)
    (hexit : run.exitCode ≠ some 0)
    (hreports : run.Reports (Path.join package.root (Path.ofNames file))) :
    ∃ first, run.IsFirst first ∧
      (MentionsSyntaxError first →
        ∃ detail,
          checkFile tools .shell interpreters.shell
              (Path.join package.root (Path.ofNames file)) (file.getLastD "") =
            .invalid detail ∧
          { ruleId := "scripts/syntax-error"
            severity := .error
            category := .scripts
            message := "syntax error in " ++ file.getLastD "" ++ ": " ++ detail
            file := some (Path.ofNames file) } ∈ diagnostics tools interpreters package) ∧
      (¬ MentionsSyntaxError first →
        checkFile tools .shell interpreters.shell
            (Path.join package.root (Path.ofNames file)) (file.getLastD "") =
          .unchecked ∧
        ∀ d, ¬ Says tools interpreters package.root file d) := by
  obtain ⟨first, hfirst⟩ := hreports.exists_isFirst
  have hjudged : checkFile tools .shell interpreters.shell
      (Path.join package.root (Path.ofNames file)) (file.getLastD "") =
      Language.judgeShell (Path.join package.root (Path.ofNames file)) run := by
    rw [checkFile, Language.arguments, hlaunch]
    rfl
  rw [judgeShell_of_isFirst hexit hfirst] at hjudged
  refine ⟨first, hfirst, fun hwords => ?_, fun hwords => ?_⟩
  · rw [if_pos hwords] at hjudged
    exact ⟨_, hjudged,
      mem_diagnostics_of_says hfile hplace (.invalid .shell _ hscript hinstalled hjudged)⟩
  · rw [if_neg hwords] at hjudged
    exact ⟨hjudged, not_says_of_unchecked hscript hinstalled hjudged⟩

/-- A package with one script. -/
def scriptPackage : Package where
  root := "/p"
  name := "p"
  document := none
  files := [["scripts", "x.sh"]]
  topLevel := ["scripts"]
  exclusions := none

/-- A syntax error on the first line is reported. -/
theorem shell_reports_first_line :
    brokenRun.Reports "/p/scripts/x.sh" ∧
    ∃ d ∈ diagnostics (shellEnding brokenRun) {} scriptPackage,
      d.ruleId = "scripts/syntax-error" ∧ d.file = some "scripts/x.sh" := by
  obtain ⟨before, after, hlines, -⟩ := isFirst_brokenRun
  have hreports : brokenRun.Reports "/p/scripts/x.sh" :=
    ⟨_, hlines ▸ List.mem_append_right before List.mem_cons_self, _, isMessage_lineAbout _ _,
      by decide⟩
  obtain ⟨first, hfirst, hsaid, -⟩ :=
    @shell_reports_iff_first (shellEnding brokenRun) {} scriptPackage ["scripts", "x.sh"] _
      (by decide) (by decide) (handlesName_iff.1 (by decide)) rfl rfl (exitCode_failedRun _)
      hreports
  rw [hfirst.unique isFirst_brokenRun] at hsaid
  obtain ⟨detail, -, hmem⟩ := hsaid mentionsSyntaxError_brokenRun
  have hshown : Path.ofNames ["scripts", "x.sh"] = "scripts/x.sh" := by
    decide
  exact ⟨hreports, _, hmem, rfl, congrArg some hshown⟩

/-- What a shell says of a quote without an end: it is looked for first, and then the file ends. -/
def openQuoteRun : Run :=
  failedRun
    [lineAbout "/p/scripts/x.sh" "line 1: unexpected EOF while looking for matching `\"'",
      lineAbout "/p/scripts/x.sh" "line 2: syntax error: unexpected end of file"]

/-- The syntax error is reported on the second line, and nothing is said of the script. -/
theorem shell_passes_over_second :
    openQuoteRun.exitCode ≠ some 0 ∧
    openQuoteRun.Reports "/p/scripts/x.sh" ∧
    checkFile (shellEnding openQuoteRun) .shell "bash" "/p/scripts/x.sh" "x.sh" = .unchecked ∧
    diagnostics (shellEnding openQuoteRun) {} scriptPackage = [] := by
  have hexit : openQuoteRun.exitCode ≠ some 0 := exitCode_failedRun _
  have hlines : openQuoteRun.errorLines = _ :=
    errorLines_failedRun (by simp [IsPlainLine, lineAbout])
  have hreports : openQuoteRun.Reports "/p/scripts/x.sh" :=
    ⟨_, by rw [hlines]; exact List.mem_cons_of_mem _ List.mem_cons_self, _,
      isMessage_lineAbout _ _, by decide⟩
  have hsilent : 'y' ∉
      lineAbout "/p/scripts/x.sh" "line 1: unexpected EOF while looking for matching `\"'" := by
    simp [lineAbout]
  have hfirst : openQuoteRun.IsFirst
      (lineAbout "/p/scripts/x.sh" "line 1: unexpected EOF while looking for matching `\"'") := by
    refine ⟨[], _, hlines, List.forall_mem_nil _, fun hblank => ?_⟩
    exact absurd (hblank '/' (by simp [lineAbout])) (by decide)
  have hunchecked : checkFile (shellEnding openQuoteRun) .shell "bash" "/p/scripts/x.sh" "x.sh" =
      .unchecked := by
    rw [checkFile_shellEnding hfirst hexit,
      if_neg fun hwords => hsilent (hwords.subset (by decide))]
  refine ⟨hexit, hreports, hunchecked, ?_⟩
  rw [diagnostics_eq_filterMap, List.filterMap_eq_nil_iff]
  intro file hfile
  obtain rfl : file = ["scripts", "x.sh"] :=
    List.mem_singleton.1 (List.mem_filter.1 hfile).1
  refine Option.eq_none_iff_forall_ne_some.2 fun d hd => ?_
  exact not_says_of_unchecked (handlesName_iff.1 (by decide)) rfl hunchecked d
    ((alone_eq_some_iff _ _).1 hd)

end Reporting

end Script
end SkillAudit
