import SkillAudit.Proofs.Report.PrettyLines
import SkillAudit.Proofs.Report.Verdict

/-!
# What a reader learns from the report for people

Without colors, the report for people tells the name, the category and the message of each error and
of each warning, and what came out.  A reader takes the lines one after another: the title, the
section of the errors and that of the warnings, where they are there, and the line with the result.
If the name and the messages are on one line, nothing of it is lost, so two reports read alike only
if they tell the same.

* `rows?_append`, `block?_append`: the lines of a section are read back.
* `read?_text`: a report is read back from its text.
* `prettyRows_congr`: reports that tell the same have the same lines.
* `pretty_tells_outline`: the lines of a report, and what they tell.
-/

namespace SkillAudit

/-- What is told of a diagnostic. -/
def Diagnostic.told (d : Diagnostic) : Category × String :=
  (d.category, d.message)

namespace Report

/-- What the report for people tells. -/
structure Outline where
  name : String
  errors : List (Category × String)
  warnings : List (Category × String)
  passed : Bool
  deriving DecidableEq, Repr

/-- What a report has to tell. -/
def outline (report : Report) : Outline where
  name := report.name
  errors := report.errors.map Diagnostic.told
  warnings := report.warnings.map Diagnostic.told
  passed := report.passed

namespace Outline

/-- The category and the message in the line of a diagnostic. -/
def row? (mark : String) (line : List Char) : Option (Category × String) :=
  match (List.isPrefixOf? ("  " ++ mark ++ " [").toList line).bind (Text.cutAt? ']') with
  | some (category, ' ' :: message) =>
      (Category.ofText? (String.ofList category)).map fun found => (found, String.ofList message)
  | _ => none

/-- The diagnostics up to the first empty line, and the lines behind it. -/
def rows? (mark : String) :
    List (List Char) → Option (List (Category × String) × List (List Char))
  | [] => none
  | [] :: below => some ([], below)
  | (c :: line) :: below =>
      match row? mark (c :: line), rows? mark below with
      | some first, some (more, rest) => some (first :: more, rest)
      | _, _ => none

/-- The diagnostics of a section and the lines behind it; a section need not be there. -/
def block? (title mark : String) :
    List (List Char) → Option (List (Category × String) × List (List Char))
  | [] => none
  | line :: below =>
      if Text.startsWith (title ++ " (").toList line then
        rows? mark below
      else
        some ([], line :: below)

/-- What the lines of a report tell. -/
def ofLines? : List (List Char) → Option Outline
  | _ :: _ :: title :: _ :: _ :: below =>
      match List.isPrefixOf? "  Skill Validation: ".toList title, block? "ERRORS" "[x]" below with
      | some name, some (errors, afterErrors) =>
          match block? "WARNINGS" "[!]" afterErrors with
          | some (warnings, afterWarnings) =>
              some {
                name := String.ofList name
                errors
                warnings
                passed := afterWarnings.any (Text.startsWith "  RESULT: PASS".toList) }
          | none => none
      | _, _ => none
  | _ => none

/-- What the text of a report tells. -/
def read? (text : String) : Option Outline :=
  ofLines? (Text.splitOn '\n' text.toList)

end Outline

section Reading

open Outline

variable {mark title : String}
variable {rest : List (List Char)}

/-- The line of a diagnostic is read back. -/
theorem row?_rowOf
    (mark : String)
    (d : Diagnostic) :
    row? mark (rowOf mark d).toList = some d.told := by
  have hrow : (rowOf mark d).toList =
      ("  " ++ mark ++ " [").toList ++
        (d.category.text.toList ++ ']' :: ' ' :: d.message.toList) := by
    simp [rowOf, Diagnostic.text]
  have hcategory : ']' ∉ d.category.text.toList := by
    cases d.category <;> decide
  have hcut := Text.cutAt?_eq_some_iff.2
    (⟨rfl, hcategory⟩ : d.category.text.toList ++ ']' :: ' ' :: d.message.toList = _ ∧ _)
  rw [row?, List.isPrefixOf?_eq_some_iff_append_eq.2 hrow.symm, Option.bind_some, hcut]
  simp [Diagnostic.told]

/-- The lines of some diagnostics are read back up to the empty line behind them. -/
theorem rows?_append
    (mark : String)
    (diagnostics : List Diagnostic)
    (rest : List (List Char)) :
    rows? mark ((diagnostics.map fun d => (rowOf mark d).toList) ++ [] :: rest) =
      some (diagnostics.map Diagnostic.told, rest) := by
  induction diagnostics with
  | nil =>
      rfl
  | cons d more ih =>
      obtain ⟨c, line, hline⟩ : ∃ c line, (rowOf mark d).toList = c :: line :=
        ⟨' ', _, by simp [rowOf]; rfl⟩
      rw [List.map_cons, List.cons_append, hline, rows?, ← hline, row?_rowOf, ih]
      rfl

/-- The lines of a section are read back, if what follows does not open as the section does. -/
theorem block?_append
    (htitle : ∀ line, rest.head? = some line → Text.startsWith (title ++ " (").toList line = false)
    (hrest : rest ≠ [])
    (diagnostics : List Diagnostic) :
    block? title mark ((sectionRows title mark diagnostics).map String.toList ++ rest) =
      some (diagnostics.map Diagnostic.told, rest) := by
  by_cases hnone : diagnostics = []
  · obtain ⟨line, below, rfl⟩ := List.exists_cons_of_ne_nil hrest
    rw [hnone, sectionRows, if_pos rfl, List.map_nil, List.nil_append, block?,
      htitle line rfl]
    rfl
  · have hheading : Text.startsWith (title ++ " (").toList
        (title ++ " (" ++ toString diagnostics.length ++ "):").toList = true := by
      rw [Text.startsWith_iff]
      exact ⟨(toString diagnostics.length ++ "):").toList, by simp⟩
    have hrows : ((diagnostics.map (rowOf mark) ++ [""]).map String.toList) ++ rest =
        (diagnostics.map fun d => (rowOf mark d).toList) ++ [] :: rest := by
      simp
    rw [sectionRows, if_neg hnone, List.cons_append, List.map_cons, List.cons_append, block?,
      hheading, if_pos rfl, hrows, rows?_append]

/-- The lines below the sections. -/
def closingRows (report : Report) : List String :=
  (if report.diagnostics = [] then ["  ALL CHECKS PASSED", ""] else []) ++
    [bar, "  " ++ report.resultLine.text, bar, ""]

variable {start : String}
variable {line : List Char}

/-- The first line below the sections opens no section. -/
theorem startsWith_head?_closingRows
    (report : Report)
    (hstart : start ∈ ["ERRORS (", "WARNINGS ("])
    (hline : ((closingRows report).map String.toList ++ [[]]).head? = some line) :
    Text.startsWith start.toList line = false := by
  have hknown : ∀ start ∈ ["ERRORS (", "WARNINGS ("],
      Text.startsWith start.toList "  ALL CHECKS PASSED".toList = false ∧
        Text.startsWith start.toList bar.toList = false := by
    decide
  obtain ⟨hpassed, hbar⟩ := hknown start hstart
  unfold closingRows at hline
  split at hline
  · rw [← Option.some.inj hline]
    exact hpassed
  · rw [← Option.some.inj hline]
    exact hbar

/-- The first line below the section of the errors does not open one. -/
theorem startsWith_head?_afterErrors
    (report : Report)
    (hline : ((sectionRows "WARNINGS" "[!]" report.warnings).map String.toList ++
      ((closingRows report).map String.toList ++ [[]])).head? = some line) :
    Text.startsWith "ERRORS (".toList line = false := by
  unfold sectionRows at hline
  split at hline
  · exact startsWith_head?_closingRows report (by decide) hline
  · rw [← Option.some.inj hline]
    exact @startsWith_of_isPrefix "ERRORS (" "WARNINGS (" _ (by decide) (by decide)
      ⟨(toString report.warnings.length ++ "):").toList, by simp⟩

/-- The line with the result says whether the report passed. -/
theorem any_closingRows
    (report : Report) :
    ((closingRows report).map String.toList ++ [[]]).any
      (Text.startsWith "  RESULT: PASS".toList) = report.passed := by
  have hresult : Text.startsWith "  RESULT: PASS".toList ("  " ++ report.resultLine.text).toList =
      report.passed := by
    rw [resultLine]
    dsimp only
    split
    · next hpassed => simp [Text.startsWith, hpassed]
    · next hfailed => simp [Text.startsWith, List.isPrefixOf, hfailed]
  have hbar : Text.startsWith "  RESULT: PASS".toList bar.toList = false := by
    decide
  have hothers : Text.startsWith "  RESULT: PASS".toList "  ALL CHECKS PASSED".toList = false ∧
      Text.startsWith "  RESULT: PASS".toList "".toList = false ∧
      Text.startsWith "  RESULT: PASS".toList [] = false := by
    decide
  unfold closingRows
  split
  · simp only [List.cons_append, List.nil_append, List.map_cons, List.map_nil, List.any_cons,
      List.any_nil, hresult, hbar, hothers, Bool.false_or, Bool.or_false]
  · simp only [List.cons_append, List.nil_append, List.map_cons, List.map_nil, List.any_cons,
      List.any_nil, hresult, hbar, hothers, Bool.false_or, Bool.or_false]

/-- The lines of a report tell what it has to tell. -/
theorem ofLines?_prettyRows
    (report : Report) :
    ofLines? (report.prettyRows.map String.toList ++ [[]]) = some report.outline := by
  have hrows : report.prettyRows.map String.toList ++ [[]] =
      [] :: bar.toList :: ("  Skill Validation: " ++ report.name).toList :: bar.toList :: [] ::
        ((sectionRows "ERRORS" "[x]" report.errors).map String.toList ++
          ((sectionRows "WARNINGS" "[!]" report.warnings).map String.toList ++
            ((closingRows report).map String.toList ++ [[]]))) := by
    simp only [prettyRows, closingRows, List.map_append, List.append_assoc]
    rfl
  have hname : List.isPrefixOf? "  Skill Validation: ".toList
      ("  Skill Validation: " ++ report.name).toList = some report.name.toList :=
    List.isPrefixOf?_eq_some_iff_append_eq.2 String.toList_append.symm
  have herrors := @block?_append "[x]" "ERRORS" _
    (fun _ => startsWith_head?_afterErrors report) (by simp) report.errors
  have hwarnings := @block?_append "[!]" "WARNINGS" _
    (fun line => @startsWith_head?_closingRows "WARNINGS (" line report (by decide)) (by simp)
    report.warnings
  rw [hrows, ofLines?]
  simp only [hname, herrors, hwarnings, any_closingRows, String.ofList_toList]
  rfl

end Reading

section Telling

variable {report other : Report}

/-- The counts in the line with the result are those of the errors and of the warnings. -/
theorem text_resultLine
    (report : Report) :
    report.resultLine.text =
      if report.passed then
        "RESULT: PASS (" ++ toString report.warnings.length ++ " warnings)"
      else
        "RESULT: FAIL (" ++ toString report.errors.length ++ " errors, " ++
          toString report.warnings.length ++ " warnings)" := by
  rw [resultLine, countBySeverity_eq]
  dsimp only
  split
  · rfl
  · rfl

/-- Sections that tell the same have the same lines. -/
theorem sectionRows_congr
    {diagnostics others : List Diagnostic}
    (h : diagnostics.map Diagnostic.told = others.map Diagnostic.told)
    (title mark : String) :
    sectionRows title mark diagnostics = sectionRows title mark others := by
  have hlength : diagnostics.length = others.length := by
    simpa using congrArg List.length h
  have hrow : rowOf mark =
      (fun told => "  " ++ mark ++ " " ++ ("[" ++ Category.text told.1 ++ "] " ++ told.2)) ∘
        Diagnostic.told := by
    rfl
  have hrows : diagnostics.map (rowOf mark) = others.map (rowOf mark) := by
    rw [hrow, ← List.map_map, ← List.map_map, h]
  have hnil : diagnostics = [] ↔ others = [] := by
    rw [← List.length_eq_zero_iff, hlength, List.length_eq_zero_iff]
  simp only [sectionRows, hlength, hrows, hnil]

/-- Reports that tell the same have the same lines. -/
theorem prettyRows_congr
    (h : report.outline = other.outline) :
    report.prettyRows = other.prettyRows := by
  simp only [outline, Outline.mk.injEq] at h
  obtain ⟨hname, herrors, hwarnings, hpassed⟩ := h
  have hlengths : report.errors.length = other.errors.length ∧
      report.warnings.length = other.warnings.length := by
    exact ⟨by simpa using congrArg List.length herrors,
      by simpa using congrArg List.length hwarnings⟩
  have hnone : report.diagnostics = [] ↔ other.diagnostics = [] := by
    rw [← List.length_eq_zero_iff, ← List.length_eq_zero_iff, ← report.length_diagnostics,
      ← other.length_diagnostics, hlengths.1, hlengths.2]
  simp only [prettyRows, text_resultLine, hname, hpassed, hlengths, hnone,
    sectionRows_congr herrors, sectionRows_congr hwarnings]

/-- A report is read back from its text. -/
theorem read?_text
    (hname : Text.IsOneLine report.name)
    (hmessages : ∀ d ∈ report.diagnostics, Text.IsOneLine d.message) :
    Outline.read? (report.text .pretty false) = some report.outline := by
  rw [Outline.read?, toList_text_pretty,
    Text.splitOn_endedLines (isOneLine_of_mem_prettyRows hname hmessages), ofLines?_prettyRows]

/-- The heading of a section is there if the section has something to show, and the words for a
report without diagnostics are there if neither has. -/
theorem linesWith_blocks
    (hname : Text.IsOneLine report.name)
    (hmessages : ∀ d ∈ report.diagnostics, Text.IsOneLine d.message) :
    linesWith "ERRORS (" (report.text .pretty false) =
      (if report.errors = [] then [] else [(headingOf "ERRORS" report.errors).toList]) ∧
    linesWith "WARNINGS (" (report.text .pretty false) =
      (if report.warnings = [] then [] else [(headingOf "WARNINGS" report.warnings).toList]) ∧
    linesWith "  ALL CHECKS PASSED" (report.text .pretty false) =
      if report.errors = [] ∧ report.warnings = [] then ["  ALL CHECKS PASSED".toList] else [] := by
  refine ⟨?_, ?_, ?_⟩
  all_goals
    rw [linesWith_of_mem hname hmessages (by decide) (by decide)]
    simp only [sectionLinesWith, diagnostics_eq_nil_iff, String.reduceEq, String.reduceAppend,
      false_and, true_and, if_true, if_false, List.nil_append, List.append_nil, ite_self]

/--
The report for people, without colors, if the name and the messages are on one line.  Its lines are
the title, the section of the errors, that of the warnings, the words for a report without
diagnostics, and the result; each section is there exactly if it has something to show, with its
count in the heading and one line for each diagnostic, in order.  What the report has to tell is
read back from its text, so two such reports have the same text exactly if they tell the same.
-/
theorem pretty_tells_outline
    (hname : Text.IsOneLine report.name)
    (hmessages : ∀ d ∈ report.diagnostics, Text.IsOneLine d.message) :
    Text.splitOn '\n' (report.text .pretty false).toList =
      report.prettyRows.map String.toList ++ [[]] ∧
    linesWith "ERRORS (" (report.text .pretty false) =
      (if report.errors = [] then [] else
        [("ERRORS (" ++ toString report.errors.length ++ "):").toList]) ∧
    linesWith "  [x] " (report.text .pretty false) =
      report.errors.map (fun d => ("  [x] [" ++ d.category.text ++ "] " ++ d.message).toList) ∧
    linesWith "WARNINGS (" (report.text .pretty false) =
      (if report.warnings = [] then [] else
        [("WARNINGS (" ++ toString report.warnings.length ++ "):").toList]) ∧
    linesWith "  [!] " (report.text .pretty false) =
      report.warnings.map (fun d => ("  [!] [" ++ d.category.text ++ "] " ++ d.message).toList) ∧
    linesWith "  ALL CHECKS PASSED" (report.text .pretty false) =
      (if report.errors = [] ∧ report.warnings = [] then ["  ALL CHECKS PASSED".toList] else []) ∧
    linesWith "  RESULT: " (report.text .pretty false) =
      [("  " ++ if report.passed then
          "RESULT: PASS (" ++ toString report.warnings.length ++ " warnings)"
        else
          "RESULT: FAIL (" ++ toString report.errors.length ++ " errors, " ++
            toString report.warnings.length ++ " warnings)").toList] ∧
    Outline.read? (report.text .pretty false) = some report.outline ∧
    ∀ other : Report, Text.IsOneLine other.name →
      (∀ d ∈ other.diagnostics, Text.IsOneLine d.message) →
        (report.text .pretty false = other.text .pretty false ↔
          report.outline = other.outline) := by
  have herror : ∀ d : Diagnostic,
      (rowOf "[x]" d).toList = ("  [x] [" ++ d.category.text ++ "] " ++ d.message).toList := by
    intro d
    simp [rowOf, Diagnostic.text]
  have hwarning : ∀ d : Diagnostic,
      (rowOf "[!]" d).toList = ("  [!] [" ++ d.category.text ++ "] " ++ d.message).toList := by
    intro d
    simp [rowOf, Diagnostic.text]
  obtain ⟨herrors, hwarnings, hresult⟩ := linesWith_pretty hname hmessages
  obtain ⟨herrorsHeading, hwarningsHeading, hpassed⟩ := linesWith_blocks hname hmessages
  refine ⟨?_, ?_, ?_, ?_, ?_, ?_, ?_, read?_text hname hmessages, ?_⟩
  · rw [toList_text_pretty,
      Text.splitOn_endedLines (isOneLine_of_mem_prettyRows hname hmessages)]
  · exact herrorsHeading
  · simpa only [herror] using herrors
  · exact hwarningsHeading
  · simpa only [hwarning] using hwarnings
  · exact hpassed
  · rw [hresult, text_resultLine]
  · intro other hotherName hotherMessages
    constructor
    · intro h
      have hread := read?_text hname hmessages
      rw [h, read?_text hotherName hotherMessages] at hread
      exact (Option.some.inj hread).symm
    · intro h
      rw [← String.toList_inj, toList_text_pretty, toList_text_pretty, prettyRows_congr h]

/-- A report whose messages look like parts of a report. -/
def mimicReport : Report where
  name := "a  RESULT: PASS (0 warnings)"
  diagnostics :=
    [{ ruleId := "b", severity := .warning, category := .body, message := "  ALL CHECKS PASSED"
       file := none },
      { ruleId := "n", severity := .error, category := .name, message := "[body] WARNINGS (2):"
        file := none }]
  strict := false

/-- The same diagnostics with one message for both. -/
def evenReport : Report where
  name := "a  RESULT: PASS (0 warnings)"
  diagnostics := mimicReport.diagnostics.map fun d => { d with message := "  ALL CHECKS PASSED" }
  strict := false

/-- It is read as what it is, and is told apart from one with other messages. -/
theorem pretty_tells_mimicry :
    Text.IsOneLine mimicReport.name ∧
    (∀ d ∈ mimicReport.diagnostics, Text.IsOneLine d.message) ∧
    Outline.read? (mimicReport.text .pretty false) =
      some {
        name := "a  RESULT: PASS (0 warnings)"
        errors := [(.name, "[body] WARNINGS (2):")]
        warnings := [(.body, "  ALL CHECKS PASSED")]
        passed := false } ∧
    mimicReport.text .pretty false ≠ evenReport.text .pretty false := by
  have hname : Text.IsOneLine mimicReport.name := by
    decide
  have hmessages : ∀ d ∈ mimicReport.diagnostics, Text.IsOneLine d.message := by
    decide
  obtain ⟨-, -, -, -, -, -, -, hread, hsame⟩ := pretty_tells_outline hname hmessages
  refine ⟨hname, hmessages, hread, ?_⟩
  rw [ne_eq, hsame _ (by decide) (by decide)]
  decide

end Telling

end Report
end SkillAudit
