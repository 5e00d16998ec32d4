import SkillAudit.Proofs.Text.OneLine
import SkillAudit.Report.Format

/-!
# The lines of the report for people

Without colors, the report for people is a list of lines, each with a line feed behind it.  If the
name and the messages are on one line, these are the lines that a reader sees: each error and each
warning has one, behind its mark, and one line says what came out.

* `toList_text_pretty`: the lines of a report.
* `eq_of_isPrefix_of_mem_lineStarts`: the ways in which lines open are told apart.
* `linesWith_of_mem`: which lines open in a given way.
* `linesWith_pretty`: which lines open with a mark, and which one says what came out.
* `mem_linesWith_of_row`: what is seen where a message has a line of its own.
-/

namespace SkillAudit
namespace Report

/-- The lines of a text that open so. -/
def linesWith (start : String) (text : String) : List (List Char) :=
  (Text.splitOn '\n' text.toList).filter (Text.startsWith start.toList)

/-- The line of a diagnostic in a section. -/
def rowOf (mark : String) (d : Diagnostic) : String :=
  "  " ++ mark ++ " " ++ d.text

/-- The lines of a section. -/
def sectionRows (title mark : String) (diagnostics : List Diagnostic) : List String :=
  if diagnostics = [] then
    []
  else
    (title ++ " (" ++ toString diagnostics.length ++ "):") :: diagnostics.map (rowOf mark) ++ [""]

/-- The lines of the report for people. -/
def prettyRows (report : Report) : List String :=
  ["", bar, "  Skill Validation: " ++ report.name, bar, ""] ++
    sectionRows "ERRORS" "[x]" report.errors ++
    sectionRows "WARNINGS" "[!]" report.warnings ++
    (if report.diagnostics = [] then ["  ALL CHECKS PASSED", ""] else []) ++
    [bar, "  " ++ report.resultLine.text, bar, ""]

section Lines

/-- The texts of a section are its lines, each with a line feed behind it. -/
theorem render_sectionOf
    (title mark : String)
    (color : Color)
    (diagnostics : List Diagnostic) :
    (sectionOf title mark color diagnostics.length diagnostics).flatMap (Span.render false) =
      (sectionRows title mark diagnostics).flatMap fun row => row.toList ++ ['\n'] := by
  have hrows :
      (sectionLines (.styled (.plainIn color) mark) diagnostics).flatMap (Span.render false) =
        (diagnostics.map (rowOf mark)).flatMap fun row => row.toList ++ ['\n'] := by
    simp [sectionLines, rowOf, List.flatMap_assoc, List.flatMap_map]
  cases diagnostics with
  | nil =>
      simp [sectionOf, sectionRows]
  | cons d rest =>
      rw [sectionOf, if_pos (by simp), sectionRows, if_neg (by simp)]
      simp only [List.flatMap_append, List.flatMap_cons, hrows]
      simp

/-- Without colors, the report for people is its lines, each with a line feed behind it. -/
theorem toList_text_pretty
    (report : Report) :
    (report.text .pretty false).toList =
      report.prettyRows.flatMap fun row => row.toList ++ ['\n'] := by
  have hnone : (report.errors.length = 0 ∧ report.warnings.length = 0) ↔
      report.diagnostics = [] := by
    have hlength := report.length_diagnostics
    rw [← List.length_eq_zero_iff]
    omega
  rw [text, Span.renderAll, String.toList_ofList, pretty, countBySeverity_eq, prettyRows]
  simp only [List.flatMap_append, render_sectionOf, hnone]
  by_cases hdiagnostics : report.diagnostics = []
  · simp [hdiagnostics, allPassed]
  · simp [hdiagnostics]

/-- How the lines of the report open that are not empty. -/
def lineStarts : List String :=
  ["  [x] ", "  [!] ", "  RESULT: ", "  Skill Validation: ", "  ALL CHECKS PASSED", "ERRORS (",
    "WARNINGS (", "="]

/-- No line opens in two of these ways. -/
theorem eq_of_isPrefix_of_mem_lineStarts :
    ∀ start ∈ lineStarts, ∀ other ∈ lineStarts, start.toList <+: other.toList → start = other := by
  decide

variable {start front title mark : String}

/-- A line that opens in one of these ways opens in no other one. -/
theorem startsWith_of_isPrefix
    {line : List Char}
    (hstart : start ∈ lineStarts)
    (hfront : front ∈ lineStarts)
    (hline : front.toList <+: line) :
    Text.startsWith start.toList line = decide (start = front) := by
  rw [Bool.eq_iff_iff, Text.startsWith_iff, decide_eq_true_iff]
  constructor
  · intro h
    rcases List.prefix_or_prefix_of_prefix h hline with h | h
    · exact eq_of_isPrefix_of_mem_lineStarts start hstart front hfront h
    · exact (eq_of_isPrefix_of_mem_lineStarts front hfront start hstart h).symm
  · rintro rfl
    exact hline

theorem startsWith_nil
    (hstart : start ∈ lineStarts) :
    Text.startsWith start.toList [] = false := by
  have hnil : ∀ start ∈ lineStarts, Text.startsWith start.toList [] = false := by
    decide
  exact hnil start hstart

/-- The result is behind the words that open its line. -/
theorem isPrefix_resultLine
    (report : Report) :
    "  RESULT: ".toList <+: ("  " ++ report.resultLine.text).toList := by
  rw [resultLine]
  dsimp only
  split
  · simp [List.cons_prefix_cons]
  · simp [List.cons_prefix_cons]

/-- The heading of a section. -/
def headingOf (title : String) (diagnostics : List Diagnostic) : String :=
  title ++ " (" ++ toString diagnostics.length ++ "):"

/-- The lines of a section that open in one of these ways: its heading opens with the title, and the
lines of its diagnostics open with the mark. -/
def sectionLinesWith (start title mark : String) (diagnostics : List Diagnostic) :
    List (List Char) :=
  if diagnostics = [] then
    []
  else
    (if start = title ++ " (" then [(headingOf title diagnostics).toList] else []) ++
      if start = "  " ++ mark ++ " " then diagnostics.map (fun d => (rowOf mark d).toList) else []

theorem filter_sectionRows
    (hstart : start ∈ lineStarts)
    (hmark : "  " ++ mark ++ " " ∈ lineStarts)
    (htitle : title ++ " (" ∈ lineStarts)
    (diagnostics : List Diagnostic) :
    ((sectionRows title mark diagnostics).map String.toList).filter (Text.startsWith start.toList) =
      sectionLinesWith start title mark diagnostics := by
  have hheading : Text.startsWith start.toList (headingOf title diagnostics).toList =
      decide (start = title ++ " (") :=
    startsWith_of_isPrefix hstart htitle
      ⟨(toString diagnostics.length ++ "):").toList, by simp [headingOf]⟩
  have hrow : ∀ d, Text.startsWith start.toList (rowOf mark d).toList =
      decide (start = "  " ++ mark ++ " ") := by
    intro d
    exact startsWith_of_isPrefix hstart hmark ⟨d.text.toList, by simp [rowOf]⟩
  by_cases hdiagnostics : diagnostics = []
  · simp [sectionRows, sectionLinesWith, hdiagnostics]
  · rw [sectionRows, if_neg hdiagnostics, sectionLinesWith, if_neg hdiagnostics, ← headingOf]
    simp only [List.cons_append, List.map_cons, List.map_append, List.filter_cons,
      List.filter_append, hheading, List.map_nil, String.toList_empty, startsWith_nil hstart,
      Bool.false_eq_true, if_false, List.filter_nil, List.append_nil, List.map_map,
      List.filter_map, Function.comp_def, hrow, decide_eq_true_eq]
    by_cases h : start = "  " ++ mark ++ " "
    · split <;> simp [h]
    · split <;> simp [h]

theorem isOneLine_resultLine
    (report : Report) :
    Text.IsOneLine ("  " ++ report.resultLine.text) := by
  rw [resultLine]
  dsimp only
  split
  · refine Text.isOneLine_append.2 ⟨Text.isOneLine_ofList (by decide), ?_⟩
    exact Text.isOneLine_between (by decide) (by decide) (Text.isOneLine_toString _)
  · refine Text.isOneLine_append.2 ⟨Text.isOneLine_ofList (by decide), ?_⟩
    exact Text.isOneLine_counted (by decide) (by decide) (by decide) _ _

/-- With messages on one line, each line of a section is on one line. -/
theorem isOneLine_of_mem_sectionRows
    {diagnostics : List Diagnostic}
    (htitle : Text.IsOneLine title)
    (hmark : Text.IsOneLine mark)
    (hmessages : ∀ d ∈ diagnostics, Text.IsOneLine d.message) :
    ∀ row ∈ sectionRows title mark diagnostics, Text.IsOneLine row := by
  intro row hrow
  unfold sectionRows at hrow
  split at hrow
  · cases hrow
  · simp only [List.cons_append, List.mem_cons, List.mem_append, List.mem_map, List.not_mem_nil,
      or_false] at hrow
    rcases hrow with rfl | ⟨d, hd, rfl⟩ | rfl
    · simp only [Text.isOneLine_append, htitle, Text.isOneLine_toString]
      decide
    · have hcategory : Text.IsOneLine d.category.text := by
        cases d.category <;> decide
      simp only [rowOf, Diagnostic.text, Text.isOneLine_append, hmark, hcategory, hmessages d hd]
      decide
    · decide

variable {report : Report}

/-- With a name and messages on one line, each line of the report is on one line. -/
theorem isOneLine_of_mem_prettyRows
    (hname : Text.IsOneLine report.name)
    (hmessages : ∀ d ∈ report.diagnostics, Text.IsOneLine d.message) :
    ∀ row ∈ report.prettyRows, Text.IsOneLine row := by
  have hbar : Text.IsOneLine bar := by
    decide
  have hheading : Text.IsOneLine ("  Skill Validation: " ++ report.name) :=
    Text.isOneLine_append.2 ⟨by decide, hname⟩
  have herrors : ∀ row ∈ sectionRows "ERRORS" "[x]" report.errors, Text.IsOneLine row :=
    isOneLine_of_mem_sectionRows (by decide) (by decide)
      fun d hd => hmessages d (List.mem_filter.1 hd).1
  have hwarnings : ∀ row ∈ sectionRows "WARNINGS" "[!]" report.warnings, Text.IsOneLine row :=
    isOneLine_of_mem_sectionRows (by decide) (by decide)
      fun d hd => hmessages d (List.mem_filter.1 hd).1
  have hpassed : ∀ row ∈ (if report.diagnostics = [] then ["  ALL CHECKS PASSED", ""] else []),
      Text.IsOneLine row := by
    split
    · simp only [List.forall_mem_cons]
      exact ⟨Text.isOneLine_ofList (by decide), by decide, by simp⟩
    · simp
  simp only [prettyRows, List.forall_mem_append, List.forall_mem_cons]
  exact ⟨⟨⟨⟨⟨by decide, hbar, hheading, hbar, by decide, by simp⟩, herrors⟩, hwarnings⟩, hpassed⟩,
    hbar, isOneLine_resultLine report, hbar, by decide, by simp⟩

/-- The lines that open in one of these ways, apart from the bars: the title, the lines of the
sections, the words for a report without diagnostics, and the result. -/
theorem linesWith_of_mem
    (hname : Text.IsOneLine report.name)
    (hmessages : ∀ d ∈ report.diagnostics, Text.IsOneLine d.message)
    (hstart : start ∈ lineStarts)
    (hne : start ≠ "=") :
    linesWith start (report.text .pretty false) =
      (if start = "  Skill Validation: " then
        [("  Skill Validation: " ++ report.name).toList] else []) ++
      sectionLinesWith start "ERRORS" "[x]" report.errors ++
      sectionLinesWith start "WARNINGS" "[!]" report.warnings ++
      (if start = "  ALL CHECKS PASSED" ∧ report.diagnostics = [] then
        ["  ALL CHECKS PASSED".toList] else []) ++
      (if start = "  RESULT: " then [("  " ++ report.resultLine.text).toList] else []) := by
  have hnil := startsWith_nil hstart
  have hbar : Text.startsWith start.toList bar.toList = false := by
    rw [@startsWith_of_isPrefix start "=" _ hstart (by decide) (by decide)]
    exact decide_eq_false hne
  have hheading := @startsWith_of_isPrefix start "  Skill Validation: "
    ("  Skill Validation: " ++ report.name).toList hstart (by decide)
    (by simp [List.cons_prefix_cons])
  have hpassed :
      ((if report.diagnostics = [] then ["  ALL CHECKS PASSED", ""] else []).map
        String.toList).filter (Text.startsWith start.toList) =
          if start = "  ALL CHECKS PASSED" ∧ report.diagnostics = [] then
            ["  ALL CHECKS PASSED".toList] else [] := by
    have hwords := @startsWith_of_isPrefix start "  ALL CHECKS PASSED" _ hstart (by decide)
      List.prefix_rfl
    by_cases hdiagnostics : report.diagnostics = []
    · simp only [hdiagnostics, if_true, List.map_cons, List.map_nil, String.toList_empty,
        List.filter_cons, hnil, hwords, Bool.false_eq_true, if_false, List.filter_nil, and_true,
        decide_eq_true_eq]
    · simp only [hdiagnostics, if_false, List.map_nil, List.filter_nil, and_false]
  have hresult := startsWith_of_isPrefix hstart (by decide) (isPrefix_resultLine report)
  have herrors := @filter_sectionRows start "ERRORS" "[x]" hstart (by decide) (by decide)
    report.errors
  have hwarnings := @filter_sectionRows start "WARNINGS" "[!]" hstart (by decide) (by decide)
    report.warnings
  rw [linesWith, toList_text_pretty,
    Text.splitOn_endedLines (isOneLine_of_mem_prettyRows hname hmessages), prettyRows]
  simp only [List.map_append, List.filter_append, herrors, hwarnings, hpassed, List.map_cons,
    List.map_nil, String.toList_empty, List.filter_cons, List.filter_nil, hnil, hbar, hheading,
    hresult, Bool.false_eq_true, if_false, decide_eq_true_eq, List.append_nil]

/--
The lines of the report that open with the mark of the errors, with that of the warnings and with
the words for the result, if the name and the messages are on one line: one for each error, one for
each warning, in order, and one for the result.
-/
theorem linesWith_pretty
    (hname : Text.IsOneLine report.name)
    (hmessages : ∀ d ∈ report.diagnostics, Text.IsOneLine d.message) :
    linesWith "  [x] " (report.text .pretty false) =
      report.errors.map (fun d => (rowOf "[x]" d).toList) ∧
    linesWith "  [!] " (report.text .pretty false) =
      report.warnings.map (fun d => (rowOf "[!]" d).toList) ∧
    linesWith "  RESULT: " (report.text .pretty false) =
      [("  " ++ report.resultLine.text).toList] := by
  have hrows : ∀ mark (diagnostics : List Diagnostic),
      (if diagnostics = [] then [] else diagnostics.map fun d => (rowOf mark d).toList) =
        diagnostics.map fun d => (rowOf mark d).toList := by
    intro mark diagnostics
    by_cases h : diagnostics = []
    · simp [h]
    · simp [h]
  refine ⟨?_, ?_, ?_⟩
  · rw [linesWith_of_mem hname hmessages (by decide) (by decide)]
    simp [sectionLinesWith, hrows]
  · rw [linesWith_of_mem hname hmessages (by decide) (by decide)]
    simp [sectionLinesWith, hrows]
  · rw [linesWith_of_mem hname hmessages (by decide) (by decide)]
    simp [sectionLinesWith]

/-- Each warning has a line. -/
theorem rowOf_mem_prettyRows
    {d : Diagnostic}
    (hd : d ∈ report.warnings) :
    rowOf "[!]" d ∈ report.prettyRows := by
  have hrow : rowOf "[!]" d ∈ sectionRows "WARNINGS" "[!]" report.warnings := by
    rw [sectionRows, if_neg (List.ne_nil_of_mem hd)]
    exact List.mem_append_left _ (List.mem_cons_of_mem _ (List.mem_map_of_mem hd))
  simp only [prettyRows, List.mem_append]
  exact Or.inl (Or.inl (Or.inr hrow))

/-- A line that stands inside one of the lines of the report is seen as a line of its own. -/
theorem mem_linesWith_of_row
    {row : String}
    {before line after : List Char}
    (hrow : row ∈ report.prettyRows)
    (hinside : row.toList = before ++ '\n' :: (line ++ '\n' :: after))
    (hline : '\n' ∉ line)
    (hstart : start.toList <+: line) :
    line ∈ linesWith start (report.text .pretty false) := by
  refine List.mem_filter.2 ⟨?_, Text.startsWith_iff.2 hstart⟩
  obtain ⟨above, below, hrows⟩ := List.append_of_mem hrow
  rw [toList_text_pretty, hrows, List.flatMap_append, List.flatMap_cons, hinside]
  simp only [List.append_assoc, List.cons_append]
  rw [← List.append_assoc, Text.splitOn_append_cons, Text.splitOn_append_cons,
    Text.splitOn_of_not_mem hline]
  exact List.mem_append_right _ (List.mem_append_left _ (List.mem_singleton_self line))

end Lines

end Report
end SkillAudit
