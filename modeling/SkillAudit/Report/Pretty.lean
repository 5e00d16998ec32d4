import SkillAudit.Report
import SkillAudit.Style

/-!
# The report for people

A banner with the name, a section for the errors, a section for the warnings, and the result.  A
section is there when it has something to show; without any diagnostic a line says so.
-/

namespace SkillAudit
namespace Report

/-- The line between the blocks. -/
def bar : String :=
  String.ofList (List.replicate 60 '=')

/-- The lines of the diagnostics of a section. -/
def sectionLines (marker : Span) (diagnostics : List Diagnostic) : List Span :=
  diagnostics.flatMap fun d =>
    [.plain "  ", marker, .plain (" " ++ d.text ++ "\n")]

/-- A section with a heading; nothing when there is nothing to show. -/
def sectionOf
    (title mark : String)
    (color : Color)
    (count : Nat)
    (diagnostics : List Diagnostic) :
    List Span :=
  if 0 < count then
    [.styled (.boldIn color) (title ++ " (" ++ toString count ++ "):"), .plain "\n"] ++
    sectionLines (.styled (.plainIn color) mark) diagnostics ++
    [.plain "\n"]
  else
    []

/-- The line that says what came out. -/
def resultLine (report : Report) : Span :=
  let (errors, warnings) := report.countBySeverity
  if report.passed then
    .styled (.boldIn .green) ("RESULT: PASS (" ++ toString warnings ++ " warnings)")
  else
    .styled (.boldIn .red) ("RESULT: FAIL (" ++ toString errors ++ " errors, " ++
      toString warnings ++ " warnings)")

/-- The block of a report without diagnostics. -/
def allPassed : List Span :=
  [.plain "  ", .styled (.boldIn .green) "ALL CHECKS PASSED", .plain "\n\n"]

/-- The report for people. -/
def pretty (report : Report) : List Span :=
  let (errors, warnings) := report.countBySeverity
  [.plain ("\n" ++ bar ++ "\n  "),
    .styled .bold ("Skill Validation: " ++ report.name),
    .plain ("\n" ++ bar ++ "\n\n")] ++
  sectionOf "ERRORS" "[x]" .red errors report.errors ++
  sectionOf "WARNINGS" "[!]" .yellow warnings report.warnings ++
  (if errors = 0 ∧ warnings = 0 then allPassed else []) ++
  [.plain (bar ++ "\n  "), resultLine report, .plain ("\n" ++ bar ++ "\n\n")]

end Report
end SkillAudit
