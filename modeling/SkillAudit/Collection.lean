import SkillAudit.Contract
import SkillAudit.FileSystem.Resolution
import SkillAudit.Report
import SkillAudit.Style

/-!
# Collections

A collection is a directory of packages.  Its packages are the directories in it that hold an entry
document, in the order of their names; a link to a directory is not one of them.  The summary has a
row for each package and counts the verdicts.
-/

namespace SkillAudit
namespace Collection

/-- The directories in a directory, by name in order. -/
def directoriesIn (fs : FileSystem) (path : String) : List String :=
  match fs.node path with
  | .ok (.directory entries) => (entries.filter (·.2.isDirectory)).map (·.1)
  | _ => []

/-- The paths of the packages of a collection. -/
def packages (fs : FileSystem) (path : String) : List String :=
  ((directoriesIn fs path).map (Path.join path)).filter fun directory =>
    fs.isFile (Path.join directory Contract.entryFile)

/-- The mark and the label of a verdict. -/
def verdictSpans : Status → Span × Span
  | .failed => (.styled (.plainIn .red) "✗", .styled (.boldIn .red) "FAILED ")
  | .warning => (.styled (.plainIn .yellow) "⚠", .styled (.boldIn .yellow) "WARNING")
  | .passed => (.styled (.plainIn .green) "✓", .styled (.boldIn .green) "PASSED ")

/-- A name filled up with blanks to the width of the column of names. -/
def nameColumn (name : String) : String :=
  name ++ String.ofList (List.replicate (22 - name.length) ' ')

/-- The row of a report. -/
def row (report : Report) : List Span :=
  let (mark, label) := verdictSpans report.status
  let (errors, warnings) := report.countBySeverity
  [.plain "  ", mark, .plain ("  " ++ nameColumn report.name ++ " "), label,
    .plain ("  " ++ toString errors ++ "e " ++ toString warnings ++ "w\n")]

/-- How many reports have a verdict. -/
def tally (reports : List Report) (status : Status) : Nat :=
  reports.countP (·.status = status)

/-- The line above and below the rows. -/
def bar : Span :=
  .styled .rule (String.ofList (List.replicate 54 '─'))

/-- The summary of the reports on a collection. -/
def summary (path : String) (reports : List Report) : List Span :=
  let count (status : Status) (label : String) (color : Color) : Span :=
    .styled (.boldIn color) (toString (tally reports status) ++ label)
  [.plain "\n",
    .styled .heading ("  Collection Summary: " ++ path ++ "  (" ++
      toString reports.length ++ " skills)"),
    .plain "\n", bar, .plain "\n"] ++
  reports.flatMap row ++
  [bar, .plain "\n  Total: ",
    count .failed " failed" .red, .plain "  ",
    count .warning " warnings" .yellow, .plain "  ",
    count .passed " passed" .green, .plain "\n"]

/-- Every report is counted under exactly one verdict. -/
theorem tally_sum
    (reports : List Report) :
    tally reports .failed + tally reports .warning + tally reports .passed = reports.length := by
  induction reports with
  | nil =>
      rfl
  | cons report rest ih =>
      simp only [tally, List.countP_cons, List.length_cons] at ih ⊢
      cases report.status <;> simp <;> omega

end Collection
end SkillAudit
