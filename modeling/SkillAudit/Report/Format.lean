import SkillAudit.Report.Pretty
import SkillAudit.Report.Record
import SkillAudit.Report.Sarif

/-!
# Forms of a report

The three forms in which a report is given out.  Colors touch the form for people only, and a report
that goes to a file never has them.
-/

namespace SkillAudit

/-- A form of a report. -/
inductive Format where
  | pretty
  | json
  | sarif
  deriving DecidableEq, Repr

/-- The form of a name; names are in small letters. -/
def Format.ofText? : String → Option Format
  | "pretty" => some .pretty
  | "json" => some .json
  | "sarif" => some .sarif
  | _ => none

namespace Report

/-- The text of a report. -/
def text (report : Report) (format : Format) (colored : Bool) : String :=
  match format with
  | .pretty => Span.renderAll colored report.pretty
  | .json => report.record.render
  | .sarif => report.sarif.render

/-- The text with a line feed at its end, added only where there is none. -/
def endLine (text : String) : String :=
  if text.toList.getLast? = some '\n' then text else text ++ "\n"

/-- What is printed for a report. -/
def printed (report : Report) (format : Format) (colored : Bool) : String :=
  endLine (report.text format colored)

/-- What is written to a file for a report. -/
def filed (report : Report) (format : Format) : String :=
  report.printed format false

end Report
end SkillAudit
