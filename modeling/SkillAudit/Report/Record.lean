import SkillAudit.Json.Printer
import SkillAudit.Report

/-!
# The report as a record

The report as one JSON object: the verdict, the counts and the diagnostics in evaluation order.  The
file of a diagnostic is a text, as all names are, so that there is a record of every report.
-/

namespace SkillAudit

/-- A diagnostic as an object. -/
def Diagnostic.record (d : Diagnostic) : Json :=
  .object [
    ("rule_id", .text d.ruleId),
    ("severity", .text d.severity.text),
    ("category", .text d.category.text),
    ("message", .text d.message),
    ("file", .ofOption d.file)]

/-- The text that stands for a name: the text itself, or an object with the name as its only key. -/
def Json.nameText? : Json → Option String
  | .text name => some name
  | .object [(name, .null)] => some name
  | _ => none

/-- The optional text of a value; a value that is missing or null has none. -/
def Json.optionalText? : Option Json → Option (Option String)
  | none | some .null => some none
  | some (.text value) => some (some value)
  | _ => none

/-- Read a diagnostic from its five parts. -/
def Diagnostic.ofParts?
    (ruleId severity category message : Json)
    (file : Option Json) :
    Option Diagnostic :=
  match ruleId, message with
  | .text ruleId, .text message => do
      let severity ← severity.nameText?.bind Severity.ofText?
      let category ← category.nameText?.bind Category.ofText?
      let file ← Json.optionalText? file
      return { ruleId, severity, category, message, file }
  | _, _ => none

/-- Read a diagnostic from an object, or from the list of its parts in order. -/
def Diagnostic.ofRecord? : Json → Option Diagnostic
  | .object fields => do
      Diagnostic.ofParts? (← fields.lookup "rule_id") (← fields.lookup "severity")
        (← fields.lookup "category") (← fields.lookup "message") (fields.lookup "file")
  | .list [ruleId, severity, category, message, file] =>
      Diagnostic.ofParts? ruleId severity category message (some file)
  | _ => none

/-- Read a list of diagnostics. -/
def Diagnostic.listOfRecord? : Json → Option (List Diagnostic)
  | .list items => items.mapM Diagnostic.ofRecord?
  | _ => none

/-- A diagnostic is read back from its object. -/
@[simp] theorem Diagnostic.ofRecord?_record
    (d : Diagnostic) :
    Diagnostic.ofRecord? d.record = some d := by
  obtain ⟨ruleId, severity, category, message, file⟩ := d
  cases file <;>
    simp [Diagnostic.record, Diagnostic.ofRecord?, Diagnostic.ofParts?, List.lookup_cons,
      Json.nameText?, Json.optionalText?, Json.ofOption]

namespace Report

/-- A report as an object. -/
def record (report : Report) : Json :=
  let (errors, warnings) := report.countBySeverity
  .object [
    ("skill", .text report.name),
    ("status", .text report.status.text),
    ("passed", .bool report.passed),
    ("exit_code", .number report.exitCode),
    ("summary", .object [
      ("errors", .number errors),
      ("warnings", .number warnings)]),
    ("diagnostics", .list (report.diagnostics.map Diagnostic.record))]

end Report
end SkillAudit
