import SkillAudit.Catalogue
import SkillAudit.Json.Printer
import SkillAudit.Report

/-!
# The report as SARIF

One run with one result for each diagnostic.  The rules that occur are described once each, in the
order of their identifiers, and every result refers to its rule by position.  A rule outside the
catalogue is described by the message of its first diagnostic.
-/

namespace SkillAudit
namespace Report
namespace Sarif

/-- Put a diagnostic at the place of its identifier, unless one with that identifier is there. -/
def addFirst (d : Diagnostic) : List Diagnostic → List Diagnostic
  | [] => [d]
  | first :: rest =>
      if d.ruleId = first.ruleId then first :: rest
      else if d.ruleId < first.ruleId then d :: first :: rest
      else first :: addFirst d rest

/-- The first diagnostic of each identifier, in the order of the identifiers. -/
def firsts (diagnostics : List Diagnostic) : List Diagnostic :=
  diagnostics.foldl (fun found d => addFirst d found) []

/-- The identifiers that occur, in order. -/
def ruleIds (diagnostics : List Diagnostic) : List String :=
  (firsts diagnostics).map (·.ruleId)

/-- An object with one text. -/
def textObject (text : String) : Json :=
  .object [("text", .text text)]

/-- The description of the rule of a diagnostic. -/
def descriptor (first : Diagnostic) : Json :=
  match Catalogue.find? first.ruleId with
  | some rule =>
      .object [
        ("help", textObject rule.remediation),
        ("id", .text first.ruleId),
        ("shortDescription", textObject rule.summary)]
  | none =>
      .object [
        ("id", .text first.ruleId),
        ("shortDescription", textObject first.message)]

/-- The address of a file: its path, with a slash for every backslash. -/
def uri (file : String) : String :=
  String.ofList (file.toList.map fun c => if c = '\\' then '/' else c)

/-- The place of a file. -/
def location (file : String) : Json :=
  .object [
    ("physicalLocation", .object [
      ("artifactLocation", .object [("uri", .text (uri file))])])]

/-- The locations of a diagnostic, missing when it has no file. -/
def locations (d : Diagnostic) : List (String × Json) :=
  match d.file with
  | some file => [("locations", .list [location file])]
  | none => []

/-- The places of the identifiers, which count from zero. -/
def places (ids : List String) : List (String × Nat) :=
  ids.zipIdx

/-- The place of the rule of a diagnostic, missing when the rule is not described. -/
def ruleIndex (places : List (String × Nat)) (d : Diagnostic) : List (String × Json) :=
  match places.lookup d.ruleId with
  | some place => [("ruleIndex", .number place)]
  | none => []

/-- The result of a diagnostic, with the places of the rules that are described. -/
def result (places : List (String × Nat)) (d : Diagnostic) : Json :=
  .object (
    [("level", .text d.severity.text)] ++
    locations d ++
    [("message", textObject d.message), ("ruleId", .text d.ruleId)] ++
    ruleIndex places d)

end Sarif

/-- The report as a SARIF document. -/
def sarif (report : Report) : Json :=
  let places := Sarif.places (Sarif.ruleIds report.diagnostics)
  .object [
    ("runs", .list [
      .object [
        ("results", .list (report.diagnostics.map (Sarif.result places))),
        ("tool", .object [
          ("driver", .object [
            ("name", .text "oxidized-skill-lint"),
            ("rules", .list ((Sarif.firsts report.diagnostics).map Sarif.descriptor)),
            ("version", .text "0.1.0")])])]]),
    ("version", .text "2.1.0")]

end Report
end SkillAudit
