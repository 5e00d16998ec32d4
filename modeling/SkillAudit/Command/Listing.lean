import SkillAudit.Catalogue
import SkillAudit.Host.Lookup
import SkillAudit.Style

/-!
# Listings

The texts that tell about the rules and the interpreters, without looking at any package.
-/

namespace SkillAudit
namespace Command

/-- A text filled up with blanks to a width. -/
def padded (width : Nat) (text : String) : String :=
  text ++ String.ofList (List.replicate (width - text.length) ' ')

/-- How a severity is shown in the list of rules. -/
def severitySpan : Severity → Span
  | .error => .styled (.boldIn .red) "ERROR"
  | .warning => .styled (.boldIn .yellow) " WARN"

/-- The line of a rule. -/
def ruleLine (rule : Rule) : List Span :=
  [.plain "    [", severitySpan rule.severity,
    .plain ("] " ++ padded 36 rule.id ++ " " ++ rule.summary ++ "\n")]

/-- The heading of a group of rules; a blank line separates it from the group before. -/
def categoryHeading (first : Bool) (category : Category) : List Span :=
  [.plain (if first then "  " else "\n  "), .styled .bold category.text, .plain "\n"]

/-- The lines of rules; a heading stands wherever the category changes. -/
def ruleLines : (current : Option Category) → List Rule → List Span
  | _, [] => []
  | current, rule :: rest =>
      (if current = some rule.category then []
        else categoryHeading current.isNone rule.category) ++
      ruleLine rule ++ ruleLines (some rule.category) rest

/-- The list of all rules. -/
def ruleList : List Span :=
  [.styled .heading "Built-in Rules", .plain "\n\n"] ++
  ruleLines none Catalogue.rules ++
  [.plain ("\n  Total: " ++ toString Catalogue.rules.length ++ " rules\n")]

/-- All that is to be said of a rule. -/
def explanation (rule : Rule) : List Span :=
  [.styled .bold rule.id,
    .plain ("\n\n  Category:     " ++ rule.category.text ++
      "\n  Severity:     " ++ rule.severity.text ++
      "\n  Description:  " ++ rule.summary ++
      "\n  Remediation:  " ++ rule.remediation ++ "\n")]

/-- The line of the interpreter of a language. -/
def interpreterLine
    (host : Host)
    (interpreters : Interpreters)
    (language : Script.Language) :
    List Span :=
  let program := interpreters.program language
  [.plain "  [",
    if host.hasProgram program then .styled (.boldIn .green) "READY"
    else .styled (.plainIn .red) "NOT AVAILABLE",
    .plain ("] " ++ padded 10 language.name ++ " " ++ padded 12 program ++ " *." ++
      ", *.".intercalate language.extensions ++ "\n")]

/-- Which interpreters can be run. -/
def interpreterList (host : Host) (interpreters : Interpreters) : List Span :=
  [.styled .heading "Interpreter Availability", .plain "\n\n"] ++
  Script.Language.all.flatMap (interpreterLine host interpreters) ++
  [.plain ("\nNote: scripts whose interpreter is missing get a " ++
    "scripts/unchecked warning.\n")]

end Command
end SkillAudit
