import SkillAudit.Rule
import SkillAudit.Text.Lines
import SkillAudit.Text.Search

/-!
# Body checks

The rules on the text after the header.  Lines are what stands between line feeds, so an empty body
has one line.
-/

namespace SkillAudit
namespace Body

/-- The lines of a body. -/
def lines (body : String) : List (List Char) :=
  Text.splitOn '\n' body.toList

/-- The number of lines of a body. -/
def lineCount (body : String) : Nat :=
  (lines body).length

/-- Whether some line is a heading of the first level. -/
def hasHeading (body : String) : Bool :=
  (lines body).any (Text.startsWith Contract.topLevelHeading.toList)

/-- The body is not too long. -/
def tooLong : Check String where
  rule :=
    { id := "body/too-long"
      severity := .error
      category := .body
      summary := "Body exceeds 500 lines"
      remediation := "Move detail into references/ and keep SKILL.md to 500 lines or fewer" }
  violations body :=
    Violation.inEntryIf (Contract.maxBodyLines < lineCount body)
      ("body too long: " ++ toString (lineCount body) ++ " lines (max " ++
        toString Contract.maxBodyLines ++ ")")

/-- The body is not close to being too long. -/
def approachingLimit : Check String where
  rule :=
    { id := "body/approaching-limit"
      severity := .warning
      category := .body
      summary := "Body is over 80% of the 500-line limit"
      remediation := "Move detail into references/ before the body hits the limit" }
  violations body :=
    Violation.inEntryIf
      (Contract.bodyWarnLines < lineCount body && lineCount body ≤ Contract.maxBodyLines)
      ("body approaching limit: " ++ toString (lineCount body) ++ " lines (max " ++
        toString Contract.maxBodyLines ++ ")")

/-- The body is not very short. -/
def veryShort : Check String where
  rule :=
    { id := "body/very-short"
      severity := .warning
      category := .body
      summary := "Body is very short and may lack sufficient instructions"
      remediation := "Add step-by-step instructions for the agent" }
  violations body :=
    Violation.inEntryIf (lineCount body < Contract.minBodyLines)
      ("body very short: " ++ toString (lineCount body) ++
        " lines, may lack sufficient instructions")

/-- The body has a heading of the first level. -/
def noHeading : Check String where
  rule :=
    { id := "body/no-heading"
      severity := .warning
      category := .body
      summary := "No top-level heading"
      remediation := "Start the body with '# Skill Name'" }
  violations body :=
    Violation.inEntryIf (!hasHeading body) "no top-level heading found (start with '# Skill Name')"

/-- The checks of a body, in evaluation order. -/
def checks : List (Check String) :=
  [tooLong, approachingLimit, veryShort, noHeading]

/-- The diagnostics of a body. -/
def diagnostics (body : String) : List Diagnostic :=
  runChecks checks body

/-- One line more than there are line feeds. -/
theorem lineCount_eq
    (body : String) :
    lineCount body = body.toList.count '\n' + 1 :=
  Text.length_splitOn '\n' body.toList

end Body
end SkillAudit
