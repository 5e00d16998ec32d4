import SkillAudit.Frontmatter.Header
import SkillAudit.Rule
import SkillAudit.Text.Lowercase
import SkillAudit.Text.Search

/-!
# Header checks

The rules on the header of the entry document.  Without a header one rule fires and no other.  A
name or a description that is empty counts as missing, and the rules on its content are silent
then.
-/

namespace SkillAudit
namespace Frontmatter

/-- The name of a header, unless it is empty. -/
def name? (header : Header) : Option String :=
  header.nonEmpty? "name"

/-- The description of a header, unless it is empty. -/
def description? (header : Header) : Option String :=
  header.nonEmpty? "description"

/-- What a test says of an optional text; a missing text is not tested. -/
def onText (text : Option String) (test : String → List Violation) : List Violation :=
  match text with
  | some content => test content
  | none => []

@[simp] theorem onText_none
    (test : String → List Violation) :
    onText none test = [] := by
  rfl

@[simp] theorem onText_some
    (content : String)
    (test : String → List Violation) :
    onText (some content) test = test content := by
  rfl

/-- Whether one of the words occurs in the text. -/
def mentionsOne (words : List String) (text : List Char) : Bool :=
  words.any fun word => Text.occursIn word.toList text

/-- The small form of a text. -/
def small (text : String) : List Char :=
  Text.lowercase text.toList

/-- Whether a name has one of the allowed shapes. -/
def hasNameShape (name : String) : Bool :=
  Contract.nameShapes.any fun shape => shape.accepts name.toList

/-- Whether a description is written in the first person. -/
def isFirstPerson (description : String) : Bool :=
  Text.startsWith Contract.firstPersonStart.toList (small description) ||
    mentionsOne Contract.firstPersonPhrases (small description)

/-- Whether a written value shows that its text stands on the following lines. -/
def isBlockScalar (raw : String) : Bool :=
  Contract.blockScalarIndicators.any fun indicator =>
    Text.startsWith indicator.toList raw.toList

/-- A document has to open with a header. -/
def noHeader : Rule where
  id := "frontmatter/no-header"
  severity := .error
  category := .frontmatter
  summary := "No header block found (SKILL.md must start with ---)"
  remediation :=
    "Open SKILL.md with a '---' line, the name and description fields, and a closing '---' line"

/-- The name is given. -/
def missingName : Check Header where
  rule :=
    { id := "frontmatter/missing-name"
      severity := .error
      category := .frontmatter
      summary := "Missing name field"
      remediation := "Add 'name: my-skill' to the frontmatter" }
  violations header := Violation.inEntryIf (name? header).isNone "missing name field"

/-- The name is not too long. -/
def nameTooLong : Check Header where
  rule :=
    { id := "name/too-long"
      severity := .error
      category := .name
      summary := "Name exceeds 64 characters"
      remediation := "Shorten the skill name to 64 characters or fewer" }
  violations header :=
    onText (name? header) fun name =>
      Violation.inEntryIf (Contract.maxNameLength < name.length)
        ("name too long: " ++ toString name.length ++ " chars (max " ++
          toString Contract.maxNameLength ++ ")")

/-- The name has an allowed shape. -/
def nameShape : Check Header where
  rule :=
    { id := "name/invalid-shape"
      severity := .error
      category := .name
      summary := "Name must be lowercase letters, digits, and interior hyphens"
      remediation := "Rename to lowercase-kebab-case (e.g. 'pdf-tools' not 'PDF Tools')" }
  violations header :=
    onText (name? header) fun name =>
      Violation.inEntryIf (!hasNameShape name)
        ("invalid shape: '" ++ name ++
          "' must be lowercase letters, digits, and interior hyphens")

/-- The name contains no reserved word. -/
def nameWords : Check Header where
  rule :=
    { id := "name/forbidden-word"
      severity := .error
      category := .name
      summary := "Name contains a reserved word"
      remediation := "Choose a name that does not contain 'anthropic' or 'claude'" }
  violations header :=
    onText (name? header) fun name =>
      (Contract.forbiddenNameWords.filter fun word => Text.occursIn word.toList (small name)).map
        fun word => .inEntry ("forbidden word '" ++ word ++ "' in name")

/-- The name contains no angle bracket. -/
def nameMarkup : Check Header where
  rule :=
    { id := "name/markup"
      severity := .error
      category := .name
      summary := "Markup characters disallowed in name"
      remediation := "Remove '<' and '>' from the name field" }
  violations header :=
    onText (name? header) fun name =>
      Violation.inEntryIf (name.toList.contains '<' || name.toList.contains '>')
        "markup characters disallowed in name"

/-- The description is given. -/
def missingDescription : Check Header where
  rule :=
    { id := "frontmatter/missing-description"
      severity := .error
      category := .frontmatter
      summary := "Missing description field"
      remediation := "Add a description saying what the skill does and when to use it" }
  violations header := Violation.inEntryIf (description? header).isNone "missing description field"

/-- The description is not too long. -/
def descriptionTooLong : Check Header where
  rule :=
    { id := "description/too-long"
      severity := .error
      category := .description
      summary := "Description exceeds 1024 characters"
      remediation := "Shorten the description to 1024 characters or fewer" }
  violations header :=
    onText (description? header) fun text =>
      Violation.inEntryIf (Contract.maxDescriptionLength < text.length)
        ("description too long: " ++ toString text.length ++ " chars (max " ++
          toString Contract.maxDescriptionLength ++ ")")

/-- The description is not too short. -/
def descriptionTooShort : Check Header where
  rule :=
    { id := "description/too-short"
      severity := .warning
      category := .description
      summary := "Description shorter than 30 characters"
      remediation := "Describe what the skill does and when it should be used" }
  violations header :=
    onText (description? header) fun text =>
      Violation.inEntryIf (text.length < Contract.minDescriptionLength)
        ("description too short: " ++ toString text.length ++ " chars (recommend at least " ++
          toString Contract.minDescriptionLength ++ ")")

/-- The description contains no pair of angle brackets. -/
def descriptionMarkup : Check Header where
  rule :=
    { id := "description/markup"
      severity := .error
      category := .description
      summary := "Markup characters disallowed in description"
      remediation := "Remove XML/HTML tags from the description field" }
  violations header :=
    onText (description? header) fun text =>
      Violation.inEntryIf (text.toList.contains '<' && text.toList.contains '>')
        "markup characters disallowed in description"

/-- The description stands on its own line; the written value shows it, quotes included. -/
def descriptionBlockScalar : Check Header where
  rule :=
    { id := "description/block-scalar"
      severity := .error
      category := .description
      summary := "Block-scalar indicators (>- or |) break downstream indexing"
      remediation := "Write the description on one line as a single-quoted string" }
  violations header :=
    onText (description? header) fun _ =>
      onText ((header.field? "description").map (·.raw)) fun raw =>
        Violation.inEntryIf (isBlockScalar raw)
          ("block-scalar indicators (>- or |) break downstream indexing; " ++
            "use a single-quoted string")

/-- The description is not in the first person. -/
def descriptionFirstPerson : Check Header where
  rule :=
    { id := "description/first-person"
      severity := .warning
      category := .description
      summary := "Description should be third person (not 'I can/will')"
      remediation := "Rewrite in third person (e.g. 'Extracts tables from PDFs...')" }
  violations header :=
    onText (description? header) fun text =>
      Violation.inEntryIf (isFirstPerson text)
        "description should be third person (not 'I can/will')"

/-- The description is not in the second person. -/
def descriptionSecondPerson : Check Header where
  rule :=
    { id := "description/second-person"
      severity := .warning
      category := .description
      summary := "Description should be third person (not 'you can/should')"
      remediation := "Rewrite in third person (e.g. 'Extracts tables from PDFs...')" }
  violations header :=
    onText (description? header) fun text =>
      Violation.inEntryIf (mentionsOne Contract.secondPersonPhrases (small text))
        "description should be third person (not 'you can/should')"

/-- The description says when the package is to be used. -/
def descriptionTrigger : Check Header where
  rule :=
    { id := "description/no-trigger"
      severity := .warning
      category := .description
      summary := "Description is missing usage-trigger language"
      remediation := "Append 'Use when <specific trigger condition>.' to the description" }
  violations header :=
    onText (description? header) fun text =>
      Violation.inEntryIf (!mentionsOne Contract.triggerPhrases (small text))
        "missing usage-trigger language (add 'Use when...' for better triggering)"

/-- Every key is an allowed one. -/
def unknownField : Check Header where
  rule :=
    { id := "frontmatter/unknown-field"
      severity := .warning
      category := .frontmatter
      summary := "Unknown frontmatter field"
      remediation := "Remove the field or move it under 'metadata'" }
  violations header :=
    (header.keys.filter fun key => !Contract.allowedFields.contains key).map
      fun key => .inEntry ("unknown field '" ++ key ++ "'")

/-- The checks of a header, in evaluation order. -/
def checks : List (Check Header) :=
  [missingName, nameTooLong, nameShape, nameWords, nameMarkup, missingDescription,
    descriptionTooLong, descriptionTooShort, descriptionMarkup, descriptionBlockScalar,
    descriptionFirstPerson, descriptionSecondPerson, descriptionTrigger, unknownField]

/-- The diagnostics of a header, or of its absence. -/
def diagnostics : Option Header → List Diagnostic
  | none =>
      [noHeader.diagnostic
        (.inEntry "no header block found (SKILL.md must start with ---)")]
  | some header => runChecks checks header

end Frontmatter
end SkillAudit
