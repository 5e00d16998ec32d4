/-!
# Diagnostics

One violation of the packaging contract: which rule it breaks, how severe that is, what it is about
and where it is.
-/

namespace SkillAudit

/-- How severe a violation is. -/
inductive Severity where
  | error
  | warning
  deriving DecidableEq, Repr

/-- The name of a severity. -/
def Severity.text : Severity → String
  | .error => "error"
  | .warning => "warning"

/-- The severity of a name. -/
def Severity.ofText? : String → Option Severity
  | "error" => some .error
  | "warning" => some .warning
  | _ => none

/-- Which part of the contract a violation is about. -/
inductive Category where
  | layout
  | scripts
  | frontmatter
  | name
  | description
  | body
  deriving DecidableEq, Repr

/-- The name of a category. -/
def Category.text : Category → String
  | .layout => "structure"
  | .scripts => "scripts"
  | .frontmatter => "frontmatter"
  | .name => "name"
  | .description => "description"
  | .body => "body"

/-- The category of a name. -/
def Category.ofText? : String → Option Category
  | "structure" => some .layout
  | "scripts" => some .scripts
  | "frontmatter" => some .frontmatter
  | "name" => some .name
  | "description" => some .description
  | "body" => some .body
  | _ => none

/-- One violation. -/
structure Diagnostic where
  ruleId : String
  severity : Severity
  category : Category
  message : String
  /-- Where the violation is, seen from the root of the package. -/
  file : Option String
  deriving DecidableEq, Repr

/-- The one-line form of a diagnostic. -/
def Diagnostic.text (d : Diagnostic) : String :=
  "[" ++ d.category.text ++ "] " ++ d.message

/-- The name of a severity stands for it. -/
@[simp] theorem Severity.ofText?_text
    (s : Severity) :
    Severity.ofText? s.text = some s := by
  cases s <;> rfl

/-- The name of a category stands for it. -/
@[simp] theorem Category.ofText?_text
    (c : Category) :
    Category.ofText? c.text = some c := by
  cases c <;> rfl

end SkillAudit
