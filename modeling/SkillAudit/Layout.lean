import SkillAudit.Package
import SkillAudit.Rule
import SkillAudit.Text.Search

/-!
# Layout checks

The rules on the files of a package.  The rules on its root come before the script checks and the
rule on references after them; a missing entry document is reported alone.
-/

namespace SkillAudit
namespace Layout

/-- A package has an entry document. -/
def entryMissing : Rule where
  id := "structure/entry-missing"
  severity := .error
  category := .layout
  summary := "Entry file SKILL.md not found"
  remediation := "Create SKILL.md at the skill root with name and description frontmatter"

/-- The one diagnostic of a package without an entry document. -/
def entryMissingDiagnostic : Diagnostic :=
  entryMissing.diagnostic (.inEntry ("entry file not found: " ++ Contract.entryFile))

/-- The root holds no auxiliary document. -/
def forbiddenFile : Check Package where
  rule :=
    { id := "structure/forbidden-file"
      severity := .error
      category := .layout
      summary := "Auxiliary document in the skill root"
      remediation := "Remove the file; skills carry their documentation in SKILL.md" }
  violations package :=
    (package.topLevel.filter fun name => Contract.forbiddenFiles.contains name).map fun name =>
      { message :=
          "forbidden file: " ++ name ++ " (skills should not include auxiliary docs)"
        file := some name }

/-- The root holds an exclusion file. -/
def missingExclusionFile : Check Package where
  rule :=
    { id := "structure/missing-exclusion-file"
      severity := .warning
      category := .layout
      summary := "No .gitignore in the skill root"
      remediation := "Add a .gitignore excluding .venv/, data/, and __pycache__/" }
  violations package :=
    if package.exclusions.isSome then
      []
    else
      [{ message :=
          "missing exclusion file: no .gitignore found " ++
            "(recommend excluding .venv/, data/, __pycache__/)" }]

/-- The exclusion file mentions everything that it has to. -/
def missingExclusion : Check Package where
  rule :=
    { id := "structure/missing-exclusion"
      severity := .warning
      category := .layout
      summary := ".gitignore is missing a required exclusion"
      remediation := "Add the missing pattern to .gitignore" }
  violations package :=
    match package.exclusions with
    | none => []
    | some text =>
        (Contract.requiredExclusions.filter fun pattern =>
          !Text.occursIn pattern.toList text.toList).map fun pattern =>
            { message := ".gitignore missing '" ++ pattern ++ "' exclusion"
              file := some Contract.exclusionFile }

/-- No reference lies too deep. -/
def deepNesting : Check Package where
  rule :=
    { id := "structure/deep-nesting"
      severity := .warning
      category := .layout
      summary := "Reference file nested too deeply"
      remediation :=
        "Keep references one level deep (references/<file> or references/<dir>/<file>)" }
  violations package :=
    ((package.filesUnder Contract.referencesDirectory).filter fun file =>
      Contract.maxReferenceDepth < file.length).map fun file =>
        { message :=
            "deep nesting: " ++ Path.ofNames file ++ " (keep references one level deep)"
          file := some (Path.ofNames file) }

/-- The checks before the scripts, in evaluation order. -/
def rootChecks : List (Check Package) :=
  [forbiddenFile, missingExclusionFile, missingExclusion]

/-- The checks after the scripts, in evaluation order. -/
def referenceChecks : List (Check Package) :=
  [deepNesting]

end Layout
end SkillAudit
