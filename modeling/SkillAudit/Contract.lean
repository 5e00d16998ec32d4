import SkillAudit.Text.Pattern

/-!
# The packaging contract

Every file name, threshold and word list of the contract, as data.  The checks consult these and
hold no constants of their own.
-/

namespace SkillAudit
namespace Contract

/-- The file that every package has at its root. -/
def entryFile : String := "SKILL.md"

/-- The line that opens and closes the header block. -/
def headerDelimiter : String := "---"

/-- Documents that no package ships at its root. -/
def forbiddenFiles : List String :=
  ["README.md", "INSTALLATION_GUIDE.md", "QUICK_REFERENCE.md", "CHANGELOG.md", "SETUP.md",
    "CONTRIBUTING.md"]

/-- Words that no package name contains in any case. -/
def forbiddenNameWords : List String := ["anthropic", "claude"]

/-- The keys that a header may have. -/
def allowedFields : List String :=
  ["name", "description", "argument-hint", "disable-model-invocation", "user-invocable",
    "allowed-tools", "model", "context", "agent", "hooks", "license", "compatibility", "metadata"]

def maxNameLength : Nat := 64

def maxDescriptionLength : Nat := 1024

def minDescriptionLength : Nat := 30

/-- The most lines that a body may have. -/
def maxBodyLines : Nat := 500

/-- A body with more lines than this, four fifths of the most, is close to the limit. -/
def bodyWarnLines : Nat := maxBodyLines * 4 / 5

def minBodyLines : Nat := 5

/-- The start of a heading of the first level. -/
def topLevelHeading : String := "# "

/-- Small letters and digits. -/
def nameEdge : Text.Pattern := .oneOf [('a', 'z'), ('0', '9')]

/-- The shapes of a package name: an inner hyphen is allowed, an outer one is not. -/
def nameShapes : List Text.Pattern :=
  [.andThen nameEdge
      (.andThen (.many (.oneOf [('a', 'z'), ('0', '9'), ('-', '-')])) nameEdge),
    nameEdge]

/-- The written form of the name shapes. -/
def namePattern : String :=
  "|".intercalate (nameShapes.map fun shape => "^" ++ shape.text ++ "$")

/-- Starts of a value that show that its text stands on the following lines. -/
def blockScalarIndicators : List String := [">-", "|"]

/-- A description in the first person starts so or says so, in any case. -/
def firstPersonStart : String := "i "

def firstPersonPhrases : List String := ["i can", "i will"]

/-- A description in the second person says so, in any case. -/
def secondPersonPhrases : List String := ["you can", "you should"]

/-- One of these says when a package is to be used. -/
def triggerPhrases : List String := ["use when", "use this"]

/-- The file that excludes generated files. -/
def exclusionFile : String := ".gitignore"

/-- What the exclusion file has to mention. -/
def requiredExclusions : List String := [".venv", "__pycache__"]

def scriptsDirectory : String := "scripts"

def referencesDirectory : String := "references"

/-- The most parts that the path of a reference may have. -/
def maxReferenceDepth : Nat := 3

/-- Directories at the root of a package that hold no content of it. -/
def skippedDirectories : List String := [".git", ".venv", "node_modules", "__pycache__"]

end Contract
end SkillAudit
