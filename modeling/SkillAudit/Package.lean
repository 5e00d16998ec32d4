import SkillAudit.Document
import SkillAudit.Path

/-!
# Packages

What the rules need to know of a package, read once.  A file is known by the names on the way to it
from the root of the package, so that a selection by directory compares names and never spellings.
-/

namespace SkillAudit

/-- A package as the rules see it. -/
structure Package where
  /-- The path by which it was read. -/
  root : String
  /-- The name of its directory. -/
  name : String
  /-- The entry document, if there is one. -/
  document : Option Document
  /-- The regular files, each by its names from the root, in order. -/
  files : List (List String)
  /-- The names of the entries of the root, in order. -/
  topLevel : List String
  /-- The text of the exclusion file, if there is one. -/
  exclusions : Option String
  deriving DecidableEq, Repr

namespace Package

/-- The parts of the path of a file. -/
def fileParts (file : List String) : List PathPart :=
  file.map .name

/-- The files at any depth below a directory. -/
def filesUnder (package : Package) (directory : String) : List (List String) :=
  package.files.filter fun file => (Path.parts directory).isPrefixOf (fileParts file)

/-- The files in a directory itself. -/
def filesDirectlyIn (package : Package) (directory : String) : List (List String) :=
  package.files.filter fun file => fileParts file.dropLast == Path.parts directory

/-- A file below a directory is a file whose first names are those of the directory. -/
theorem mem_filesUnder
    {package : Package}
    {directory : String}
    {file : List String} :
    file ∈ package.filesUnder directory ↔
      file ∈ package.files ∧ Path.parts directory <+: fileParts file := by
  simp [filesUnder]

end Package
end SkillAudit
