import SkillAudit.Contract
import SkillAudit.FileSystem.Resolution
import SkillAudit.Package
import SkillAudit.RunError

/-!
# Reading a package

A package is read from a file system in one pass.  The entries of its tree are met depth first, a
directory before what is in it and the entries of a directory in the order of their names.  A link
below the root is never followed, and some directories at the root are left out whole.  The regular
files that are met are gathered in a set, whose order compares paths name by name.

The walk is an ideal one.  It goes down the tree and makes no paths, so that no directory is too
deep for it, and every directory can be opened; only the two documents are looked for by their paths
and within the limits of the system.
-/

namespace SkillAudit
namespace Package

/-- An entry that is met on the way through a package. -/
structure Visit where
  /-- The names on the way to it from the root of the package. -/
  names : List String
  node : Node

namespace Visit

/-- Whether an entry is left out with all that is below it: a directory of the root that holds no
content of the package. -/
def isSkipped : Visit → Bool
  | ⟨[name], .directory _⟩ => Contract.skippedDirectories.contains name
  | _ => false

/-- The path of a regular file. -/
def file? : Visit → Option (List String)
  | ⟨names, .file _⟩ => some names
  | _ => none

/-- The name of an entry of the root. -/
def rootName? : Visit → Option String
  | ⟨[name], _⟩ => some name
  | _ => none

end Visit

mutual

/-- The entries that are met below a node; `above` are the names on the way to it. -/
def visitsBelow (above : List String) : Node → List Visit
  | .directory entries => visitsAmong above entries
  | _ => []

/-- The entries that are met among the entries of a directory and below them. -/
def visitsAmong (above : List String) : List (String × Node) → List Visit
  | [] => []
  | (name, node) :: rest =>
      let visit : Visit := ⟨above ++ [name], node⟩
      if visit.isSkipped then
        visitsAmong above rest
      else
        visit :: (visitsBelow visit.names node ++ visitsAmong above rest)

end

/-- The entries that are met from a path on; there are none when it names no directory. -/
def visitsAt (fs : FileSystem) (path : String) : List Visit :=
  match fs.node path with
  | .ok node => visitsBelow [] node
  | .error _ => []

/-- Put a path in its place among paths in order; one that is there is not put in again. -/
def insertPath (path : List String) : List (List String) → List (List String)
  | [] => [path]
  | other :: rest =>
      if path = other then other :: rest
      else if path < other then path :: other :: rest
      else other :: insertPath path rest

/-- The set of some paths, in order. -/
def pathSet (paths : List (List String)) : List (List String) :=
  paths.foldl (fun set path => insertPath path set) []

/-- The name under which a package is reported. -/
def nameOf (path : String) : String :=
  (Path.fileName? path).getD "unknown"

/-- The document at a path, if a regular file is there. -/
def readDocument (fs : FileSystem) (path : String) : Except RunError (Option Document) :=
  if fs.isFile path then
    match fs.readBytes path with
    | .ok bytes => .ok (some (Document.ofText (Text.Utf8.decodeLenient bytes)))
    | .error fault => .error (.unreadable path fault.message)
  else
    .ok none

/-- The text at a path, if a regular file is there; one that cannot be read counts as empty. -/
def readExclusions (fs : FileSystem) (path : String) : Option String :=
  if fs.isFile path then
    match fs.readBytes path with
    | .ok bytes => some (Text.Utf8.decodeLenient bytes)
    | .error _ => some ""
  else
    none

/-- Read the package at a path. -/
def load (fs : FileSystem) (path : String) : Except RunError Package := do
  let document ← readDocument fs (Path.join path Contract.entryFile)
  let visits := visitsAt fs path
  return {
    root := path
    name := nameOf path
    document
    files := pathSet (visits.filterMap Visit.file?)
    topLevel := visits.filterMap Visit.rootName?
    exclusions := readExclusions fs (Path.join path Contract.exclusionFile) }

end Package
end SkillAudit
