import SkillAudit.Text.Lines
import SkillAudit.Text.Search

/-!
# Paths

A path is written as a text with slashes; its meaning is the list of its parts.  Repeated slashes,
a slash at the end and a dot inside a path are no parts of it; a dot at the start of a relative path
is one.  Two spellings with the same parts are the same path.
-/

namespace SkillAudit

/-- One part of a path. -/
inductive PathPart where
  | root
  | here
  | up
  | name (text : String)
  deriving DecidableEq, Repr

/-- How one part is written. -/
def PathPart.text : PathPart → String
  | .root => ""
  | .here => "."
  | .up => ".."
  | .name text => text

namespace Path

/-- Whether the path starts at the root directory. -/
def isAbsolute (path : String) : Bool :=
  Text.startsWith ['/'] path.toList

/-- Whether the path is written with a slash at its end. -/
def endsWithSlash (path : String) : Bool :=
  path.toList.getLast? == some '/'

/-- The path without the slashes at its end; the root directory keeps one. -/
def dropEndSlashes (path : String) : String :=
  match (path.toList.reverse.dropWhile (· = '/')).reverse with
  | [] => if isAbsolute path then "/" else ""
  | kept => String.ofList kept

/-- The texts between the slashes, with the empty ones. -/
def pieces (path : String) : List String :=
  (Text.splitOn '/' path.toList).map String.ofList

/-- The part that a text between slashes stands for; nothing for an empty text or a dot. -/
def partOf? (piece : String) : Option PathPart :=
  if piece = "" || piece = "." then none
  else if piece = ".." then some .up
  else some (.name piece)

/-- The parts of a path. -/
def parts (path : String) : List PathPart :=
  let inner := (pieces path).filterMap partOf?
  if isAbsolute path then .root :: inner
  else if (pieces path).head? = some "." then .here :: inner
  else inner

/-- The last part, where it is a name. -/
def fileName? (path : String) : Option String :=
  match (parts path).getLast? with
  | some (.name text) => some text
  | _ => none

/-- The text after the last dot of a name, unless the name has no dot but its first character. -/
def nameExtension? (name : String) : Option String :=
  let backwards := name.toList.reverse
  match backwards.dropWhile (· != '.') with
  | _ :: _ :: _ => some (String.ofList (backwards.takeWhile (· != '.')).reverse)
  | _ => none

/-- A spelling of a list of parts. -/
def spell : List PathPart → String
  | [.root] => "/"
  | list => "/".intercalate (list.map PathPart.text)

/-- The path without its last part; the root directory and the empty path have none. -/
def parent? (path : String) : Option String :=
  match (parts path).getLast? with
  | none | some .root => none
  | some _ => some (spell (parts path).dropLast)

/-- A path seen from another one; an absolute path stays what it is. -/
def join (base path : String) : String :=
  if isAbsolute path then path
  else if base = "" || endsWithSlash base then base ++ path
  else base ++ "/" ++ path

/-- A path of plain names, as it is shown. -/
def ofNames (names : List String) : String :=
  "/".intercalate names

end Path
end SkillAudit
