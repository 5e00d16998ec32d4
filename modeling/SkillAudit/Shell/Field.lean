import SkillAudit.Program.Call
import SkillAudit.Text.Glob

/-!
# Fields of expanded words

What an expanded word consists of, how it falls into fields, and which paths a field stands for when
it is a pattern.  Only what was found by an expansion without quotes is split, and only what is not
quoted has a meaning in a pattern.
-/

namespace SkillAudit
namespace Shell

/-- Where a character of an expanded word comes from. -/
inductive Origin where
  | quoted
  /-- It stands in the script. -/
  | written
  /-- It was found by an expansion. -/
  | found
  deriving DecidableEq, Repr

/-- A part of an expanded word. -/
inductive Atom where
  | char (origin : Origin) (c : Char)
  /-- The border between two arguments. -/
  | border
  /-- A quoted part, which may be empty. -/
  | present
  deriving DecidableEq, Repr

namespace Atom

/-- The atoms of a text. -/
def ofText (origin : Origin) (text : List Char) : List Atom :=
  match origin with
  | .quoted => .present :: text.map (.char .quoted)
  | _ => text.map (.char origin)

/-- The atoms of several arguments. -/
def ofArguments (origin : Origin) : List (List Char) → List Atom
  | [] => []
  | [argument] => ofText origin argument
  | argument :: rest => ofText origin argument ++ .border :: ofArguments origin rest

/-- The text of an expanded word without a split; `joiner` stands between arguments. -/
def joined (joiner : List Char) (atoms : List Atom) : List Char :=
  atoms.flatMap fun
    | .char _ c => [c]
    | .border => joiner
    | .present => []

/-- The pattern of an expanded word without a split. -/
def pattern (joiner : List Char) (atoms : List Atom) : Text.Glob :=
  atoms.flatMap fun
    | .char origin c => [(decide (origin = .quoted), c)]
    | .border => joiner.map fun c => (true, c)
    | .present => []

end Atom

/-- Whether a separator is a blank, of which several count as one. -/
def isSoft (c : Char) : Bool :=
  c = ' ' || c = '\t' || c = '\n'

/-- The fields of an expanded word: `current` is the field that is being read, and after a blank
that ended a field another separator does not make a field of its own. -/
def fieldsFrom (separators : List Char) :
    (current : Option Text.Glob) → (afterBlank : Bool) → List Atom → List Text.Glob
  | current, _, [] => current.toList
  | current, _, .present :: rest => fieldsFrom separators (some (current.getD [])) false rest
  | current, _, .border :: rest => current.toList ++ fieldsFrom separators none false rest
  | current, afterBlank, .char origin c :: rest =>
      if origin = .found && separators.contains c then
        match current with
        | some field => field :: fieldsFrom separators none (isSoft c) rest
        | none =>
            if isSoft c || afterBlank then fieldsFrom separators none (isSoft c && afterBlank) rest
            else [] :: fieldsFrom separators none false rest
      else
        let field := current.getD [] ++ [(decide (origin = .quoted), c)]
        fieldsFrom separators (some field) false rest

/-- The fields of an expanded word. -/
def fields (separators : List Char) (atoms : List Atom) : List Text.Glob :=
  fieldsFrom separators none false atoms

/-! ## Paths -/

/-- The parts of a pattern between its slashes. -/
def partsOf : Text.Glob → List Text.Glob
  | [] => [[]]
  | (quoted, c) :: rest =>
      match partsOf rest with
      | [] => [[(quoted, c)]]
      | part :: more =>
          if c = '/' then [] :: part :: more else ((quoted, c) :: part) :: more

/-- The names of the entries of a directory that a pattern may choose. -/
def namesIn (files : FileSystem) (directory : List Char) (pattern : Text.Glob) :
    List (List Char) :=
  let path := if directory.isEmpty then "." else Text.shown directory
  match files.node path with
  | .ok (.directory entries) =>
      let names := entries.map fun (name, _) => Text.bytesOf name
      if pattern.head?.map (·.2) = some '.' then ['.'] :: ['.', '.'] :: names
      else names.filter fun name => name.head? != some '.'
  | _ => []

/-- The paths below a directory that a pattern chooses; the directory is written with a slash at its
end. -/
def pathsFrom (files : FileSystem) : (directory : List Char) → List Text.Glob → List (List Char)
  | directory, [] => [directory]
  | directory, [part] =>
      if part.hasMeaning then
        ((namesIn files directory part).filter part.accepts).map (directory ++ ·)
      else
        let path := directory ++ part.text
        if files.pathExists (Text.shown path) then [path] else []
  | directory, part :: rest =>
      if part.hasMeaning then
        ((namesIn files directory part).filter part.accepts).flatMap fun name =>
          if files.isDirectory (Text.shown (directory ++ name)) then
            pathsFrom files (directory ++ name ++ ['/']) rest
          else
            []
      else
        pathsFrom files (directory ++ part.text ++ ['/']) rest

/-- The texts for which a field stands: the paths that it chooses, or itself. -/
def textsOf (files : FileSystem) (field : Text.Glob) : List (List Char) :=
  if field.hasMeaning then
    let paths := pathsFrom files [] (partsOf field)
    if paths.isEmpty then [field.text]
    else paths.mergeSort fun a b => !decide (b.map Char.toNat < a.map Char.toNat)
  else
    [field.text]

end Shell
end SkillAudit
