import SkillAudit.FileSystem.Resolution

/-!
# Changing a file tree

Writing files, making directories and links, and removing entries.  Each operation gives the changed
file system or the fault for which nothing was changed.
-/

namespace SkillAudit
namespace FileSystem

/-- The file system without entries. -/
def empty (workingDirectory : List String) : FileSystem :=
  { root := .empty, workingDirectory, ordered := Node.ordered_empty }

/-- Put a node under a name of the directory at the end of a trail. -/
def put
    (fs : FileSystem)
    (directory : Trail)
    (name : String)
    (node : Node)
    (hnode : node.Ordered) :
    FileSystem :=
  { fs with
    root := fs.root.updateDirectory (Node.insertEntry name node) directory.names
    ordered :=
      Node.Ordered.updateDirectory (fun _ => Node.Ordered.insertEntry name hnode) _ fs.ordered }

/-- Take a name away from the directory at the end of a trail. -/
def erase (fs : FileSystem) (directory : Trail) (name : String) : FileSystem :=
  { fs with
    root := fs.root.updateDirectory (Node.eraseEntry name) directory.names
    ordered :=
      Node.Ordered.updateDirectory (fun _ => Node.Ordered.eraseEntry name) _ fs.ordered }

/-- Replace what a file holds, through links, or make a new file in a directory that exists.  No
permissions are asked for, and what is written to is always a regular file: a file that may not be
written and a device that takes what it is given are not told apart from it. -/
def write (fs : FileSystem) (path : String) (bytes : List UInt8) : Except IoFault FileSystem := do
  if Path.endsWithSlash path then
    match Path.parent? path with
    | none | some "" => .error .isADirectory
    | some above =>
        let _ ← fs.trail above
        .error .isADirectory
  else
    match ← fs.land path true with
    | .vacant directory name => .ok (fs.put directory name (.file { bytes }) trivial)
    | .found trail =>
        match trail with
        | (name, .file file) :: directory =>
            .ok (fs.put directory name (.file { file with bytes }) trivial)
        | _ => .error .isADirectory

/-- Set the permission bits of the entry that a path names. -/
def setMode (fs : FileSystem) (path : String) (mode : Nat) : Except IoFault FileSystem := do
  match ← fs.trail path with
  | (name, .file file) :: directory =>
      .ok (fs.put directory name (.file { file with mode }) trivial)
  | _ => .ok fs

/-- Make one directory at a free name. -/
def makeDirectory (fs : FileSystem) (path : String) : Except IoFault FileSystem := do
  match ← fs.land (Path.dropEndSlashes path) false with
  | .found _ => .error .alreadyExists
  | .vacant directory name => .ok (fs.put directory name .empty Node.ordered_empty)

/-- Make a directory and those above it that are missing; `depth` bounds how many may be. -/
def makeDirectoriesUpTo (fs : FileSystem) : (depth : Nat) → String → Except IoFault FileSystem
  | 0, _ => .error .notFound
  | depth + 1, path =>
      if path = "" then
        .ok fs
      else
        match fs.makeDirectory path with
        | .ok made => .ok made
        | .error .notFound => do
            let parent ←
              match Path.parent? path with
              | some parent => .ok parent
              | none => .error .notFound
            let above ← fs.makeDirectoriesUpTo depth parent
            match above.makeDirectory path with
            | .ok made => .ok made
            | .error fault => if above.isDirectory path then .ok above else .error fault
        | .error fault => if fs.isDirectory path then .ok fs else .error fault

/-- Make a directory and those above it that are missing. -/
def makeDirectories (fs : FileSystem) (path : String) : Except IoFault FileSystem :=
  fs.makeDirectoriesUpTo ((Path.parts path).length + 2) path

/-- Make the directories above a path. -/
def makeParents (fs : FileSystem) (path : String) : Except IoFault FileSystem :=
  match Path.parent? path with
  | some parent => fs.makeDirectories parent
  | none => .ok fs

/-- Make a link at a free name. -/
def makeLink (fs : FileSystem) (path target : String) : Except IoFault FileSystem := do
  if target = "" then
    .error .notFound
  else
    match ← fs.land path false with
    | .found _ => .error .alreadyExists
    | .vacant directory name => .ok (fs.put directory name (.link target) trivial)

/-- Remove a file, a link or a whole directory. -/
def remove (fs : FileSystem) (path : String) : Except IoFault FileSystem := do
  match ← fs.land path false with
  | .found ((name, _) :: directory) => .ok (fs.erase directory name)
  | .found [] => .error .invalidArgument
  | .vacant _ _ => .error .notFound

end FileSystem
end SkillAudit
