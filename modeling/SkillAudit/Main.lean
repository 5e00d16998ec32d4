import SkillAudit.Command.Run

/-!
# The command line program

The program looks at the places that its arguments and the search path name, runs the command line
on what it saw, prints what the run printed and writes the one file that a run may write.

The bits of a file's permission are not seen from here, so every file counts as one that may be
executed.  Programs are seen and not started: a script whose interpreter is there stays without a
verdict.
-/

namespace SkillAudit
namespace Main

/-- The file system after a change, or before it if it was not possible. -/
def changed (files : FileSystem) (change : Except IoFault FileSystem) : FileSystem :=
  change.toOption.getD files

/-- The file system with a file at an absolute path. -/
def withFile (files : FileSystem) (path : String) (bytes : List UInt8) : FileSystem :=
  let files := changed files (files.makeParents path)
  let files := changed files (files.write path bytes)
  changed files (files.setMode path 0o755)

/-- The file system with a link at an absolute path. -/
def withLink (files : FileSystem) (path target : String) : FileSystem :=
  let files := changed files (files.makeParents path)
  changed files (files.makeLink path target)

/-- Files whose contents a run may look at wherever they are found. -/
def isRead (name : String) : Bool :=
  name = Contract.entryFile || name = Contract.exclusionFile

/-- Take a copy of an entry.  A directory is copied as deep as asked for, a link with the file to
which it leads, and a file with its contents if they are asked for. -/
def copyEntry
    (reads : String → Bool) :
    (depth : Nat) → IO.FS.DirEntry → FileSystem → IO FileSystem
  | depth, entry, files => do
      let path := entry.path.toString
      let withContents (path : String) : IO FileSystem := do
        if reads entry.fileName then
          match ← (IO.FS.readBinFile path).toBaseIO with
          | .ok bytes => return withFile files path bytes.toList
          | .error _ => return withFile files path []
        else
          return withFile files path []
      match ← entry.path.symlinkMetadata.toBaseIO with
      | .error _ => return files
      | .ok found =>
          match found.type, depth with
          | .file, _ => withContents path
          | .symlink, _ =>
              match ← (IO.FS.realPath path).toBaseIO with
              | .error _ => return withLink files path entry.fileName
              | .ok target =>
                  let files ←
                    if ← target.isDir then
                      pure (changed files (files.makeDirectories target.toString))
                    else
                      withContents target.toString
                  return withLink files path target.toString
          | .dir, 0 => return changed files (files.makeDirectories path)
          | .dir, depth + 1 =>
              let files := changed files (files.makeDirectories path)
              match ← entry.path.readDir.toBaseIO with
              | .error _ => return files
              | .ok children =>
                  children.foldlM (fun files child => copyEntry reads depth child files) files
          | .other, _ => return files

/-- How deep directories are copied; no path that can be opened goes deeper. -/
def depthLimit : Nat := FileSystem.pathLimit

/-- Take a copy of what a path leads to: follow its names from a directory, with the links on the
way, and copy the entry at its end. -/
def copyFrom (reads : String → Bool) (depth : Nat) :
    (directory : String) → (names : List String) → FileSystem → IO FileSystem
  | directory, [], files =>
      copyEntry reads depth { root := directory, fileName := "." } files
  | directory, "." :: rest, files => copyFrom reads depth directory rest files
  | directory, ".." :: rest, files =>
      copyFrom reads depth ((Path.parent? directory).getD "/") rest files
  | directory, name :: rest, files => do
      let entry : IO.FS.DirEntry := { root := directory, fileName := name }
      match ← (IO.FS.realPath entry.path).toBaseIO with
      | .error _ => return changed files (files.makeDirectories directory)
      | .ok place =>
          let files := changed files (files.makeDirectories directory)
          if ← place.isDir then
            let files :=
              if place.toString = entry.path.toString then files
              else withLink (changed files (files.makeDirectories place.toString))
                entry.path.toString place.toString
            copyFrom reads depth place.toString rest files
          else
            copyEntry reads depth entry files

/-- Take a copy of what a path leads to. -/
def copyPath
    (reads : String → Bool)
    (depth : Nat)
    (path : String)
    (files : FileSystem) :
    IO FileSystem := do
  let here ← IO.currentDir
  let start := if Path.isAbsolute path then "/" else here.toString
  copyFrom reads depth start ((Path.pieces path).filter (· != "")) files

/-- The environment that a run looks at. -/
def environment : IO (List (String × String)) := do
  let values ← ["PATH", "CLICOLOR_FORCE"].mapM fun name => do
    return (← IO.getEnv name).map fun value => (name, value)
  return values.filterMap id

/-- Look at the places that matter for a command line. -/
def survey (words : List String) : IO Host := do
  let here := (← IO.currentDir).toString
  let empty := FileSystem.empty ((Path.pieces here).filter (· != ""))
  let files := changed empty (empty.makeDirectories here)
  let host : Host := { files, programs := [], environment := ← environment }
  match Command.readArguments words with
  | .error _ => return host
  | .ok (verb, options) =>
      let files ←
        match verb, options.operand with
        | .validate, some path | .validateAll, some path => copyPath isRead depthLimit path files
        | _, _ => pure files
      let files ← copyPath (fun _ => true) 0 (options.config.getD Config.defaultFile) files
      let files ←
        match options.output with
        | some file => copyPath (fun _ => false) 0 file files
        | none => pure files
      let files ← (host.searchPath?.getD []).foldlM
        (fun files directory => copyPath (fun _ => false) 1 directory files) files
      return { host with files }

/-- Write the file that a run was to write, if it did. -/
def keep (host : Host) (words : List String) (outcome : Command.Outcome) : IO Unit := do
  if let .ok (_, { output := some file, .. }) := Command.readArguments words then
    if let .ok bytes := outcome.files.readBytes file then
      if (host.files.readBytes file).toOption != some bytes then
        IO.FS.writeBinFile file ⟨bytes.toArray⟩

end Main
end SkillAudit

/-- Run the command line program. -/
def main (words : List String) : IO UInt32 := do
  let host ← SkillAudit.Main.survey words
  let outcome := SkillAudit.Command.run host words
  IO.print outcome.output
  IO.eprint outcome.errors
  SkillAudit.Main.keep host words outcome
  return UInt32.ofNat outcome.exitCode
