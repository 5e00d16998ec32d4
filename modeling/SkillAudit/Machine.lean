import SkillAudit.FileSystem.Resolution

/-!
# Machines

A machine as a value: its files, the programs that are built into it, and the variables of the
environment.
-/

namespace SkillAudit

/-- A program that is built into a machine. -/
inductive Program where
  /-- The command language, in which interpreters may be written. -/
  | shell
  | succeed
  | fail
  | echo
  | printf
  | test
  /-- Runs a program with other variables, or shows the variables. -/
  | environment
  /-- Runs a program with arguments that it reads. -/
  | spread
  /-- Runs a program with a limit that is never reached. -/
  | limited
  | showVariables
  | showDirectory
  | showUser
  | showSystem
  | pause
  | locate
  | cat
  | head
  | tail
  | reverseLines
  | reverseText
  | countWords
  | split
  | sort
  | unique
  | cut
  | translate
  | search
  | edit
  | baseName
  | directoryName
  | calculate
  | sequence
  | touch
  | remove
  | makeDirectory
  | removeDirectory
  | copy
  | move
  | link
  | listFiles
  | findFiles
  | changeMode
  | readLink
  | realPath
  | compareFiles
  deriving DecidableEq, Repr

/-- The names under which the programs are known. -/
def Program.names : List (String × Program) :=
  [("[", .test), ("basename", .baseName), ("bash", .shell), ("cat", .cat), ("chmod", .changeMode),
    ("cmp", .compareFiles), ("cp", .copy), ("cut", .cut), ("dash", .shell),
    ("dirname", .directoryName),
    ("echo", .echo), ("egrep", .search), ("env", .environment), ("expr", .calculate),
    ("false", .fail), ("fgrep", .search), ("find", .findFiles), ("grep", .search),
    ("head", .head), ("ln", .link), ("ls", .listFiles), ("mkdir", .makeDirectory),
    ("mv", .move), ("nice", .limited), ("nohup", .limited), ("printenv", .showVariables),
    ("printf", .printf), ("pwd", .showDirectory), ("readlink", .readLink),
    ("realpath", .realPath), ("rev", .reverseText), ("rm", .remove), ("rmdir", .removeDirectory),
    ("sed", .edit), ("seq", .sequence), ("sh", .shell), ("sleep", .pause), ("sort", .sort),
    ("sync", .succeed), ("tac", .reverseLines), ("tail", .tail), ("tee", .split),
    ("test", .test), ("timeout", .limited), ("touch", .touch), ("tr", .translate),
    ("true", .succeed), ("uname", .showSystem), ("uniq", .unique), ("unlink", .remove),
    ("wc", .countWords), ("which", .locate), ("whoami", .showUser), ("xargs", .spread)]

/-- A machine with its files, programs and variables. -/
structure Machine where
  files : FileSystem
  /-- The built-in programs by the names on the way to them from the root. -/
  programs : List (List String × Program)
  environment : List (String × String)

namespace Machine

/-- The value of an environment variable. -/
def valueOf? (machine : Machine) (name : String) : Option String :=
  machine.environment.lookup name

/-- The directories of a search path. -/
def searchDirectories (path : String) : List String :=
  (Text.splitOn ':' path.toList).map String.ofList

/-- The directories in which programs are looked for; missing when the variable is not set. -/
def searchPath? (machine : Machine) : Option (List String) :=
  (machine.valueOf? "PATH").map searchDirectories

/-- The built-in program to which a path leads. -/
def programAt? (machine : Machine) (path : String) : Option Program :=
  match machine.files.canonical path with
  | .ok names => machine.programs.lookup names
  | .error _ => none

end Machine
end SkillAudit
