import SkillAudit.Machine
import SkillAudit.Text.Bytes

/-!
# Finding what to start

A program is started by a path, or by a name that is looked for in directories.  A file with execute
permission is one of the built-in programs or names its interpreter in its first line, which is then
started with the path of the file as an argument.
-/

namespace SkillAudit

/-- A built-in program with the name by which it is called and its arguments. -/
structure Started where
  program : Program
  name : List Char
  arguments : List (List Char)

namespace Machine

/-- The directories in which a program is looked for when the variable for them is not set. -/
def defaultSearchPath : List String := ["/bin", "/usr/bin"]

/-- The paths on which a program of this name is looked for; a name with a slash is the path
itself. -/
def candidates (directories : List String) (name : String) : List String :=
  if name.toList.contains '/' then [name]
  else
    directories.map fun directory => if directory = "" then name else directory ++ "/" ++ name

/-- Whether a fault leaves the search for a program going. -/
def keepsLooking : IoFault → Bool
  | .notFound | .permissionDenied | .notADirectory => true
  | _ => false

/-- The file that a path names, if it may be executed. -/
def executable (machine : Machine) (path : String) : Except IoFault File :=
  match machine.files.node path with
  | .ok (.file file) => if file.isExecutable then .ok file else .error .permissionDenied
  | .ok _ => .error .permissionDenied
  | .error fault => .error fault

/-- The interpreter that the first line of a file names, with the one argument it may have there. -/
def interpreterOf? (bytes : List UInt8) : Option (List Char × Option (List Char)) :=
  let isGap (c : Char) : Bool := c = ' ' || c = '\t'
  match Text.ofBytes bytes with
  | '#' :: '!' :: rest =>
      let line := (rest.takeWhile (· != '\n')).dropWhile isGap
      let line := (line.reverse.dropWhile isGap).reverse
      let path := line.takeWhile fun c => !isGap c
      let argument := (line.drop path.length).dropWhile isGap
      if path.isEmpty then none
      else some (path, if argument.isEmpty then none else some argument)
  | _ => none

/-- How many files may stand between a call and the program that does its work. -/
def hopLimit : Nat := 5

/-- What is started by the file at a path. -/
def reach (machine : Machine) :
    (hops : Nat) → (path : String) → (name : List Char) → (arguments : List (List Char)) →
      Except IoFault Started
  | 0, _, _, _ => .error .tooManyLinks
  | hops + 1, path, name, arguments => do
      let file ← machine.executable path
      match machine.programAt? path with
      | some program => return { program, name, arguments }
      | none =>
          match interpreterOf? file.bytes with
          | some (interpreter, argument) =>
              reach machine hops (Text.shown interpreter) interpreter
                (argument.toList ++ Text.bytesOf path :: arguments)
          | none => .error .notExecutable

/-- The call of the shell that runs the file at a path. -/
def asScript (path : String) (arguments : List (List Char)) : Started where
  program := .shell
  name := Text.bytesOf "/bin/sh"
  arguments := Text.bytesOf path :: arguments

/-- What is started by the file at a path; a file that names no interpreter is run by the shell if
it is `readable` as a script. -/
def reachOrRead
    (machine : Machine)
    (readable : List UInt8 → Bool)
    (path : String)
    (name : List Char)
    (arguments : List (List Char)) :
    Except IoFault Started :=
  match machine.reach hopLimit path name arguments with
  | .error .notExecutable =>
      match machine.files.readBytes path with
      | .ok bytes =>
          if readable bytes then .ok (asScript path arguments) else .error .notExecutable
      | .error fault => .error fault
  | result => result

/-- The first of several attempts that found a program, or a fault that ends the search; when all
fail, a denied permission is the fault to tell. -/
def firstStarted (fault : IoFault) : List (Except IoFault Started) → Except IoFault Started
  | [] => .error fault
  | .ok started :: _ => .ok started
  | .error other :: rest =>
      if keepsLooking other then
        firstStarted (if other = .permissionDenied then other else fault) rest
      else
        .error other

/-- What is started by a name that is looked for in directories. -/
def find
    (machine : Machine)
    (readable : List UInt8 → Bool)
    (directories : List String)
    (name : List Char)
    (arguments : List (List Char)) :
    Except IoFault Started :=
  firstStarted .notFound <| (candidates directories (Text.shown name)).map fun path =>
    machine.reachOrRead readable path name arguments

/-- What is started by a name that one program hands to another one; an empty name is no program. -/
def findFor
    (machine : Machine)
    (readable : List UInt8 → Bool)
    (directories : List String)
    (name : List Char)
    (arguments : List (List Char)) :
    Except IoFault Started :=
  if name.isEmpty then .error .notFound else machine.find readable directories name arguments

end Machine
end SkillAudit
