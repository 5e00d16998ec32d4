import SkillAudit.Machine.Start
import SkillAudit.Script.Language
import SkillAudit.Shell.Evaluation

/-!
# Executing programs

A program that is started on a machine runs to its end and leaves its output and its exit code
behind, and the files as it changed them.  What cannot be started leaves nothing behind.
-/

namespace SkillAudit

/-- What a program leaves behind that ran to its end. -/
structure Execution where
  run : Script.Run
  /-- The files as the program changed them. -/
  files : FileSystem

namespace Machine

/-- What the session of a program leaves behind. -/
def executionOf (session : Shell.Session) : Execution where
  run := {
    exitCode :=
      match session.flow with
      | .killed _ => none
      | _ => some (session.status % 256)
    output := Text.toBytes (session.gatheredIn 1)
    errors := Text.toBytes (session.gatheredIn 2) }
  files := session.files

/-- Start a program with arguments and run it to its end. -/
def execute (machine : Machine) (program : String) (arguments : List String) : Option Execution :=
  if (program :: arguments).any (·.toList.contains '\x00') then
    none
  else
    let directories := machine.searchPath?.getD defaultSearchPath
    let started :=
      machine.findFor (fun _ => false) directories (Text.bytesOf program)
        (arguments.map Text.bytesOf)
    started.toOption.map fun started => executionOf (Shell.launch machine started)

end Machine
end SkillAudit
