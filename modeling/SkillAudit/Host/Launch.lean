import SkillAudit.Host.Lookup
import SkillAudit.Script.Checks

/-!
# Starting programs

A run starts programs one after another.  What a program printed and how it ended is looked at; of
what else it did, the files remain as it changed them.
-/

namespace SkillAudit
namespace Host

/-- Run a program to its end. -/
def launch (host : Host) (program : String) (arguments : List String) : Option Script.Run :=
  (host.execute host.toMachine program arguments).map (·.run)

/-- The host after a program was run to its end.  The working directory is that of the run, which
no program that it starts can change. -/
def afterLaunch (host : Host) (program : String) (arguments : List String) : Host :=
  match host.execute host.toMachine program arguments with
  | some execution =>
      { host with
        files := { execution.files with workingDirectory := host.files.workingDirectory } }
  | none => host

/-- The host after several programs were run, one after another. -/
def afterCalls (host : Host) (calls : List (String × List String)) : Host :=
  calls.foldl (fun host (program, arguments) => host.afterLaunch program arguments) host

/-- What a host can run. -/
def toolchain (host : Host) : Script.Toolchain where
  available := host.hasProgram
  launch := host.launch

end Host
end SkillAudit
