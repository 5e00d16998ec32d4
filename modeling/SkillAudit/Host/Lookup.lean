import SkillAudit.Host

/-!
# Looking for programs

Whether a host has a program of a given name.  A name of several parts is a path and is tried as it
stands; any other name is looked for in the directories of the search path.
-/

namespace SkillAudit
namespace Host

/-- Whether a program of this name can be run. -/
def hasProgram (host : Host) (name : String) : Bool :=
  if 1 < (Path.parts name).length then
    host.files.isExecutable name
  else
    match host.searchPath? with
    | some directories =>
        directories.any fun directory => host.files.isExecutable (Path.join directory name)
    | none => false

end Host
end SkillAudit
