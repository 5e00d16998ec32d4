import SkillAudit.Config.Reading
import SkillAudit.FileSystem.Resolution
import SkillAudit.RunError

/-!
# Loading a configuration

A configuration is read from the file that is named, which then has to exist; otherwise from the
default file in the working directory, if there is one; otherwise the defaults hold.
-/

namespace SkillAudit
namespace Config

/-- Read the configuration of a file that exists. -/
def readFile (fs : FileSystem) (path : String) : Except RunError Config :=
  match fs.readText path with
  | .error fault => .error (.configUnreadable path fault.message)
  | .ok text =>
      match ofText? text with
      | some config => .ok config
      | none => .error (.configInvalid path)

/-- Load a configuration. -/
def load (fs : FileSystem) : (path : Option String) → Except RunError Config
  | some path =>
      if fs.pathExists path then readFile fs path else .error (.configNotFound path)
  | none =>
      if fs.pathExists defaultFile then readFile fs defaultFile else .ok {}

end Config
end SkillAudit
