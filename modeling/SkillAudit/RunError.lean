import SkillAudit.FileSystem.Fault

/-!
# Fatal errors

The causes for which a run makes no report at all.  Violations of the contract are never among them.
-/

namespace SkillAudit

/-- Why a run made no report. -/
inductive RunError where
  | pathNotFound (path : String)
  | notADirectory (path : String)
  /-- The entry document could not be read. -/
  | unreadable (path cause : String)
  | configNotFound (path : String)
  | configUnreadable (path cause : String)
  /-- The configuration file is no valid configuration. -/
  | configInvalid (path : String)
  deriving DecidableEq, Repr

namespace RunError

/-- The text in which the cause is reported; what is wrong in a configuration is not spelled out. -/
def message : RunError → String
  | pathNotFound path => "Path not found: " ++ path
  | notADirectory path => "Not a directory: " ++ path
  | unreadable path cause => "Failed to read " ++ path ++ ": " ++ cause
  | configNotFound path => "Config file not found: " ++ path
  | configUnreadable path cause => "Failed to read config " ++ path ++ ": " ++ cause
  | configInvalid path => "Failed to parse config " ++ path ++ ": "

/-- Whether the configuration is at fault. -/
def ofConfig : RunError → Bool
  | configNotFound _ | configUnreadable _ _ | configInvalid _ => true
  | _ => false

/-- The exit code: a wrong configuration is a usage error. -/
def exitCode (error : RunError) : Nat :=
  if error.ofConfig then 2 else 1

end RunError
end SkillAudit
