/-!
# Verbosity

How much a run tells about its progress, by how often that was asked for.
-/

namespace SkillAudit
namespace Command

/-- The least weight of a message that is logged. -/
inductive Verbosity where
  | warnings
  | progress
  | everything
  deriving DecidableEq, Repr

/-- Asking once shows the progress, and asking more often shows everything. -/
def Verbosity.ofCount : Nat → Verbosity
  | 0 => .warnings
  | 1 => .progress
  | _ => .everything

/-- The name of a level. -/
def Verbosity.text : Verbosity → String
  | .warnings => "warn"
  | .progress => "debug"
  | .everything => "trace"

end Command
end SkillAudit
