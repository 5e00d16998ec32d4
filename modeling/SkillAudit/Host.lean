import SkillAudit.Machine.Execution

/-!
# Hosts

The machine on which a run takes place, with what its programs do.  Nothing that is said of a run
rests on what they do: they are a function that a host brings along.  The evaluator of the shell and
of the programs that are built in is one such function, and the one that is taken where no other is
given.
-/

namespace SkillAudit

/-- A machine on which a run takes place. -/
structure Host extends Machine where
  /-- What a program leaves behind that is started on a machine with arguments; nothing when it
  cannot be started. -/
  execute : Machine → String → List String → Option Execution := Machine.execute

end SkillAudit
