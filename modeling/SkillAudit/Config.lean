/-!
# Configuration

What a run can be told: whether warnings fail it, which groups of rules are on, and which programs
parse the scripts.
-/

namespace SkillAudit

/-- Whether warnings fail a run. -/
structure Strictness where
  enabled : Bool := false
  deriving DecidableEq, Repr

/-- Which groups of rules are on. -/
structure Groups where
  layout : Bool := true
  scripts : Bool := true
  frontmatter : Bool := true
  body : Bool := true
  deriving DecidableEq, Repr

/-- The programs that parse scripts. -/
structure Interpreters where
  python : String := "python3"
  shell : String := "bash"
  deriving DecidableEq, Repr

/-- The configuration of a run. -/
structure Config where
  strict : Strictness := {}
  checks : Groups := {}
  interpreters : Interpreters := {}
  deriving DecidableEq, Repr

/-- The file from which a configuration is read when none is named. -/
def Config.defaultFile : String := "oxidized-skill-lint.toml"

/-- The configuration with strictness turned on, if asked for. -/
def Config.tighten (config : Config) (strict : Bool) : Config :=
  if strict then { config with strict := { enabled := true } } else config

end SkillAudit
