import SkillAudit.Config
import SkillAudit.Package
import SkillAudit.Rule
import SkillAudit.Script.Language

/-!
# Script checks

The scripts in the script directory are handed to their interpreters, which parse them without
running them.  First the scripts are gathered, each with its language; then the programs that they
need and that are missing; then every script is judged.
-/

namespace SkillAudit

/-- The program of a language. -/
def Interpreters.program (interpreters : Interpreters) : Script.Language → String
  | .python => interpreters.python
  | .shell => interpreters.shell

namespace Script

/-- What a host can run. -/
structure Toolchain where
  /-- Whether a program is installed. -/
  available : String → Bool
  /-- Run a program with arguments; nothing when it cannot be started. -/
  launch : String → List String → Option Run

/-- A script parses. -/
def syntaxError : Rule where
  id := "scripts/syntax-error"
  severity := .error
  category := .scripts
  summary := "Script under scripts/ does not parse"
  remediation := "Fix the syntax error; the agent runs these scripts verbatim"

/-- The interpreter of a script is installed. -/
def unchecked : Rule where
  id := "scripts/unchecked"
  severity := .warning
  category := .scripts
  summary := "Script left unchecked because its interpreter is not installed"
  remediation := "Install the interpreter or point [interpreters] in the config at one"

/-- Let a program parse a file. -/
def checkFile
    (tools : Toolchain)
    (language : Language)
    (program file shown : String) :
    Outcome :=
  match tools.launch program (language.arguments file shown) with
  | some run => language.judge file run
  | none => .unchecked

/-- A script together with the language that it is in. -/
structure Job where
  /-- The names on the way to the script from the root of the package. -/
  file : List String
  language : Language
  deriving DecidableEq, Repr

namespace Job

/-- The job of a file, if it is a script. -/
def ofFile? (file : List String) : Option Job :=
  (Language.ofName? (file.getLastD "")).map (Job.mk file)

/-- The name under which a script is shown. -/
def shown (job : Job) : String :=
  job.file.getLastD ""

/-- The path of a script in a package with this root. -/
def pathIn (job : Job) (root : String) : String :=
  Path.join root (Path.ofNames job.file)

end Job

/-- The scripts of a package, in the order of the files. -/
def jobs (package : Package) : List Job :=
  (package.filesDirectlyIn Contract.scriptsDirectory).filterMap Job.ofFile?

/-- The programs that some scripts need and that are not installed: each is named once, and the
names are in order. -/
def missingPrograms
    (tools : Toolchain)
    (interpreters : Interpreters)
    (jobs : List Job) :
    List String :=
  ((jobs.map fun job => interpreters.program job.language).filter
    fun program => !tools.available program).mergeSort.eraseReps

/-- The diagnostic of a script, if there is something to say, where some programs are missing. -/
def Job.diagnostic?
    (tools : Toolchain)
    (interpreters : Interpreters)
    (missing : List String)
    (root : String)
    (job : Job) :
    Option Diagnostic :=
  let program := interpreters.program job.language
  if missing.contains program then
    some <| unchecked.diagnostic
      { message := "script not checked: " ++ job.shown ++ " (" ++ program ++ " not found on PATH)"
        file := some (Path.ofNames job.file) }
  else
    match checkFile tools job.language program (job.pathIn root) job.shown with
    | .invalid detail =>
        some <| syntaxError.diagnostic
          { message := "syntax error in " ++ job.shown ++ ": " ++ detail
            file := some (Path.ofNames job.file) }
    | .valid => none
    | .unchecked => none

/-- The diagnostics of the scripts of a package, in the order of the files.  Which programs are
missing is found out once for all scripts. -/
def diagnostics
    (tools : Toolchain)
    (interpreters : Interpreters)
    (package : Package) :
    List Diagnostic :=
  let missing := missingPrograms tools interpreters (jobs package)
  (jobs package).filterMap (Job.diagnostic? tools interpreters missing package.root)

/-- The calls of interpreters by which the scripts of a package are checked. -/
def calls
    (tools : Toolchain)
    (interpreters : Interpreters)
    (package : Package) :
    List (String × List String) :=
  let missing := missingPrograms tools interpreters (jobs package)
  (jobs package).filterMap fun job =>
    let program := interpreters.program job.language
    if missing.contains program then
      none
    else
      some (program, job.language.arguments (job.pathIn package.root) job.shown)

end Script
end SkillAudit
