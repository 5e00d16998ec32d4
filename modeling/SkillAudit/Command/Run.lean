import SkillAudit.Collection
import SkillAudit.Command.Arguments
import SkillAudit.Command.Listing
import SkillAudit.Config.Loading
import SkillAudit.FileSystem.Update
import SkillAudit.Validation

/-!
# Running a command line

What a command line prints, leaves in the files and exits with.  Standard output carries the
reports and nothing else.  A configuration is loaded before the package is looked at, and a
mistake in it is a usage error.
-/

namespace SkillAudit
namespace Command

/-- What a run leaves behind. -/
structure Outcome where
  exitCode : Nat
  /-- What is printed on standard output. -/
  output : String := ""
  /-- What is printed on standard error, the log apart. -/
  errors : String := ""
  files : FileSystem

/-- The exit code for a wrong call. -/
def usageExitCode : Nat := 2

/-- Whether colors are forced; a run that is not watched has none otherwise. -/
def colorsForced (host : Host) : Bool :=
  match host.valueOf? "CLICOLOR_FORCE" with
  | some value => value != "0"
  | none => false

/-- Whether what is printed has colors. -/
def colored (host : Host) (options : Options) : Bool :=
  !options.noColor && colorsForced host

/-- The configuration of a run, as strict as asked for. -/
def loadConfig (host : Host) (options : Options) : Except RunError Config :=
  (Config.load host.files options.config).map (·.tighten options.strict)

/-- The end of a run whose configuration could not be loaded. -/
def configFailure (host : Host) (error : RunError) (errors : String) : Outcome :=
  { exitCode := error.exitCode
    errors := errors ++ "Error: " ++ error.message ++ "\n"
    files := host.files }

/-- The line for a run that made no report. -/
def failureLine (error : RunError) : String :=
  "ERROR: " ++ error.message ++ "\n"

/-- What is said of a directory that holds packages but is none. -/
def collectionHint (path : String) : String :=
  "Hint: '" ++ path ++ "' looks like a skills collection directory, not a single skill.\n" ++
    "To validate all skills at once:\n" ++
    "  oxidized-skill-lint validate-all " ++ path ++ "\n\n"

/-- The hint for a path, if it leads to a collection. -/
def hintFor (host : Host) (path : String) : String :=
  if host.files.isDirectory path &&
      !host.files.pathExists (Path.join path Contract.entryFile) &&
      !(Collection.packages host.files path).isEmpty then
    collectionHint path
  else
    ""

/-- Give a report out, to a file or to standard output. -/
def deliver (host : Host) (options : Options) (report : Report) (errors : String) : Outcome :=
  let format := options.format.getD .pretty
  match options.output with
  | none =>
      { exitCode := report.exitCode
        output := report.printed format (colored host options)
        errors
        files := host.files }
  | some file =>
      match host.files.write file (Text.Utf8.encode (report.filed format)) with
      | .ok files =>
          { exitCode := report.exitCode
            errors := errors ++ "Output written to " ++ file ++ "\n"
            files }
      | .error fault =>
          { exitCode := usageExitCode
            errors := errors ++ "Error writing output: " ++ fault.message ++ "\n"
            files := host.files }

/-- Validate one package. -/
def runValidate (host : Host) (options : Options) (path : String) : Outcome :=
  let hint := hintFor host path
  match loadConfig host options with
  | .error error => configFailure host error hint
  | .ok config =>
      match Validation.run host config path with
      | .error error =>
          { exitCode := error.exitCode
            output := failureLine error
            errors := hint
            files := host.files }
      | .ok report => deliver (Validation.hostAfter host config path) options report hint

/-- Validate packages up to the first one that allows no report; the host is the one after all of
them. -/
def validateEach (config : Config) :
    Host → List String → List Report × Option RunError × Host
  | host, [] => ([], none, host)
  | host, path :: rest =>
      match Validation.run host config path with
      | .error error => ([], some error, host)
      | .ok report =>
          let (reports, failure, after) :=
            validateEach config (Validation.hostAfter host config path) rest
          (report :: reports, failure, after)

/-- What is printed for the reports of a collection, one after another. -/
def printedAll (host : Host) (options : Options) (reports : List Report) : String :=
  String.join <| reports.map fun report =>
    report.printed (options.format.getD .pretty) (colored host options)

/-- The summary of a collection, which only people are shown. -/
def summaryText (host : Host) (options : Options) (path : String) (reports : List Report) :
    String :=
  if options.format.getD .pretty = .pretty then
    Span.renderAll (colored host options) (Collection.summary path reports)
  else
    ""

/-- Validate the packages of a collection. -/
def runValidateAll (host : Host) (options : Options) (path : String) : Outcome :=
  if !host.files.isDirectory path then
    { exitCode := 1
      output := failureLine (.notADirectory path)
      files := host.files }
  else if (Collection.packages host.files path).isEmpty then
    { exitCode := usageExitCode
      errors :=
        "Error: no skill packages found in '" ++ path ++ "' (no subdirectory contains a " ++
          Contract.entryFile ++ ")\n"
      files := host.files }
  else
    match loadConfig host options with
    | .error error => configFailure host error ""
    | .ok config =>
        match validateEach config host (Collection.packages host.files path) with
        | (reports, some error, after) =>
            { exitCode := error.exitCode
              output := printedAll host options reports ++ failureLine error
              files := after.files }
        | (reports, none, after) =>
            { exitCode := if reports.all (·.passed) then 0 else 1
              output :=
                printedAll host options reports ++ summaryText host options path reports
              files := after.files }

/-- Tell which interpreters can be run. -/
def runCheckTools (host : Host) (options : Options) : Outcome :=
  match loadConfig host options with
  | .error error => configFailure host error ""
  | .ok config =>
      { exitCode := 0
        output :=
          Span.renderAll (colored host options) (interpreterList host config.interpreters)
        files := host.files }

/-- Tell about a rule. -/
def runExplain (host : Host) (options : Options) (id : String) : Outcome :=
  match Catalogue.find? id with
  | some rule =>
      { exitCode := 0
        output := Span.renderAll (colored host options) (explanation rule)
        files := host.files }
  | none =>
      { exitCode := usageExitCode
        errors :=
          "Unknown rule: " ++ id ++ "\n" ++
            "Use 'oxidized-skill-lint list-rules' to see all available rules.\n"
        files := host.files }

/-- Run a command whose words have been read. -/
def runVerb (host : Host) (verb : Verb) (options : Options) : Outcome :=
  match verb, options.operand with
  | .validate, some path => runValidate host options path
  | .validate, none =>
      { exitCode := 1, output := Verb.validate.usage ++ "\n", files := host.files }
  | .validateAll, operand => runValidateAll host options (operand.getD "")
  | .checkTools, _ => runCheckTools host options
  | .listRules, _ =>
      { exitCode := 0
        output := Span.renderAll (colored host options) ruleList
        files := host.files }
  | .explain, operand => runExplain host options (operand.getD "")

/-- The end of a run whose words were not read to their end. -/
def stopped (host : Host) : Stop → Outcome
  | .usageError =>
      { exitCode := usageExitCode, errors := "usage error", files := host.files }
  | .help usage => { exitCode := 0, output := usage ++ "\n", files := host.files }
  | .version => { exitCode := 0, output := "oxidized-skill-lint 0.1.0\n", files := host.files }

/-- Run a command line. -/
def run (host : Host) (words : List String) : Outcome :=
  match readArguments words with
  | .error stop => stopped host stop
  | .ok (verb, options) => runVerb host verb options

end Command
end SkillAudit
