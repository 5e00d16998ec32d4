import SkillAudit.Body
import SkillAudit.Frontmatter.Checks
import SkillAudit.Layout
import SkillAudit.Script.Checks

/-!
# Evaluating a package

The groups of rules that are on are evaluated in a fixed order: layout, scripts and references, then
the header, then the body.  A package without an entry document has one diagnostic, whatever is on.
-/

namespace SkillAudit
namespace Evaluation

/-- The diagnostics of a group, if it is on. -/
def whenOn (on : Bool) (diagnostics : List Diagnostic) : List Diagnostic :=
  if on then diagnostics else []

/-- The diagnostics on the files of a package. -/
def structural
    (tools : Script.Toolchain)
    (config : Config)
    (package : Package) :
    List Diagnostic :=
  whenOn config.checks.layout (runChecks Layout.rootChecks package) ++
    whenOn config.checks.scripts (Script.diagnostics tools config.interpreters package) ++
    whenOn config.checks.layout (runChecks Layout.referenceChecks package)

/-- The diagnostics on the entry document. -/
def textual (config : Config) (document : Document) : List Diagnostic :=
  whenOn config.checks.frontmatter (Frontmatter.diagnostics document.header) ++
    whenOn config.checks.body (Body.diagnostics document.body)

/-- All diagnostics of a package. -/
def diagnostics
    (tools : Script.Toolchain)
    (config : Config)
    (package : Package) :
    List Diagnostic :=
  match package.document with
  | none => [Layout.entryMissingDiagnostic]
  | some document => structural tools config package ++ textual config document

/-- The calls of interpreters by which the diagnostics on the files of a package are found. -/
def structuralCalls
    (tools : Script.Toolchain)
    (config : Config)
    (package : Package) :
    List (String × List String) :=
  if config.checks.scripts then Script.calls tools config.interpreters package else []

/-- The calls of interpreters by which all diagnostics of a package are found. -/
def calls
    (tools : Script.Toolchain)
    (config : Config)
    (package : Package) :
    List (String × List String) :=
  match package.document with
  | none => []
  | some _ => structuralCalls tools config package

end Evaluation
end SkillAudit
