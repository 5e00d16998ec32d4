import SkillAudit.Evaluation
import SkillAudit.Host.Launch
import SkillAudit.Package.Snapshot
import SkillAudit.Report

/-!
# Validating a package

A package is validated by its place, not by the spelling of its path: the path is resolved first, so
that the report carries the real name of the directory.  The interpreters that are started for it
may change files; the report is on the package as it was found.

What an interpreter does is up to the host.  Each one that is started for a package finds the host
as it was before the package was validated, since the scripts are judged side by side; what they
change is put together afterwards, call after call.  Interpreters that change what others of the
same package read are not described by this.
-/

namespace SkillAudit

/-- The absolute path of a place. -/
def Path.absolute (names : List String) : String :=
  "/" ++ Path.ofNames names

namespace Validation

/-- The package at a path, read by the resolved spelling of the path.  A path that leads to a
directory always resolves, so it is never read as it is spelled. -/
def package (fs : FileSystem) (path : String) : Except RunError Package :=
  if !fs.pathExists path then
    .error (.pathNotFound path)
  else if !fs.isDirectory path then
    .error (.notADirectory path)
  else
    match fs.canonical path with
    | .ok names => Package.load fs (Path.absolute names)
    | .error _ => Package.load fs path

/-- The report on the package at a path. -/
def run (host : Host) (config : Config) (path : String) : Except RunError Report := do
  let package ← package host.files path
  return {
    name := package.name
    diagnostics := Evaluation.diagnostics host.toolchain config package
    strict := config.strict.enabled }

/-- The host after the package at a path was validated: what the calls of interpreters change is
folded in the order of the scripts, although each of them was judged on the host as it was. -/
def hostAfter (host : Host) (config : Config) (path : String) : Host :=
  match package host.files path with
  | .ok package => host.afterCalls (Evaluation.calls host.toolchain config package)
  | .error _ => host

end Validation
end SkillAudit
