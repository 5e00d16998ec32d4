import SkillAudit.Diagnostic

/-!
# Reports

The outcome of one run: the diagnostics in evaluation order, and the verdict that follows from their
severities.  Strictness changes the verdict and nothing else.

* `length_diagnostics`: errors and warnings together are all diagnostics.
* `countBySeverity_eq`: counting in one pass gives the numbers of errors and of warnings.
* `seen_eq`: looking in one pass finds the severities that occur.
* `exitCode_eq_zero_iff`: a run that does not fail exits with zero.
-/

namespace SkillAudit

/-- The verdict of a run. -/
inductive Status where
  | passed
  | warning
  | failed
  deriving DecidableEq, Repr

/-- The name of a verdict. -/
def Status.text : Status → String
  | .passed => "passed"
  | .warning => "warning"
  | .failed => "failed"

/-- What a run found. -/
structure Report where
  /-- The name of the package. -/
  name : String
  diagnostics : List Diagnostic
  /-- Whether warnings fail the run. -/
  strict : Bool
  deriving DecidableEq, Repr

namespace Report

/-- The diagnostics of a severity, in order. -/
def ofSeverity (report : Report) (severity : Severity) : List Diagnostic :=
  report.diagnostics.filter (·.severity = severity)

/-- The errors, in order. -/
def errors (report : Report) : List Diagnostic :=
  report.ofSeverity .error

/-- The warnings, in order. -/
def warnings (report : Report) : List Diagnostic :=
  report.ofSeverity .warning

/-- One more error, or one more warning. -/
def countOne : Nat × Nat → Diagnostic → Nat × Nat
  | (errors, warnings), d =>
      match d.severity with
      | .error => (errors + 1, warnings)
      | .warning => (errors, warnings + 1)

/-- How many errors and how many warnings there are, counted in one pass. -/
def countBySeverity (report : Report) : Nat × Nat :=
  report.diagnostics.foldl countOne (0, 0)

/-- Whether an error was seen, and whether a warning was, after one more diagnostic. -/
def seeOne : Bool × Bool → Diagnostic → Bool × Bool
  | (errors, warnings), d =>
      match d.severity with
      | .error => (true, warnings)
      | .warning => (errors, true)

/-- Whether there is an error, and whether there is a warning, looked for in one pass. -/
def seen (report : Report) : Bool × Bool :=
  report.diagnostics.foldl seeOne (false, false)

/-- The verdict. -/
def status (report : Report) : Status :=
  match report.seen with
  | (true, _) => .failed
  | (false, true) => if report.strict then .failed else .warning
  | (false, false) => .passed

/-- Whether the run did not fail. -/
def passed (report : Report) : Bool :=
  report.status != .failed

/-- The exit code of the run. -/
def exitCode (report : Report) : Nat :=
  if report.passed then 0 else 1

/-- Errors and warnings together are all diagnostics. -/
theorem length_diagnostics
    (report : Report) :
    report.errors.length + report.warnings.length = report.diagnostics.length := by
  obtain ⟨name, diagnostics, strict⟩ := report
  simp only [errors, warnings, ofSeverity]
  induction diagnostics with
  | nil =>
      rfl
  | cons d rest ih =>
      cases h : d.severity with
      | error =>
          simp [h]
          omega
      | warning =>
          simp [h]
          omega

/-- The counts are those of the errors and of the warnings. -/
theorem countBySeverity_eq
    (report : Report) :
    report.countBySeverity = (report.errors.length, report.warnings.length) := by
  obtain ⟨name, diagnostics, strict⟩ := report
  simp only [countBySeverity, errors, warnings, ofSeverity]
  -- The counts so far are added to those of the diagnostics that are left.
  have hcounts (before : Nat × Nat) :
      diagnostics.foldl countOne before =
        (before.1 + (diagnostics.filter (·.severity = .error)).length,
          before.2 + (diagnostics.filter (·.severity = .warning)).length) := by
    induction diagnostics generalizing before with
    | nil =>
        rfl
    | cons d rest ih =>
        rw [List.foldl_cons, ih]
        cases h : d.severity with
        | error =>
            simp [countOne, h]
            omega
        | warning =>
            simp [countOne, h]
            omega
  simpa using hcounts (0, 0)

/-- What is seen in one pass is whether there are errors and whether there are warnings. -/
theorem seen_eq
    (report : Report) :
    report.seen = (!report.errors.isEmpty, !report.warnings.isEmpty) := by
  obtain ⟨name, diagnostics, strict⟩ := report
  simp only [seen, errors, warnings, ofSeverity]
  -- What was seen before stays seen.
  have hseen (before : Bool × Bool) :
      diagnostics.foldl seeOne before =
        (before.1 || !(diagnostics.filter (·.severity = .error)).isEmpty,
          before.2 || !(diagnostics.filter (·.severity = .warning)).isEmpty) := by
    induction diagnostics generalizing before with
    | nil =>
        simp
    | cons d rest ih =>
        rw [List.foldl_cons, ih]
        cases h : d.severity with
        | error =>
            simp [seeOne, h]
        | warning =>
            simp [seeOne, h]
  simpa using hseen (false, false)

/-- A run that does not fail exits with zero. -/
theorem exitCode_eq_zero_iff
    (report : Report) :
    report.exitCode = 0 ↔ report.status ≠ .failed := by
  simp [exitCode, passed]

end Report
end SkillAudit
