import Mathlib.Data.List.Infix
import SkillAudit.Report.Pretty

/-!
# The verdict

The verdict of a report depends on which severities occur among its diagnostics, and on strictness.
Errors fail a run and more diagnostics never mend it; strictness makes a difference where there are
warnings and nothing worse.  The counts, the two lists of diagnostics, the exit code and the text
for people all agree with the verdict.

* `partitions_iff`: errors and warnings are the one way to take the diagnostics apart by severity.
* `status_eq_failed_iff`, `status_eq_warning_iff`, `status_eq_passed_iff`: what each verdict says.
* `allPassed_isInfix_pretty_iff`, `passLine_isSuffix_pretty_iff`: what people are shown.
* `verdict_law`: the whole law.
-/

namespace SkillAudit

/-- A diagnostic of this severity is among the diagnostics. -/
def Severity.OccursIn (severity : Severity) (diagnostics : List Diagnostic) : Prop :=
  ∃ d ∈ diagnostics, d.severity = severity

namespace Report

/-- The third list is the first two put together, each in its order. -/
inductive Interleaves : List Diagnostic → List Diagnostic → List Diagnostic → Prop
  | nil : Interleaves [] [] []
  | left
      {errors warnings diagnostics : List Diagnostic}
      (d : Diagnostic)
      (h : Interleaves errors warnings diagnostics) :
      Interleaves (d :: errors) warnings (d :: diagnostics)
  | right
      {errors warnings diagnostics : List Diagnostic}
      (d : Diagnostic)
      (h : Interleaves errors warnings diagnostics) :
      Interleaves errors (d :: warnings) (d :: diagnostics)

/-- Diagnostics taken apart into errors and warnings, each in their order. -/
structure Partitions (errors warnings diagnostics : List Diagnostic) : Prop where
  interleaves : Interleaves errors warnings diagnostics
  errors_only : ∀ d ∈ errors, d.severity = .error
  warnings_only : ∀ d ∈ warnings, d.severity = .warning

section Partition

theorem partitions_filter
    (diagnostics : List Diagnostic) :
    Partitions (diagnostics.filter (·.severity = .error))
      (diagnostics.filter (·.severity = .warning)) diagnostics := by
  refine ⟨?_, by simp, by simp⟩
  induction diagnostics with
  | nil =>
      exact .nil
  | cons d rest ih =>
      cases h : d.severity with
      | error =>
          simpa [h] using ih.left d
      | warning =>
          simpa [h] using ih.right d

theorem eq_filter_of_partitions
    {errors warnings diagnostics : List Diagnostic}
    (h : Partitions errors warnings diagnostics) :
    errors = diagnostics.filter (·.severity = .error) ∧
      warnings = diagnostics.filter (·.severity = .warning) := by
  obtain ⟨hinterleaves, herrors, hwarnings⟩ := h
  induction hinterleaves with
  | nil =>
      exact ⟨rfl, rfl⟩
  | left d _ ih =>
      obtain ⟨hd, hrest⟩ := List.forall_mem_cons.1 herrors
      obtain ⟨herr, hwarn⟩ := ih hrest hwarnings
      simp [hd, ← herr, ← hwarn]
  | right d _ ih =>
      obtain ⟨hd, hrest⟩ := List.forall_mem_cons.1 hwarnings
      obtain ⟨herr, hwarn⟩ := ih herrors hrest
      simp [hd, ← herr, ← hwarn]

/-- The errors and the warnings of a report are the one way to take its diagnostics apart. -/
theorem partitions_iff
    (report : Report)
    {errors warnings : List Diagnostic} :
    Partitions errors warnings report.diagnostics ↔
      errors = report.errors ∧ warnings = report.warnings := by
  constructor
  · exact eq_filter_of_partitions
  · rintro ⟨rfl, rfl⟩
    exact partitions_filter report.diagnostics

end Partition

section Status

theorem errors_ne_nil_iff
    {report : Report} :
    report.errors ≠ [] ↔ Severity.error.OccursIn report.diagnostics := by
  simp [errors, ofSeverity, Severity.OccursIn]

theorem warnings_ne_nil_iff
    {report : Report} :
    report.warnings ≠ [] ↔ Severity.warning.OccursIn report.diagnostics := by
  simp [warnings, ofSeverity, Severity.OccursIn]

/-- Without errors and without warnings there are no diagnostics. -/
theorem diagnostics_eq_nil_iff
    {report : Report} :
    report.diagnostics = [] ↔ report.errors = [] ∧ report.warnings = [] := by
  have hlength := report.length_diagnostics
  simp only [← List.length_eq_zero_iff]
  omega

/-- The verdict from the errors and the warnings. -/
theorem status_eq
    (report : Report) :
    report.status =
      if report.errors ≠ [] then .failed
      else if report.warnings = [] then .passed
      else if report.strict then .failed
      else .warning := by
  rw [status, seen_eq]
  cases report.errors <;> cases report.warnings <;> simp

theorem status_eq_failed_iff
    {report : Report} :
    report.status = .failed ↔
      Severity.error.OccursIn report.diagnostics ∨
        (report.strict = true ∧ Severity.warning.OccursIn report.diagnostics) := by
  rw [status_eq, ← errors_ne_nil_iff, ← warnings_ne_nil_iff]
  split_ifs <;> simp_all

theorem status_eq_warning_iff
    {report : Report} :
    report.status = .warning ↔
      Severity.warning.OccursIn report.diagnostics ∧
        ¬ Severity.error.OccursIn report.diagnostics ∧ report.strict = false := by
  rw [status_eq, ← errors_ne_nil_iff, ← warnings_ne_nil_iff]
  split_ifs <;> simp_all

theorem status_eq_passed_iff
    {report : Report} :
    report.status = .passed ↔ report.diagnostics = [] := by
  rw [status_eq, diagnostics_eq_nil_iff]
  split_ifs <;> simp_all

/-- Reports that are equally strict and have diagnostics of the same severities have one verdict. -/
theorem status_eq_of_occursIn_iff
    {report other : Report}
    (hstrict : report.strict = other.strict)
    (hoccurs : ∀ severity : Severity,
      severity.OccursIn report.diagnostics ↔ severity.OccursIn other.diagnostics) :
    report.status = other.status := by
  have hfailed : report.status = .failed ↔ other.status = .failed := by
    rw [status_eq_failed_iff, status_eq_failed_iff, hstrict, hoccurs, hoccurs]
  have hwarning : report.status = .warning ↔ other.status = .warning := by
    rw [status_eq_warning_iff, status_eq_warning_iff, hstrict, hoccurs, hoccurs]
  cases hreport : report.status <;> cases hother : other.status <;> simp_all

theorem passed_eq_false_iff
    {report : Report} :
    report.passed = false ↔ report.status = .failed := by
  simp [passed]

/-- Strictness makes a difference where there are warnings and no errors. -/
theorem status_strict_ne_iff
    (report : Report) :
    ({ report with strict := true } : Report).status ≠
        ({ report with strict := false } : Report).status ↔
      Severity.warning.OccursIn report.diagnostics ∧
        ¬ Severity.error.OccursIn report.diagnostics := by
  have hon : ({ report with strict := true } : Report).status =
      if report.errors ≠ [] then .failed
      else if report.warnings = [] then .passed
      else .failed :=
    status_eq _
  have hoff : ({ report with strict := false } : Report).status =
      if report.errors ≠ [] then .failed
      else if report.warnings = [] then .passed
      else .warning :=
    status_eq _
  rw [← errors_ne_nil_iff, ← warnings_ne_nil_iff, hon, hoff]
  split_ifs <;> simp_all

theorem occursIn_append
    {severity : Severity}
    {diagnostics more : List Diagnostic} :
    severity.OccursIn (diagnostics ++ more) ↔
      severity.OccursIn diagnostics ∨ severity.OccursIn more := by
  simp [Severity.OccursIn, or_and_right, exists_or]

end Status

section Shown

/-- The line that tells people that a run did not fail, with the lines around it. -/
def passLine (warnings : Nat) : List Span :=
  [.plain (bar ++ "\n  "),
    .styled (.boldIn .green) ("RESULT: PASS (" ++ toString warnings ++ " warnings)"),
    .plain ("\n" ++ bar ++ "\n\n")]

theorem allPassed_text_not_mem_sectionOf
    (title mark : String)
    {color : Color}
    (hcolor : color ≠ .green)
    (count : Nat)
    (diagnostics : List Diagnostic) :
    Span.styled (.boldIn .green) "ALL CHECKS PASSED" ∉
      sectionOf title mark color count diagnostics := by
  unfold sectionOf
  split_ifs
  · simp [sectionLines, Look.boldIn, Look.plainIn, hcolor.symm]
  · simp

theorem allPassed_text_ne_resultLine
    (report : Report) :
    Span.styled (.boldIn .green) "ALL CHECKS PASSED" ≠ report.resultLine := by
  unfold resultLine
  split_ifs
  · intro h
    -- The two texts differ in their first letters.
    have htext := congrArg (fun span => span.text.toList.head?) h
    simp [Span.text] at htext
  · simp [Look.boldIn]

/-- People are told that all checks passed if there are no diagnostics. -/
theorem allPassed_isInfix_pretty_iff
    {report : Report} :
    allPassed <:+: report.pretty ↔ report.status = .passed := by
  rw [status_eq_passed_iff, diagnostics_eq_nil_iff, pretty, countBySeverity_eq]
  simp only [List.length_eq_zero_iff]
  constructor
  · intro h
    by_contra hsome
    have hmem : Span.styled (.boldIn .green) "ALL CHECKS PASSED" ∈ allPassed := by
      simp [allPassed]
    have hshown := h.subset hmem
    rw [if_neg hsome] at hshown
    simp only [List.mem_append] at hshown
    rcases hshown with (((hshown | hshown) | hshown) | hshown) | hshown
    · simp [Look.boldIn, Look.bold] at hshown
    · exact allPassed_text_not_mem_sectionOf _ _ (by decide) _ _ hshown
    · exact allPassed_text_not_mem_sectionOf _ _ (by decide) _ _ hshown
    · cases hshown
    · simp [allPassed_text_ne_resultLine] at hshown
  · intro hnone
    rw [if_pos hnone]
    exact ⟨_, _, rfl⟩

/-- People are told that a run passes if it exits with zero. -/
theorem passLine_isSuffix_pretty_iff
    {report : Report} :
    passLine report.warnings.length <:+ report.pretty ↔ report.exitCode = 0 := by
  have hends :
      passLine report.warnings.length <:+ report.pretty ↔
        passLine report.warnings.length =
          [.plain (bar ++ "\n  "), report.resultLine, .plain ("\n" ++ bar ++ "\n\n")] := by
    rw [pretty]
    constructor
    · intro h
      have hsuffix :=
        List.suffix_of_suffix_length_le h (List.suffix_append _ _) (by simp [passLine])
      exact hsuffix.eq_of_length (by simp [passLine])
    · intro h
      rw [h]
      exact List.suffix_append _ _
  rw [hends, passLine, resultLine, countBySeverity_eq, exitCode]
  cases report.passed <;> simp [Look.boldIn]

end Shown

/--
The verdict of a report on these diagnostics.  The diagnostics are kept, taken apart and counted by
severity.  Each verdict says which severities there are, so that no other order or number of the
same diagnostics changes it, more diagnostics never mend a run that failed, and strictness makes a
difference to warnings without errors alone.  A run that did not fail is one that exits with zero
and one of which people are told so.
-/
theorem verdict_law
    (name : String)
    (diagnostics : List Diagnostic)
    (strict : Bool) :
    let report : Report := { name, diagnostics, strict }
    report.diagnostics = diagnostics ∧
    (∀ errors warnings, Partitions errors warnings diagnostics ↔
      errors = report.errors ∧ warnings = report.warnings) ∧
    report.countBySeverity = (report.errors.length, report.warnings.length) ∧
    report.countBySeverity.1 + report.countBySeverity.2 = diagnostics.length ∧
    (report.status = .failed ↔
      Severity.error.OccursIn diagnostics ∨
        (strict = true ∧ Severity.warning.OccursIn diagnostics)) ∧
    (report.status = .warning ↔
      Severity.warning.OccursIn diagnostics ∧ ¬ Severity.error.OccursIn diagnostics ∧
        strict = false) ∧
    (report.status = .passed ↔ diagnostics = []) ∧
    (report.passed = true ↔ report.exitCode = 0) ∧
    (report.exitCode = 0 ↔ report.status ≠ .failed) ∧
    (∀ other : List Diagnostic,
      (∀ severity : Severity, severity.OccursIn other ↔ severity.OccursIn diagnostics) →
        ({ report with diagnostics := other } : Report).status = report.status) ∧
    (∀ more : List Diagnostic, report.passed = false →
      ({ report with diagnostics := diagnostics ++ more } : Report).passed = false) ∧
    (({ report with strict := false } : Report).passed = false →
      ({ report with strict := true } : Report).passed = false) ∧
    (({ report with strict := true } : Report).status ≠
        ({ report with strict := false } : Report).status ↔
      Severity.warning.OccursIn diagnostics ∧ ¬ Severity.error.OccursIn diagnostics) ∧
    (allPassed <:+: report.pretty ↔ report.status = .passed) ∧
    (passLine report.warnings.length <:+ report.pretty ↔ report.exitCode = 0) := by
  intro report
  refine ⟨rfl, fun _ _ => partitions_iff report, countBySeverity_eq report,
    ?_, status_eq_failed_iff, status_eq_warning_iff, status_eq_passed_iff, ?_,
    exitCode_eq_zero_iff report, ?_, ?_, ?_, ?_, allPassed_isInfix_pretty_iff,
    passLine_isSuffix_pretty_iff⟩
  · rw [countBySeverity_eq]
    exact report.length_diagnostics
  · rw [exitCode_eq_zero_iff, Ne, ← passed_eq_false_iff, Bool.not_eq_false]
  · intro other hoccurs
    exact status_eq_of_occursIn_iff rfl hoccurs
  · intro more hfailed
    rw [passed_eq_false_iff, status_eq_failed_iff] at hfailed ⊢
    exact hfailed.imp (fun herror => occursIn_append.2 (.inl herror))
      (And.imp id fun hwarning => occursIn_append.2 (.inl hwarning))
  · intro hfailed
    rw [passed_eq_false_iff, status_eq_failed_iff] at hfailed ⊢
    exact hfailed.imp id fun hstrict => absurd hstrict.1 Bool.false_ne_true
  · exact status_strict_ne_iff report

end Report
end SkillAudit
