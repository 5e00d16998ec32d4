import SkillAudit.Body
import SkillAudit.Proofs.Frontmatter.Contract
import SkillAudit.Proofs.Text.LineCuts

/-!
# The contract of a body

What is reported of a body depends on how many line feeds it has and on whether one of its lines
opens with the mark of a title.  A line is what stands between line feeds or the ends of the text;
so the lines of two bodies with a line feed between them are those of the one and those of the
other.

* `diagnostics_eq`: what is reported, with every threshold in place.
* `reports_tooLong_iff`, `reports_veryShort_iff`, `reports_noHeading_iff`: when a rule reports.
* `diagnostics_by_lines`: the contract, and what becomes of it when lines are added.
-/

namespace SkillAudit
namespace Body

open Frontmatter (reportIf map_inEntryIf)

section Contract

/-- Some line of the body opens with the mark of a title. -/
def HasTitle (body : String) : Prop :=
  ∃ line, Text.IsLineOf line body.toList ∧ "# ".toList <+: line

/-- The search for a heading finds the bodies with a title. -/
theorem hasHeading_iff
    {body : String} :
    hasHeading body = true ↔ HasTitle body := by
  simp only [hasHeading, lines, List.any_eq_true, Text.mem_splitOn_iff, Text.startsWith_iff]
  rfl

instance (body : String) : Decidable (HasTitle body) :=
  decidable_of_iff _ hasHeading_iff

/-- What is reported of a body: that it has too many lines, or nearly so, or very few, and that it
has no title. -/
def contract (body : String) : List Diagnostic :=
  let n := 1 + body.toList.count '\n'
  reportIf (500 < n) "body/too-long" .error .body
    ("body too long: " ++ toString n ++ " lines (max " ++ toString 500 ++ ")") ++
  reportIf (400 < n ∧ n ≤ 500) "body/approaching-limit" .warning .body
    ("body approaching limit: " ++ toString n ++ " lines (max " ++ toString 500 ++ ")") ++
  reportIf (n < 5) "body/very-short" .warning .body
    ("body very short: " ++ toString n ++ " lines, may lack sufficient instructions") ++
  reportIf (¬ HasTitle body) "body/no-heading" .warning .body
    "no top-level heading found (start with '# Skill Name')"

/-- The rules on the number of lines. -/
def lengthRules : List String :=
  ["body/too-long", "body/approaching-limit", "body/very-short"]

/-- A rule reports something of the body. -/
def Reports (rule body : String) : Prop :=
  ∃ d ∈ diagnostics body, d.ruleId = rule

end Contract

section Reporting

variable {body : String}

theorem lineCount_eq_add
    (body : String) :
    lineCount body = 1 + body.toList.count '\n' := by
  rw [lineCount_eq, Nat.add_comm]

/-- The checks of a body report what its contract says. -/
theorem diagnostics_eq
    (body : String) :
    diagnostics body = contract body := by
  have hlong : tooLong.run body =
      reportIf (500 < lineCount body) "body/too-long" .error .body
        ("body too long: " ++ toString (lineCount body) ++ " lines (max " ++ toString 500 ++ ")") :=
    map_inEntryIf tooLong.rule decide_eq_true_iff
  have hclose : approachingLimit.run body =
      reportIf (400 < lineCount body ∧ lineCount body ≤ 500) "body/approaching-limit" .warning .body
        ("body approaching limit: " ++ toString (lineCount body) ++ " lines (max " ++
          toString 500 ++ ")") :=
    map_inEntryIf approachingLimit.rule (by
      rw [Bool.and_eq_true, decide_eq_true_iff, decide_eq_true_iff]
      rfl)
  have hshort : veryShort.run body =
      reportIf (lineCount body < 5) "body/very-short" .warning .body
        ("body very short: " ++ toString (lineCount body) ++
          " lines, may lack sufficient instructions") :=
    map_inEntryIf veryShort.rule decide_eq_true_iff
  have hheading : noHeading.run body =
      reportIf (¬ HasTitle body) "body/no-heading" .warning .body
        "no top-level heading found (start with '# Skill Name')" :=
    map_inEntryIf noHeading.rule (by
      rw [Bool.not_eq_true', ← Bool.not_eq_true, hasHeading_iff])
  rw [diagnostics, checks, runChecks_cons, runChecks_cons, runChecks_cons, runChecks_cons,
    runChecks_nil, List.append_nil, hlong, hclose, hshort, hheading, lineCount_eq_add, contract]
  simp only [List.append_assoc]

section Conditions

variable {condition : Prop}
variable [Decidable condition]
variable {id message : String}
variable {severity : Severity}
variable {category : Category}

theorem exists_mem_reportIf
    {rule : String} :
    (∃ d ∈ reportIf condition id severity category message, d.ruleId = rule) ↔
      condition ∧ id = rule := by
  unfold reportIf
  split
  · next h => simp [h]
  · next h => simp [h]

theorem file_of_mem_reportIf
    {d : Diagnostic}
    (h : d ∈ reportIf condition id severity category message) :
    d.file = some "SKILL.md" := by
  unfold reportIf at h
  split at h
  · rw [List.mem_singleton.1 h]
  · cases h

theorem length_filter_reportIf
    {rules : List String} :
    ((reportIf condition id severity category message).filter (·.ruleId ∈ rules)).length =
      if condition ∧ id ∈ rules then 1 else 0 := by
  unfold reportIf
  split
  · next h =>
      by_cases hid : id ∈ rules
      · simp [h, hid]
      · simp [hid]
  · next h => simp [h]

end Conditions

/-- When a rule reports something of a body. -/
theorem reports_iff
    {rule : String} :
    Reports rule body ↔
      500 < lineCount body ∧ "body/too-long" = rule ∨
      (400 < lineCount body ∧ lineCount body ≤ 500) ∧ "body/approaching-limit" = rule ∨
      lineCount body < 5 ∧ "body/very-short" = rule ∨
      ¬ HasTitle body ∧ "body/no-heading" = rule := by
  simp only [Reports, diagnostics_eq, contract, ← lineCount_eq_add, List.mem_append, or_and_right,
    exists_or, exists_mem_reportIf, or_assoc]

theorem reports_tooLong_iff :
    Reports "body/too-long" body ↔ 500 < lineCount body := by
  simp [reports_iff]

theorem reports_veryShort_iff :
    Reports "body/very-short" body ↔ lineCount body < 5 := by
  simp [reports_iff]

theorem reports_noHeading_iff :
    Reports "body/no-heading" body ↔ ¬ HasTitle body := by
  simp [reports_iff]

/-- All that is reported is about the entry document. -/
theorem file_of_mem_diagnostics
    {d : Diagnostic}
    (h : d ∈ diagnostics body) :
    d.file = some "SKILL.md" := by
  rw [diagnostics_eq, contract] at h
  simp only [List.mem_append] at h
  rcases h with ((h | h) | h) | h
  all_goals exact file_of_mem_reportIf h

/-- The ranges of the rules on the number of lines are apart. -/
theorem length_filter_lengthRules
    (body : String) :
    ((diagnostics body).filter (·.ruleId ∈ lengthRules)).length ≤ 1 := by
  rw [diagnostics_eq, contract]
  simp only [List.filter_append, List.length_append, length_filter_reportIf]
  have hheading : "body/no-heading" ∉ lengthRules := by
    decide
  have hlength : "body/too-long" ∈ lengthRules ∧ "body/approaching-limit" ∈ lengthRules ∧
      "body/very-short" ∈ lengthRules := by
    decide
  simp only [hheading, hlength, and_true, and_false, if_false]
  split
  · rw [if_neg (by omega), if_neg (by omega)]
  · split
    · rw [if_neg (by omega)]
    · split <;> omega

/-- A body with lines behind it has the lines of both. -/
theorem lines_append
    (body more : String) :
    lines (body ++ "\n" ++ more) = lines body ++ lines more := by
  have htext : (body ++ "\n" ++ more).toList = body.toList ++ '\n' :: more.toList := by
    simp
  rw [lines, htext, Text.splitOn_append_cons]
  rfl

end Reporting

/--
What is reported of a body is what its contract says, and all of it is about the entry document; of
the rules on the number of lines, one at most reports.  Two bodies with a line feed between them
have as many lines as both together, and a heading if one of them has one.  So a body that goes on
is still too long if it was before, and is very short or without a title only if it was before.
-/
theorem diagnostics_by_lines :
    (∀ body : String,
      diagnostics body = contract body ∧
      lineCount body = 1 + body.toList.count '\n' ∧
      (∀ d ∈ diagnostics body, d.file = some "SKILL.md") ∧
      ((diagnostics body).filter (·.ruleId ∈ lengthRules)).length ≤ 1) ∧
    ∀ body more : String,
      lineCount (body ++ "\n" ++ more) = lineCount body + lineCount more ∧
      hasHeading (body ++ "\n" ++ more) = (hasHeading body || hasHeading more) ∧
      (Reports "body/too-long" body → Reports "body/too-long" (body ++ "\n" ++ more)) ∧
      (Reports "body/very-short" (body ++ "\n" ++ more) → Reports "body/very-short" body) ∧
      (Reports "body/no-heading" (body ++ "\n" ++ more) → Reports "body/no-heading" body) := by
  refine ⟨fun body => ⟨diagnostics_eq body, lineCount_eq_add body,
    fun d hd => file_of_mem_diagnostics hd, length_filter_lengthRules body⟩, ?_⟩
  intro body more
  have hcount : lineCount (body ++ "\n" ++ more) = lineCount body + lineCount more := by
    rw [lineCount, lines_append, List.length_append]
    rfl
  have hheading : hasHeading (body ++ "\n" ++ more) = (hasHeading body || hasHeading more) := by
    rw [hasHeading, lines_append, List.any_append]
    rfl
  refine ⟨hcount, hheading, ?_, ?_, ?_⟩
  · rw [reports_tooLong_iff, reports_tooLong_iff, hcount]
    omega
  · rw [reports_veryShort_iff, reports_veryShort_iff, hcount]
    omega
  · rw [reports_noHeading_iff, reports_noHeading_iff, ← hasHeading_iff, ← hasHeading_iff, hheading,
      Bool.or_eq_true]
    exact fun h hbody => h (Or.inl hbody)

/-- A body of line feeds is too long with a title behind it, too; an empty text with an empty text
behind it is very short and has no title. -/
theorem diagnostics_of_line_feeds :
    Reports "body/too-long" (String.ofList (List.replicate 500 '\n')) ∧
    Reports "body/too-long" (String.ofList (List.replicate 500 '\n') ++ "\n" ++ "# a") ∧
    hasHeading (String.ofList (List.replicate 500 '\n') ++ "\n" ++ "# a") = true ∧
    Reports "body/very-short" ("" ++ "\n" ++ "") ∧
    Reports "body/very-short" "" ∧
    Reports "body/no-heading" ("" ++ "\n" ++ "") ∧
    Reports "body/no-heading" "" := by
  obtain ⟨-, hmore⟩ := diagnostics_by_lines
  have hlong : Reports "body/too-long" (String.ofList (List.replicate 500 '\n')) := by
    rw [reports_tooLong_iff, lineCount_eq_add, String.toList_ofList, List.count_replicate_self]
    decide
  have hshort : Reports "body/very-short" ("" ++ "\n" ++ "") :=
    reports_veryShort_iff.2 (by decide)
  have huntitled : Reports "body/no-heading" ("" ++ "\n" ++ "") :=
    reports_noHeading_iff.2 (by decide)
  have htitle : hasHeading "# a" = true := by
    decide
  obtain ⟨-, hheading, hkept, -, -⟩ := hmore (String.ofList (List.replicate 500 '\n')) "# a"
  obtain ⟨-, -, -, hshorter, hplain⟩ := hmore "" ""
  refine ⟨hlong, hkept hlong, ?_, hshort, hshorter hshort, huntitled, hplain huntitled⟩
  rw [hheading, htitle, Bool.or_true]

end Body
end SkillAudit
