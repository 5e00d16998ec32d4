import SkillAudit.Contract
import SkillAudit.Diagnostic

/-!
# Rules and checks

A rule is what is fixed about a kind of violation.  A check is a rule with the function that finds
its violations; its diagnostics carry the identifier, severity and category of the rule.
-/

namespace SkillAudit

/-- What is fixed about a kind of violation. -/
structure Rule where
  id : String
  severity : Severity
  category : Category
  /-- What the rule is about, in one line. -/
  summary : String
  /-- How a violation is mended. -/
  remediation : String
  deriving DecidableEq, Repr

/-- What is particular about one violation. -/
structure Violation where
  message : String
  file : Option String := none
  deriving DecidableEq, Repr

/-- The diagnostic of a violation. -/
def Rule.diagnostic (rule : Rule) (violation : Violation) : Diagnostic :=
  { ruleId := rule.id
    severity := rule.severity
    category := rule.category
    message := violation.message
    file := violation.file }

/-- A violation in the entry document. -/
def Violation.inEntry (message : String) : Violation :=
  { message, file := some Contract.entryFile }

/-- The violation with this message in the entry document, if the condition holds. -/
def Violation.inEntryIf (condition : Bool) (message : String) : List Violation :=
  if condition then [.inEntry message] else []

/-- A rule with the function that finds its violations in a subject. -/
structure Check (α : Type) where
  rule : Rule
  violations : α → List Violation

/-- The diagnostics of one check. -/
def Check.run {α : Type} (check : Check α) (subject : α) : List Diagnostic :=
  (check.violations subject).map check.rule.diagnostic

/-- The diagnostics of several checks, in the order of the checks. -/
def runChecks {α : Type} (checks : List (Check α)) (subject : α) : List Diagnostic :=
  checks.flatMap (·.run subject)

@[simp] theorem runChecks_nil
    {α : Type}
    (subject : α) :
    runChecks [] subject = [] := by
  rfl

@[simp] theorem runChecks_cons
    {α : Type}
    (check : Check α)
    (checks : List (Check α))
    (subject : α) :
    runChecks (check :: checks) subject = check.run subject ++ runChecks checks subject := by
  simp [runChecks]

theorem runChecks_append
    {α : Type}
    (checks more : List (Check α))
    (subject : α) :
    runChecks (checks ++ more) subject = runChecks checks subject ++ runChecks more subject := by
  simp [runChecks]

theorem runChecks_eq_nil
    {α : Type}
    {checks : List (Check α)}
    {subject : α}
    (hsilent : ∀ check ∈ checks, check.violations subject = []) :
    runChecks checks subject = [] := by
  rw [runChecks, List.flatMap_eq_nil_iff]
  intro check hcheck
  rw [Check.run, hsilent check hcheck, List.map_nil]

/-- A diagnostic of several checks is the diagnostic of a violation of one of them. -/
theorem mem_runChecks
    {α : Type}
    {checks : List (Check α)}
    {subject : α}
    {d : Diagnostic} :
    d ∈ runChecks checks subject ↔
      ∃ check ∈ checks, ∃ v ∈ check.violations subject, check.rule.diagnostic v = d := by
  simp [runChecks, Check.run]

end SkillAudit
