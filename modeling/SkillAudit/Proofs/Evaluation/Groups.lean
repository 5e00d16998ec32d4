import SkillAudit.Evaluation
import SkillAudit.Proofs.Script.Verdicts

/-!
# Groups of rules as filters

Each category belongs to one group of rules, and the diagnostics of a group are of its categories.
So turning groups off only filters the diagnostics that there are with every group on.

* `whenOn_eq_filter`: the diagnostics of one group are kept or dropped as a whole.
* `diagnostics_of_document`: the five parts of the evaluation, each with the group it belongs to.
* `diagnostics_filtered`: the groups that are on filter the diagnostics of one evaluation.
-/

namespace SkillAudit

/-- A group of rules that can be turned on and off. -/
inductive RuleGroup where
  | layout
  | scripts
  | frontmatter
  | body
  deriving DecidableEq, Repr

/-- The group that a category belongs to. -/
def Category.group : Category → RuleGroup
  | .layout => .layout
  | .scripts => .scripts
  | .frontmatter => .frontmatter
  | .name => .frontmatter
  | .description => .frontmatter
  | .body => .body

/-- Whether a group is on. -/
def Groups.isOn (groups : Groups) : RuleGroup → Bool
  | .layout => groups.layout
  | .scripts => groups.scripts
  | .frontmatter => groups.frontmatter
  | .body => groups.body

/-- The setting with every group on. -/
def Groups.all : Groups where
  layout := true
  scripts := true
  frontmatter := true
  body := true

theorem Groups.isOn_all
    (group : RuleGroup) :
    Groups.all.isOn group = true := by
  cases group <;> rfl

namespace Evaluation

section Groups

/-- All of some diagnostics are of categories of one group. -/
def AllOf (group : RuleGroup) (diagnostics : List Diagnostic) : Prop :=
  ∀ d ∈ diagnostics, d.category.group = group

/-- The diagnostics of checks whose rules are of one group are of that group. -/
theorem allOf_runChecks
    {α : Type}
    {group : RuleGroup}
    {checks : List (Check α)}
    (hchecks : ∀ check ∈ checks, check.rule.category.group = group)
    (subject : α) :
    AllOf group (runChecks checks subject) := by
  intro d hd
  obtain ⟨check, hcheck, violation, -, rfl⟩ := mem_runChecks.1 hd
  exact hchecks check hcheck

theorem allOf_scripts
    (tools : Script.Toolchain)
    (interpreters : Interpreters)
    (package : Package) :
    AllOf .scripts (Script.diagnostics tools interpreters package) := by
  intro d hd
  obtain ⟨rule, hrule, violation, rfl⟩ := Script.rule_of_mem_diagnostics tools interpreters hd
  -- Either rule that can be broken, on a failed parse or on a missing interpreter, is of the group.
  have hrules : ∀ rule ∈ [Script.syntaxError, Script.unchecked],
      rule.category.group = .scripts := by
    decide
  exact hrules rule hrule

theorem allOf_frontmatter
    (header : Option Header) :
    AllOf .frontmatter (Frontmatter.diagnostics header) := by
  cases header with
  | none =>
      intro d hd
      rw [Frontmatter.diagnostics, List.mem_singleton] at hd
      rw [hd]
      rfl
  | some header =>
      exact allOf_runChecks (by decide) header

/-- The diagnostics of one group are kept or dropped as a whole. -/
theorem whenOn_eq_filter
    {group : RuleGroup}
    {diagnostics : List Diagnostic}
    (hgroup : AllOf group diagnostics)
    (groups : Groups) :
    whenOn (groups.isOn group) diagnostics =
      diagnostics.filter fun d => groups.isOn d.category.group := by
  cases hon : groups.isOn group with
  | true =>
      refine (List.filter_eq_self.2 fun d hd => ?_).symm
      rw [hgroup d hd, hon]
  | false =>
      refine (List.filter_eq_nil_iff.2 fun d hd => ?_).symm
      rw [hgroup d hd, hon]
      exact Bool.false_ne_true

/-- The evaluation of a package with a document, as the parts that there are with every group on. -/
theorem diagnostics_of_document
    {package : Package}
    {document : Document}
    (hdocument : package.document = some document)
    (tools : Script.Toolchain)
    (config : Config) :
    diagnostics tools config package =
      (runChecks Layout.rootChecks package ++
        Script.diagnostics tools config.interpreters package ++
        runChecks Layout.referenceChecks package ++
        Frontmatter.diagnostics document.header ++
        Body.diagnostics document.body).filter fun d => config.checks.isOn d.category.group := by
  have hroot : AllOf .layout (runChecks Layout.rootChecks package) :=
    allOf_runChecks (by decide) package
  have hscripts := allOf_scripts tools config.interpreters package
  have hreferences : AllOf .layout (runChecks Layout.referenceChecks package) :=
    allOf_runChecks (by decide) package
  have hheader := allOf_frontmatter document.header
  have hbody : AllOf .body (Body.diagnostics document.body) :=
    allOf_runChecks (by decide) document.body
  simp only [List.filter_append, ← whenOn_eq_filter hroot, ← whenOn_eq_filter hscripts,
    ← whenOn_eq_filter hreferences, ← whenOn_eq_filter hheader, ← whenOn_eq_filter hbody]
  simp only [diagnostics, hdocument, structural, textual, Groups.isOn, List.append_assoc]

/--
With a document, the diagnostics are those with every group on, filtered by the groups that are on;
the strictness plays no part.  So two settings agree on the diagnostics of every group on which they
agree.  Without a document there is one diagnostic, whatever is on.
-/
theorem diagnostics_filtered :
    (∀ (tools : Script.Toolchain) (config other : Config) (package : Package),
      package.document.isSome = true →
      config.interpreters = other.interpreters →
      (other.checks = Groups.all →
        diagnostics tools config package =
          (diagnostics tools other package).filter fun d =>
            config.checks.isOn d.category.group) ∧
      (∀ keep : RuleGroup → Bool,
        (∀ group, keep group = true → config.checks.isOn group = other.checks.isOn group) →
        ((diagnostics tools config package).filter fun d => keep d.category.group) =
          (diagnostics tools other package).filter fun d => keep d.category.group)) ∧
    (∀ (tools : Script.Toolchain) (config : Config) (package : Package),
      package.document = none →
      diagnostics tools config package = [Layout.entryMissingDiagnostic] ∧
      Layout.entryMissingDiagnostic.ruleId = "structure/entry-missing") := by
  refine ⟨?_, ?_⟩
  · intro tools config other package hsome hinterpreters
    obtain ⟨document, hdocument⟩ := Option.isSome_iff_exists.1 hsome
    rw [diagnostics_of_document hdocument, diagnostics_of_document hdocument, hinterpreters]
    refine ⟨?_, ?_⟩
    · intro hall
      rw [List.filter_filter]
      refine List.filter_congr fun d _ => ?_
      rw [hall, Groups.isOn_all, Bool.and_true]
    · intro keep hkeep
      rw [List.filter_filter, List.filter_filter]
      refine List.filter_congr fun d _ => ?_
      cases hd : keep d.category.group with
      | true => rw [hkeep _ hd]
      | false => rfl
  · intro tools config package hnone
    rw [diagnostics, hnone]
    exact ⟨rfl, rfl⟩

/-- A host on which no interpreter is installed. -/
def bareTools : Script.Toolchain where
  available _ := false
  launch _ _ := none

/-- A package that breaks a rule of every group. -/
def strayPackage : Package where
  root := "/stray"
  name := "stray"
  document := some (Document.ofText "---\nname: Claude\n---\nBody\n")
  files := [["README.md"], ["SKILL.md"], ["references", "a", "b", "c.md"], ["scripts", "run.py"]]
  topLevel := ["README.md", "SKILL.md", "references", "scripts"]
  exclusions := none

/-- With the scripts and the body off, the diagnostics of the other groups stay as they are. -/
theorem diagnostics_stray_package :
    (diagnostics bareTools { checks := { scripts := false, body := false } } strayPackage =
        (diagnostics bareTools { strict := { enabled := true } } strayPackage).filter fun d =>
          d.category.group = .layout ∨ d.category.group = .frontmatter) ∧
    ((diagnostics bareTools { checks := { scripts := false, body := false } } strayPackage).map
        (·.ruleId) =
      ["structure/forbidden-file", "structure/missing-exclusion-file", "structure/deep-nesting",
        "name/invalid-shape", "name/forbidden-word", "frontmatter/missing-description"]) ∧
    diagnostics bareTools { checks := { layout := false } } { strayPackage with document := none } =
      [Layout.entryMissingDiagnostic] := by
  obtain ⟨hfiltered, hmissing⟩ := diagnostics_filtered
  have hsome : strayPackage.document.isSome = true := rfl
  refine ⟨?_, by decide +kernel, (hmissing _ _ _ rfl).1⟩
  rw [(hfiltered bareTools { checks := { scripts := false, body := false } }
    { strict := { enabled := true } } strayPackage hsome rfl).1 rfl]
  refine List.filter_congr fun d _ => ?_
  cases d.category <;> rfl

end Groups

end Evaluation
end SkillAudit
