import Mathlib.Data.List.Nodup
import SkillAudit.Catalogue
import SkillAudit.Proofs.Evaluation.Groups

/-!
# Diagnostics in the order of the catalogue

The catalogue falls into sections: the two script rules are one, because they are evaluated together
file by file, and every other rule is one of its own.  The diagnostics of a package are blocks, one
for each section and in the order of the sections, some of them empty.  A block is of the rules of
its section, and it has more than one diagnostic only where these rules may be broken repeatedly.

* `Follows.append`, `follows_runChecks`: how the blocks of an evaluation come together.
* `follows_diagnostics`: the blocks of a whole evaluation.
* `Follows.pairwise`: from the blocks to any two diagnostics, by induction over the sections.
* `diagnostics_follow_catalogue`: what the catalogue says of each diagnostic, and the order.
-/

namespace SkillAudit

/-- A diagnostic carries what is fixed about a rule. -/
structure Diagnostic.IsOf (d : Diagnostic) (rule : Rule) : Prop where
  ruleId_eq : rule.id = d.ruleId
  severity_eq : rule.severity = d.severity
  category_eq : rule.category = d.category

theorem Rule.isOf_diagnostic
    (rule : Rule)
    (violation : Violation) :
    (rule.diagnostic violation).IsOf rule :=
  ⟨rfl, rfl, rfl⟩

namespace Catalogue

section Sections

/-- The rules that one package may break more than once. -/
def repeatable : List String :=
  ["structure/forbidden-file", "structure/missing-exclusion", "structure/deep-nesting",
    "scripts/syntax-error", "scripts/unchecked", "name/forbidden-word",
    "frontmatter/unknown-field"]

/-- The place of an identifier in the catalogue; the two script rules share one. -/
def place (id : String) : Nat :=
  (rules.map (·.id)).idxOf (if id = "scripts/unchecked" then "scripts/syntax-error" else id)

/-- Every rule as a section of its own. -/
def alone (rules : List Rule) : List (List Rule) :=
  rules.map fun rule => [rule]

/-- The rules that are evaluated together, in the order of the catalogue. -/
def sections : List (List Rule) :=
  alone [Layout.entryMissing] ++ alone (rulesOf Layout.rootChecks) ++
    [[Script.syntaxError, Script.unchecked]] ++ alone (rulesOf Layout.referenceChecks) ++
    alone [Frontmatter.noHeader] ++ alone (rulesOf Frontmatter.checks) ++
    alone (rulesOf Body.checks)

theorem flatten_sections :
    sections.flatten = rules := by
  rfl

theorem find?_of_mem
    {rule : Rule}
    (hrule : rule ∈ rules) :
    find? rule.id = some rule := by
  obtain ⟨found, hfound⟩ : ∃ found, find? rule.id = some found := by
    rw [← Option.isSome_iff_exists, find?, List.find?_isSome]
    exact ⟨rule, hrule, beq_self_eq_true rule.id⟩
  have hmem : found ∈ rules := List.mem_of_find?_eq_some hfound
  have hsame : found = rule :=
    List.inj_on_of_nodup_map nodup_ids hmem hrule (id_of_find? hfound)
  rw [hfound, hsame]

theorem places_sections :
    sections.map (fun rules => rules.map fun rule => place rule.id) =
      [[0], [1], [2], [3], [4, 4], [6], [7], [8], [9], [10], [11], [12], [13], [14], [15], [16],
        [17], [18], [19], [20], [21], [22], [23], [24], [25]] := by
  decide

/-- A later section is at later places. -/
theorem pairwise_place_sections :
    sections.Pairwise fun before behind =>
      ∀ a ∈ before, ∀ b ∈ behind, place a.id < place b.id := by
  have hplaces : (sections.map fun rules => rules.map fun rule => place rule.id).Pairwise
      fun before behind => ∀ m ∈ before, ∀ n ∈ behind, m < n := by
    rw [places_sections]
    decide
  rw [List.pairwise_map] at hplaces
  refine hplaces.imp ?_
  intro before behind h a ha b hb
  exact h _ (List.mem_map_of_mem ha) _ (List.mem_map_of_mem hb)

/-- The rules of one section are at one place. -/
theorem place_eq_of_mem_section
    {together : List Rule}
    {a b : Rule}
    (htogether : together ∈ sections)
    (ha : a ∈ together)
    (hb : b ∈ together) :
    place a.id = place b.id := by
  have hplaces : ∀ places ∈ sections.map fun rules => rules.map fun rule => place rule.id,
      ∀ m ∈ places, ∀ n ∈ places, m = n := by
    rw [places_sections]
    decide
  exact hplaces _ (List.mem_map_of_mem htogether) _ (List.mem_map_of_mem ha) _
    (List.mem_map_of_mem hb)

end Sections

section Blocks

/-- Diagnostics are one block for each section: a block is of the rules of its section, and it has
more than one diagnostic only if these rules may be broken repeatedly. -/
inductive Follows : List (List Rule) → List Diagnostic → Prop where
  | nil : Follows [] []
  | block
      {together : List Rule}
      {others : List (List Rule)}
      {block rest : List Diagnostic}
      (hrules : ∀ d ∈ block, ∃ rule ∈ together, d.IsOf rule)
      (honce : block.length ≤ 1 ∨ ∀ rule ∈ together, rule.id ∈ repeatable)
      (hrest : Follows others rest) :
      Follows (together :: others) (block ++ rest)

variable {before behind : List (List Rule)}
variable {xs ys : List Diagnostic}

theorem follows_nil
    (sections : List (List Rule)) :
    Follows sections [] := by
  induction sections with
  | nil =>
      exact .nil
  | cons together others ih =>
      have hempty : Follows (together :: others) ([] ++ []) :=
        .block (by simp) (Or.inl (Nat.zero_le 1)) ih
      exact hempty

theorem follows_block
    {together : List Rule}
    {block : List Diagnostic}
    (hrules : ∀ d ∈ block, ∃ rule ∈ together, d.IsOf rule)
    (honce : block.length ≤ 1 ∨ ∀ rule ∈ together, rule.id ∈ repeatable) :
    Follows [together] block := by
  rw [← List.append_nil block]
  exact .block hrules honce .nil

theorem Follows.append
    (hxs : Follows before xs)
    (hys : Follows behind ys) :
    Follows (before ++ behind) (xs ++ ys) := by
  induction hxs with
  | nil =>
      exact hys
  | block hrules honce _ ih =>
      rw [List.append_assoc]
      exact .block hrules honce ih

theorem Follows.whenOn
    (hxs : Follows before xs)
    (on : Bool) :
    Follows before (Evaluation.whenOn on xs) := by
  cases on with
  | true => exact hxs
  | false => exact follows_nil before

theorem follows_diagnostic
    (rule : Rule)
    (violation : Violation) :
    Follows (alone [rule]) [rule.diagnostic violation] := by
  refine follows_block ?_ (Or.inl (Nat.le_refl 1))
  intro d hd
  rw [List.mem_singleton] at hd
  exact ⟨rule, List.mem_singleton_self rule, hd ▸ rule.isOf_diagnostic violation⟩

/-- A check finds one violation at most, unless its rule may be broken repeatedly. -/
def IsCounted {α : Type} (check : Check α) : Prop :=
  check.rule.id ∈ repeatable ∨ ∀ subject, (check.violations subject).length ≤ 1

theorem follows_runChecks
    {α : Type}
    {checks : List (Check α)}
    (hchecks : ∀ check ∈ checks, IsCounted check)
    (subject : α) :
    Follows (alone (rulesOf checks)) (runChecks checks subject) := by
  induction checks with
  | nil =>
      exact .nil
  | cons check checks ih =>
      rw [List.forall_mem_cons] at hchecks
      rw [runChecks_cons]
      refine .block ?_ ?_ (ih hchecks.2)
      · intro d hd
        obtain ⟨violation, -, rfl⟩ := List.mem_map.1 hd
        exact ⟨check.rule, List.mem_singleton_self _, check.rule.isOf_diagnostic violation⟩
      · rcases hchecks.1 with hrepeatable | honce
        · exact Or.inr fun rule hrule => List.mem_singleton.1 hrule ▸ hrepeatable
        · exact Or.inl (by simpa [Check.run] using honce subject)

theorem Follows.exists_rule
    (hxs : Follows before xs)
    {d : Diagnostic}
    (hd : d ∈ xs) :
    ∃ rule ∈ before.flatten, d.IsOf rule := by
  induction hxs with
  | nil =>
      cases hd
  | block hrules _ _ ih =>
      rw [List.flatten_cons]
      rcases List.mem_append.1 hd with hd | hd
      · obtain ⟨rule, hrule, hof⟩ := hrules d hd
        exact ⟨rule, List.mem_append_left _ hrule, hof⟩
      · obtain ⟨rule, hrule, hof⟩ := ih hd
        exact ⟨rule, List.mem_append_right _ hrule, hof⟩

/-- What holds between the rules of two sections, and between the rules of one section that may be
broken repeatedly, holds between any two diagnostics. -/
theorem Follows.pairwise
    {R : String → String → Prop}
    (hwithin :
      ∀ together ∈ before,
        (∀ rule ∈ together, rule.id ∈ repeatable) →
          ∀ a ∈ together, ∀ b ∈ together, R a.id b.id)
    (hacross :
      before.Pairwise fun front back => ∀ a ∈ front, ∀ b ∈ back, R a.id b.id)
    (hxs : Follows before xs) :
    xs.Pairwise fun a b => R a.ruleId b.ruleId := by
  induction hxs with
  | nil =>
      exact List.Pairwise.nil
  | @block together others block rest hrules honce hrest ih =>
      rw [List.forall_mem_cons] at hwithin
      rw [List.pairwise_cons] at hacross
      rw [List.pairwise_append]
      refine ⟨?_, ih hwithin.2 hacross.2, ?_⟩
      · rcases honce with hlength | hrepeatable
        · match block, hlength with
          | [], _ => exact List.Pairwise.nil
          | [d], _ => exact List.pairwise_singleton _ d
        · refine List.pairwise_of_forall_mem_list ?_
          intro d hd e he
          obtain ⟨a, ha, hda⟩ := hrules d hd
          obtain ⟨b, hb, heb⟩ := hrules e he
          rw [← hda.ruleId_eq, ← heb.ruleId_eq]
          exact hwithin.1 hrepeatable a ha b hb
      · intro d hd e he
        obtain ⟨a, ha, hda⟩ := hrules d hd
        obtain ⟨b, hb, heb⟩ := hrest.exists_rule he
        obtain ⟨later, hlater, hb⟩ := List.mem_flatten.1 hb
        rw [← hda.ruleId_eq, ← heb.ruleId_eq]
        exact hacross.1 later hlater a ha b hb

theorem mem_repeatable_of_one_lt_count
    {ids : List String}
    {id : String}
    (hids : ids.Pairwise fun a b => a = b → a ∈ repeatable)
    (hcount : 1 < ids.count id) :
    id ∈ repeatable := by
  induction ids with
  | nil =>
      cases hcount
  | cons first rest ih =>
      rw [List.pairwise_cons] at hids
      by_cases hfirst : first = id
      · rw [hfirst, List.count_cons_self] at hcount
        have hmem : id ∈ rest := List.count_pos_iff.1 (by omega)
        exact hfirst ▸ hids.1 id hmem hfirst
      · rw [List.count_cons_of_ne hfirst] at hcount
        exact ih hids.2 hcount

end Blocks

end Catalogue

namespace Evaluation

open Catalogue

section Blocks

theorem length_inEntryIf_le
    (condition : Bool)
    (message : String) :
    (Violation.inEntryIf condition message).length ≤ 1 := by
  cases condition with
  | true => exact Nat.le_refl 1
  | false => exact Nat.zero_le 1

theorem length_onText_le
    {test : String → List Violation}
    (htest : ∀ content, (test content).length ≤ 1)
    (text : Option String) :
    (Frontmatter.onText text test).length ≤ 1 := by
  cases text with
  | none => exact Nat.zero_le 1
  | some content => exact htest content

/-- A check that tests one condition on an optional text finds one violation at most. -/
theorem isCounted_onText
    (rule : Rule)
    (text : Header → Option String)
    (found : String → Bool)
    (message : String → String) :
    IsCounted
      { rule
        violations := fun header =>
          Frontmatter.onText (text header) fun content =>
            Violation.inEntryIf (found content) (message content) } :=
  Or.inr fun header => length_onText_le (fun _ => length_inEntryIf_le _ _) (text header)

theorem isCounted_rootChecks :
    ∀ check ∈ Layout.rootChecks, IsCounted check := by
  simp only [Layout.rootChecks, List.forall_mem_cons]
  refine ⟨Or.inl (by decide), Or.inr ?_, Or.inl (by decide), by simp⟩
  intro package
  simp only [Layout.missingExclusionFile]
  split
  · exact Nat.zero_le 1
  · exact Nat.le_refl 1

theorem isCounted_referenceChecks :
    ∀ check ∈ Layout.referenceChecks, IsCounted check := by
  simp only [Layout.referenceChecks, List.forall_mem_cons]
  exact ⟨Or.inl (by decide), by simp⟩

theorem isCounted_headerChecks :
    ∀ check ∈ Frontmatter.checks, IsCounted check := by
  simp only [Frontmatter.checks, List.forall_mem_cons]
  refine ⟨Or.inr fun _ => length_inEntryIf_le _ _, isCounted_onText _ _ _ _,
    isCounted_onText _ _ _ _, Or.inl (by decide), isCounted_onText _ _ _ _,
    Or.inr fun _ => length_inEntryIf_le _ _, isCounted_onText _ _ _ _, isCounted_onText _ _ _ _,
    isCounted_onText _ _ _ _, Or.inr ?_, isCounted_onText _ _ _ _, isCounted_onText _ _ _ _,
    isCounted_onText _ _ _ _, Or.inl (by decide), by simp⟩
  -- The written value is tested only where there is a value.
  intro header
  exact length_onText_le (fun _ => length_onText_le (fun _ => length_inEntryIf_le _ _) _) _

theorem isCounted_bodyChecks :
    ∀ check ∈ Body.checks, IsCounted check := by
  simp only [Body.checks, List.forall_mem_cons]
  exact ⟨Or.inr fun _ => length_inEntryIf_le _ _, Or.inr fun _ => length_inEntryIf_le _ _,
    Or.inr fun _ => length_inEntryIf_le _ _, Or.inr fun _ => length_inEntryIf_le _ _, by simp⟩

theorem follows_scripts
    (tools : Script.Toolchain)
    (interpreters : Interpreters)
    (package : Package) :
    Follows [[Script.syntaxError, Script.unchecked]]
      (Script.diagnostics tools interpreters package) := by
  refine follows_block ?_ (Or.inr (by decide))
  intro d hd
  obtain ⟨rule, hrule, violation, rfl⟩ := Script.rule_of_mem_diagnostics tools interpreters hd
  exact ⟨rule, hrule, rule.isOf_diagnostic violation⟩

theorem follows_header
    (header : Option Header) :
    Follows (alone [Frontmatter.noHeader] ++ alone (rulesOf Frontmatter.checks))
      (Frontmatter.diagnostics header) := by
  cases header with
  | none =>
      have hnone := (follows_diagnostic Frontmatter.noHeader
        (.inEntry "no header block found (SKILL.md must start with ---)")).append
          (follows_nil (alone (rulesOf Frontmatter.checks)))
      rw [List.append_nil] at hnone
      exact hnone
  | some header =>
      have hsome := (follows_nil (alone [Frontmatter.noHeader])).append
        (follows_runChecks isCounted_headerChecks header)
      rw [List.nil_append] at hsome
      exact hsome

/-- The diagnostics of a package are one block for each section of the catalogue. -/
theorem follows_diagnostics
    (tools : Script.Toolchain)
    (config : Config)
    (package : Package) :
    Follows sections (diagnostics tools config package) := by
  cases hdocument : package.document with
  | none =>
      have hmissing := (follows_diagnostic Layout.entryMissing
        (.inEntry ("entry file not found: " ++ Contract.entryFile))).append
          (follows_nil sections.tail)
      rw [diagnostics, hdocument]
      exact hmissing
  | some document =>
      have hroot := (follows_runChecks isCounted_rootChecks package).whenOn config.checks.layout
      have hscripts := (follows_scripts tools config.interpreters package).whenOn
        config.checks.scripts
      have hreferences := (follows_runChecks isCounted_referenceChecks package).whenOn
        config.checks.layout
      have hheader := (follows_header document.header).whenOn config.checks.frontmatter
      have hbody := (follows_runChecks isCounted_bodyChecks document.body).whenOn
        config.checks.body
      have hall := (follows_nil (alone [Layout.entryMissing])).append
        (((hroot.append hscripts).append hreferences).append (hheader.append hbody))
      rw [diagnostics, hdocument]
      exact hall

end Blocks

section Order

/-- Each diagnostic of a package is of a rule of the catalogue. -/
theorem exists_rule_of_mem_diagnostics
    {tools : Script.Toolchain}
    {config : Config}
    {package : Package}
    {d : Diagnostic}
    (hd : d ∈ diagnostics tools config package) :
    ∃ rule ∈ rules, d.IsOf rule := by
  rw [← flatten_sections]
  exact (follows_diagnostics tools config package).exists_rule hd

/--
Each diagnostic of a package is of a rule that the catalogue finds by its identifier, with the
severity and the category of that rule.  The places of the diagnostics in the catalogue never
decrease, and only the rules that may be broken repeatedly have more than one diagnostic.
-/
theorem diagnostics_follow_catalogue
    (tools : Script.Toolchain)
    (config : Config)
    (package : Package) :
    (∀ d ∈ diagnostics tools config package,
      ∃ rule, Catalogue.find? d.ruleId = some rule ∧
        rule.id = d.ruleId ∧ rule.severity = d.severity ∧ rule.category = d.category) ∧
    (diagnostics tools config package).Pairwise (fun a b => place a.ruleId ≤ place b.ruleId) ∧
    ∀ id, 1 < ((diagnostics tools config package).map (·.ruleId)).count id → id ∈ repeatable := by
  have hfollows := follows_diagnostics tools config package
  have hpairs : (diagnostics tools config package).Pairwise fun a b =>
      place a.ruleId ≤ place b.ruleId ∧ (a.ruleId = b.ruleId → a.ruleId ∈ repeatable) := by
    refine hfollows.pairwise
      (R := fun a b => place a ≤ place b ∧ (a = b → a ∈ repeatable)) ?_ ?_
    · intro together htogether hrepeatable a ha b hb
      exact ⟨(place_eq_of_mem_section htogether ha hb).le, fun _ => hrepeatable a ha⟩
    · refine pairwise_place_sections.imp ?_
      intro front back hplace a ha b hb
      have hlt := hplace a ha b hb
      exact ⟨hlt.le, fun hsame => absurd (hsame ▸ hlt) (Nat.lt_irrefl _)⟩
  refine ⟨?_, hpairs.imp And.left, ?_⟩
  · intro d hd
    obtain ⟨rule, hrule, hof⟩ := exists_rule_of_mem_diagnostics hd
    refine ⟨rule, ?_, hof.ruleId_eq, hof.severity_eq, hof.category_eq⟩
    rw [← hof.ruleId_eq]
    exact find?_of_mem hrule
  · intro id hcount
    exact mem_repeatable_of_one_lt_count (List.pairwise_map.2 (hpairs.imp And.right)) hcount

/-- A package with two scripts and an entry document without a header. -/
def scriptPackage : Package where
  root := "/tools"
  name := "tools"
  document := some (Document.ofText "# Tools\n\nOne\nTwo\nThree\n")
  files := [["SKILL.md"], ["scripts", "a.py"], ["scripts", "b.sh"]]
  topLevel := ["SKILL.md", "scripts"]
  exclusions := some ".venv\n"

/-- Without interpreters both scripts are reported, as warnings and at the place of the scripts. -/
theorem diagnostics_script_package :
    ((diagnostics bareTools {} scriptPackage).map (·.ruleId) =
      ["structure/missing-exclusion", "scripts/unchecked", "scripts/unchecked",
        "frontmatter/no-header"]) ∧
    (∀ d, (diagnostics bareTools {} scriptPackage)[1]? = some d →
      ∃ rule, Catalogue.find? d.ruleId = some rule ∧
        rule.id = d.ruleId ∧ rule.severity = d.severity ∧ rule.category = d.category) ∧
    "scripts/unchecked" ∈ repeatable := by
  obtain ⟨hrule, -, hcount⟩ := diagnostics_follow_catalogue bareTools {} scriptPackage
  have hids : (diagnostics bareTools {} scriptPackage).map (·.ruleId) =
      ["structure/missing-exclusion", "scripts/unchecked", "scripts/unchecked",
        "frontmatter/no-header"] := by
    rw [diagnostics, scriptPackage, structural, Script.diagnostics_eq_filterMap]
    decide +kernel
  refine ⟨hids, fun d hd => hrule d (List.mem_of_getElem? hd), hcount _ ?_⟩
  rw [hids]
  decide

end Order

end Evaluation
end SkillAudit
