import SkillAudit.Proofs.Evaluation.Groups

/-!
# Files that make no difference to each other

Scripts and deep references are reported file by file.  So when some files are taken out of a
package, exactly the diagnostics of these rules about these files go, and the others stay as they
are and in their order.  The scripts share the list of the programs that are missing, which is found
out from all of them; what is said of one script depends on its own program only, so that the list
of the scripts that are left serves as well.

* `filter_filterMap`: results of a choice that tell where they come from are filtered like their
  origins.
* `scripts_withoutFiles`, `references_withoutFiles`: the two groups that look at the files.
* `filter_runChecks`: the other rules are about no single file.
* `diagnostics_withoutFiles`: the whole evaluation, and two packages that differ in some files.
-/

namespace SkillAudit

/-- The package without the files at some paths. -/
def Package.withoutFiles (package : Package) (paths : List String) : Package :=
  { package with files := package.files.filter fun file => Path.ofNames file ∉ paths }

namespace Evaluation

section Independence

/-- The rules that are broken by one file each. -/
def fileRules : List String :=
  ["scripts/syntax-error", "scripts/unchecked", "structure/deep-nesting"]

/-- A diagnostic of one of the rules on single files is about a file at one of some paths. -/
def IsAbout (paths : List String) (d : Diagnostic) : Prop :=
  d.ruleId ∈ fileRules ∧ ∃ path ∈ paths, d.file = some path

instance (paths : List String) (d : Diagnostic) : Decidable (IsAbout paths d) :=
  inferInstanceAs (Decidable (_ ∧ _))

/-- When each result tells whether its origin is kept, the results of the origins that are kept are
the results that are kept. -/
theorem filter_filterMap
    {α β : Type}
    {f : α → Option β}
    {keep : α → Bool}
    {keepResult : β → Bool}
    {origins : List α}
    (hkeep : ∀ a ∈ origins, ∀ b, f a = some b → keepResult b = keep a) :
    (origins.filterMap f).filter keepResult = (origins.filter keep).filterMap f := by
  induction origins with
  | nil =>
      rfl
  | cons a rest ih =>
      obtain ⟨hfirst, hrest⟩ := List.forall_mem_cons.1 hkeep
      have htail := ih hrest
      cases ha : f a with
      | none =>
          cases hkept : keep a with
          | true => simp [ha, hkept, htail]
          | false => simp [ha, hkept, htail]
      | some b =>
          have hresult := hfirst b ha
          cases hkept : keep a with
          | true => simp [ha, hkept, hresult, htail]
          | false => simp [ha, hkept, hresult, htail]

variable {package : Package}
variable {paths : List String}

/-- A diagnostic of a rule on single files is about these paths if its own file is at one. -/
theorem isAbout_iff
    {d : Diagnostic}
    {path : String}
    (hrule : d.ruleId ∈ fileRules)
    (hfile : d.file = some path) :
    IsAbout paths d ↔ path ∈ paths := by
  rw [IsAbout, hfile]
  constructor
  · rintro ⟨-, other, hother, hsame⟩
    rwa [Option.some.inj hsame]
  · intro hpath
    exact ⟨hrule, path, hpath, rfl⟩

/-- Of the diagnostics of the scripts those about the other scripts are left. -/
theorem scripts_withoutFiles
    (tools : Script.Toolchain)
    (interpreters : Interpreters) :
    Script.diagnostics tools interpreters (package.withoutFiles paths) =
      (Script.diagnostics tools interpreters package).filter fun d => ¬ IsAbout paths d := by
  have hfiles :
      (package.withoutFiles paths).filesDirectlyIn Contract.scriptsDirectory =
        (package.filesDirectlyIn Contract.scriptsDirectory).filter
          fun file => Path.ofNames file ∉ paths := by
    rw [Package.filesDirectlyIn, Package.filesDirectlyIn, Package.withoutFiles, List.filter_comm]
  rw [Script.diagnostics_eq_filterMap, Script.diagnostics_eq_filterMap, hfiles]
  refine (filter_filterMap ?_).symm
  intro file _ d hd
  have hfile := Script.file_eq_of_alone tools interpreters hd
  have hrule : d.ruleId ∈ fileRules := by
    have hrules : Script.unchecked.id ∈ fileRules ∧ Script.syntaxError.id ∈ fileRules := by
      decide
    cases (Script.alone_eq_some_iff tools interpreters).1 hd with
    | notInstalled => exact hrules.1
    | invalid => exact hrules.2
  simp only [isAbout_iff hrule hfile]

/-- Of the diagnostics of the references those about the other references are left. -/
theorem references_withoutFiles :
    runChecks Layout.referenceChecks (package.withoutFiles paths) =
      (runChecks Layout.referenceChecks package).filter fun d => ¬ IsAbout paths d := by
  have hfiles :
      (package.withoutFiles paths).filesUnder Contract.referencesDirectory =
        (package.filesUnder Contract.referencesDirectory).filter
          fun file => Path.ofNames file ∉ paths := by
    rw [Package.filesUnder, Package.filesUnder, Package.withoutFiles, List.filter_comm]
  simp only [Layout.referenceChecks, runChecks_cons, runChecks_nil, List.append_nil, Check.run,
    Layout.deepNesting, hfiles, List.map_map]
  rw [List.filter_map, List.filter_comm]
  have hrule : Layout.deepNesting.rule.id ∈ fileRules := by
    decide
  refine congrArg _ (List.filter_congr fun file _ => ?_)
  exact decide_eq_decide.2 (not_congr (isAbout_iff hrule rfl).symm)

/-- Diagnostics of rules on no single file all stay. -/
theorem filter_runChecks
    {α : Type}
    (checks : List (Check α))
    (hchecks : ∀ check ∈ checks, check.rule.id ∉ fileRules)
    (subject : α) :
    ((runChecks checks subject).filter fun d => ¬ IsAbout paths d) = runChecks checks subject := by
  rw [List.filter_eq_self]
  intro d hd
  obtain ⟨check, hcheck, violation, -, rfl⟩ := mem_runChecks.1 hd
  exact decide_eq_true fun habout => hchecks check hcheck habout.1

theorem filter_frontmatter
    (header : Option Header) :
    ((Frontmatter.diagnostics header).filter fun d => ¬ IsAbout paths d) =
      Frontmatter.diagnostics header := by
  cases header with
  | none =>
      have hrule : Frontmatter.noHeader.id ∉ fileRules := by decide
      rw [List.filter_eq_self]
      intro d hd
      rw [Frontmatter.diagnostics, List.mem_singleton] at hd
      exact decide_eq_true fun habout => hrule (by simpa [hd, Rule.diagnostic] using habout.1)
  | some header =>
      exact filter_runChecks Frontmatter.checks (by decide) header

/--
Without the files at some paths a package has the diagnostics that it has with them, but for those
of the rules on single files about one of these.  So two packages that differ in the files at these
paths only have the same diagnostics about everything else, in the same order.
-/
theorem diagnostics_withoutFiles
    (tools : Script.Toolchain)
    (config : Config)
    (package : Package)
    (paths : List String) :
    diagnostics tools config (package.withoutFiles paths) =
        (diagnostics tools config package).filter (fun d => ¬ IsAbout paths d) ∧
    (∀ other : Package, other.withoutFiles paths = package.withoutFiles paths →
      (diagnostics tools config other).filter (fun d => ¬ IsAbout paths d) =
        (diagnostics tools config package).filter fun d => ¬ IsAbout paths d) := by
  have hwithout : ∀ package : Package,
      diagnostics tools config (package.withoutFiles paths) =
        (diagnostics tools config package).filter fun d => ¬ IsAbout paths d := by
    intro package
    cases hdocument : package.document with
    | none =>
        have hkept : ¬ IsAbout paths Layout.entryMissingDiagnostic := by
          intro habout
          exact absurd habout.1 (by decide)
        have hsame : (package.withoutFiles paths).document = none := hdocument
        simp [diagnostics, hsame, hdocument, hkept]
    | some document =>
        have hsame : (package.withoutFiles paths).document = some document := hdocument
        have hroot :
            runChecks Layout.rootChecks (package.withoutFiles paths) =
              runChecks Layout.rootChecks package := by
          rfl
        rw [diagnostics_of_document hsame, diagnostics_of_document hdocument, List.filter_comm]
        simp only [List.filter_append, filter_runChecks Layout.rootChecks (by decide),
          filter_frontmatter, Body.diagnostics, filter_runChecks Body.checks (by decide)]
        rw [hroot, scripts_withoutFiles, references_withoutFiles]
  refine ⟨hwithout package, ?_⟩
  intro other hother
  rw [← hwithout other, ← hwithout package, hother]

end Independence

end Evaluation
end SkillAudit
