import SkillAudit.Proofs.Evaluation.Groups

/-!
# Where a diagnostic comes from

Each diagnostic of an evaluation has one of a few origins: an entry or a missing entry of the root,
a script, a reference, the header or the body.  What holds of every diagnostic is shown for each
origin once; for the rules on the header and on the body it is shown for the violations that they
find.

* `origin_of_mem_diagnostics`: the origins of the diagnostics of a package.
* `forall_mem_onText`, `forall_mem_inEntryIf`, `forall_mem_runChecks`: what holds of all violations
  of a check holds of its diagnostics.
-/

namespace SkillAudit

section Violations

variable {P : Violation → Prop}

/-- What holds of the violation that a condition gives holds of all that it gives. -/
theorem forall_mem_inEntryIf
    {condition : Bool}
    {message : String}
    (h : P (.inEntry message)) :
    ∀ v ∈ Violation.inEntryIf condition message, P v := by
  cases condition with
  | true => simpa [Violation.inEntryIf] using h
  | false => simp [Violation.inEntryIf]

/-- What holds of the violations of each text holds of those of an optional text. -/
theorem Frontmatter.forall_mem_onText
    {text : Option String}
    {test : String → List Violation}
    (h : ∀ content, text = some content → ∀ v ∈ test content, P v) :
    ∀ v ∈ onText text test, P v := by
  cases text with
  | none => simp
  | some content => exact h content rfl

/-- What holds of the violations of each check holds of the diagnostics of all checks. -/
theorem forall_mem_runChecks
    {α : Type}
    {Q : Diagnostic → Prop}
    {checks : List (Check α)}
    {subject : α}
    (hviolations : ∀ check ∈ checks, ∀ v ∈ check.violations subject, P v)
    (hdiagnostic : ∀ (rule : Rule) (v : Violation), P v → Q (rule.diagnostic v)) :
    ∀ d ∈ runChecks checks subject, Q d := by
  intro d hd
  obtain ⟨check, hcheck, v, hv, rfl⟩ := mem_runChecks.1 hd
  exact hdiagnostic check.rule v (hviolations check hcheck v hv)

end Violations

namespace Evaluation

section Origins

variable (tools : Script.Toolchain)
variable (config : Config)
variable (package : Package)

/-- What a diagnostic of a package comes from. -/
inductive Origin : Diagnostic → Prop
  | noDocument
      (hdocument : package.document = none) :
      Origin Layout.entryMissingDiagnostic
  | forbiddenFile
      (name : String)
      (hname : name ∈ package.topLevel)
      (hforbidden : name ∈ Contract.forbiddenFiles) :
      Origin (Layout.forbiddenFile.rule.diagnostic
        { message := "forbidden file: " ++ name ++ " (skills should not include auxiliary docs)"
          file := some name })
  | missingExclusionFile
      (hexclusions : package.exclusions = none) :
      Origin (Layout.missingExclusionFile.rule.diagnostic
        { message :=
            "missing exclusion file: no .gitignore found " ++
              "(recommend excluding .venv/, data/, __pycache__/)" })
  | missingExclusion
      (pattern : String)
      (hexclusions : package.exclusions.isSome = true)
      (hpattern : pattern ∈ Contract.requiredExclusions) :
      Origin (Layout.missingExclusion.rule.diagnostic
        { message := ".gitignore missing '" ++ pattern ++ "' exclusion"
          file := some Contract.exclusionFile })
  | script
      {d : Diagnostic}
      (file : List String)
      (hfile : file ∈ package.filesDirectlyIn Contract.scriptsDirectory)
      (hsaid : Script.Says tools config.interpreters package.root file d) :
      Origin d
  | deepNesting
      (file : List String)
      (hfile : file ∈ package.filesUnder Contract.referencesDirectory)
      (hdeep : Contract.maxReferenceDepth < file.length) :
      Origin (Layout.deepNesting.rule.diagnostic
        { message := "deep nesting: " ++ Path.ofNames file ++ " (keep references one level deep)"
          file := some (Path.ofNames file) })
  | header
      {d : Diagnostic}
      (document : Document)
      (hdocument : package.document = some document)
      (hd : d ∈ Frontmatter.diagnostics document.header) :
      Origin d
  | body
      {d : Diagnostic}
      (document : Document)
      (hdocument : package.document = some document)
      (hd : d ∈ Body.diagnostics document.body) :
      Origin d

variable {tools config package}
variable {d : Diagnostic}

theorem origin_of_mem_rootChecks
    (hd : d ∈ runChecks Layout.rootChecks package) :
    Origin tools config package d := by
  obtain ⟨check, hcheck, v, hv, rfl⟩ := mem_runChecks.1 hd
  simp only [Layout.rootChecks, List.mem_cons, List.not_mem_nil, or_false] at hcheck
  rcases hcheck with rfl | rfl | rfl
  · obtain ⟨name, hname, rfl⟩ := List.mem_map.1 hv
    obtain ⟨htop, hforbidden⟩ := List.mem_filter.1 hname
    exact .forbiddenFile name htop (List.contains_iff_mem.1 hforbidden)
  · rw [Layout.missingExclusionFile] at hv
    dsimp only at hv
    split at hv
    · cases hv
    · next hnone =>
        rw [List.mem_singleton.1 hv]
        exact .missingExclusionFile (by simpa using hnone)
  · rw [Layout.missingExclusion] at hv
    dsimp only at hv
    split at hv
    · cases hv
    · next text hexclusions =>
        obtain ⟨pattern, hpattern, rfl⟩ := List.mem_map.1 hv
        exact .missingExclusion pattern (by rw [hexclusions]; rfl) (List.mem_filter.1 hpattern).1

theorem origin_of_mem_scripts
    (hd : d ∈ Script.diagnostics tools config.interpreters package) :
    Origin tools config package d := by
  rw [Script.diagnostics_eq_filterMap] at hd
  obtain ⟨file, hfile, hsaid⟩ := List.mem_filterMap.1 hd
  exact .script file hfile ((Script.alone_eq_some_iff tools config.interpreters).1 hsaid)

theorem origin_of_mem_referenceChecks
    (hd : d ∈ runChecks Layout.referenceChecks package) :
    Origin tools config package d := by
  obtain ⟨check, hcheck, v, hv, rfl⟩ := mem_runChecks.1 hd
  obtain rfl := List.mem_singleton.1 hcheck
  obtain ⟨file, hfile, rfl⟩ := List.mem_map.1 hv
  obtain ⟨hunder, hdeep⟩ := List.mem_filter.1 hfile
  exact .deepNesting file hunder (of_decide_eq_true hdeep)

/-- A reference with too many names on the way to it is reported. -/
theorem mem_diagnostics_of_deep
    {document : Document}
    {file : List String}
    (hdocument : package.document = some document)
    (hon : config.checks.layout = true)
    (hunder : file ∈ package.filesUnder Contract.referencesDirectory)
    (hdeep : Contract.maxReferenceDepth < file.length) :
    Layout.deepNesting.rule.diagnostic
        { message := "deep nesting: " ++ Path.ofNames file ++ " (keep references one level deep)"
          file := some (Path.ofNames file) } ∈
      diagnostics tools config package := by
  rw [diagnostics_of_document hdocument]
  refine List.mem_filter.2 ⟨?_, hon⟩
  simp only [List.mem_append]
  refine Or.inl (Or.inl (Or.inr ?_))
  refine mem_runChecks.2 ⟨Layout.deepNesting, List.mem_singleton_self _, _, ?_, rfl⟩
  exact List.mem_map.2 ⟨file, List.mem_filter.2 ⟨hunder, decide_eq_true hdeep⟩, rfl⟩

/-- Every diagnostic has an origin. -/
theorem origin_of_mem_diagnostics
    (hd : d ∈ diagnostics tools config package) :
    Origin tools config package d := by
  cases hdocument : package.document with
  | none =>
      rw [diagnostics, hdocument, List.mem_singleton] at hd
      rw [hd]
      exact .noDocument hdocument
  | some document =>
      rw [diagnostics_of_document hdocument] at hd
      have hparts := (List.mem_filter.1 hd).1
      simp only [List.mem_append] at hparts
      rcases hparts with (((hroot | hscript) | hreference) | hheader) | hbody
      · exact origin_of_mem_rootChecks hroot
      · exact origin_of_mem_scripts hscript
      · exact origin_of_mem_referenceChecks hreference
      · exact .header document hdocument hheader
      · exact .body document hdocument hbody

end Origins

end Evaluation
end SkillAudit
