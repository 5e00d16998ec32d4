import SkillAudit.Proofs.Evaluation.Origins
import SkillAudit.Proofs.Package.Entries

/-!
# Where diagnostics are

A diagnostic that names a file names an entry of the package: a regular file that was met, by its
path from the root of the package, or an entry of the root, by its name.  The one exception is the
diagnostic on a missing entry document.

* `file_of_mem_frontmatter`, `file_of_mem_body`: the header and the body are in the entry document.
* `holds_of_origin`: one case for each origin.
* `diagnostics_located`: every diagnostic of a package that is read.
-/

namespace SkillAudit

/-- A relative path: that of a file of the package, or the name of an entry of its root. -/
def Package.Holds (package : Package) (shown : String) : Prop :=
  Path.isAbsolute shown = false ∧
    ((∃ file ∈ package.files, shown = Path.ofNames file) ∨ shown ∈ package.topLevel)

namespace Evaluation

section Locations

/-- Diagnostics of checks whose violations are all in the entry document are there. -/
theorem file_of_mem_runChecks
    {α : Type}
    {checks : List (Check α)}
    {subject : α}
    (hchecks : ∀ check ∈ checks, ∀ v ∈ check.violations subject,
      v.file = some Contract.entryFile) :
    ∀ d ∈ runChecks checks subject, d.file = some Contract.entryFile :=
  forall_mem_runChecks hchecks fun _ _ hfile => hfile

/-- A diagnostic of the header is in the entry document. -/
theorem file_of_mem_frontmatter
    {header : Option Header} :
    ∀ d ∈ Frontmatter.diagnostics header, d.file = some Contract.entryFile := by
  cases header with
  | none =>
      intro d hd
      rw [List.mem_singleton.1 hd]
      rfl
  | some header =>
      have hone : ∀ (condition : Bool) (message : String),
          ∀ v ∈ Violation.inEntryIf condition message, v.file = some Contract.entryFile :=
        fun _ _ => forall_mem_inEntryIf rfl
      have htext : ∀ (text : Option String) (condition : String → Bool)
          (message : String → String),
          ∀ v ∈ Frontmatter.onText text fun content =>
            Violation.inEntryIf (condition content) (message content),
          v.file = some Contract.entryFile :=
        fun _ _ _ => Frontmatter.forall_mem_onText fun _ _ => hone _ _
      refine file_of_mem_runChecks ?_
      simp only [Frontmatter.checks, List.forall_mem_cons]
      refine ⟨hone _ _, htext _ _ _, htext _ _ _, ?_, htext _ _ _, hone _ _, htext _ _ _,
        htext _ _ _, htext _ _ _, ?_, htext _ _ _, htext _ _ _, htext _ _ _, ?_, by simp⟩
      · refine Frontmatter.forall_mem_onText fun name _ => ?_
        exact List.forall_mem_map.2 fun _ _ => rfl
      · refine Frontmatter.forall_mem_onText fun _ _ => ?_
        exact htext _ _ _
      · exact List.forall_mem_map.2 fun _ _ => rfl

/-- A diagnostic of the body is in the entry document. -/
theorem file_of_mem_body
    {body : String} :
    ∀ d ∈ Body.diagnostics body, d.file = some Contract.entryFile := by
  refine file_of_mem_runChecks ?_
  simp only [Body.checks, List.forall_mem_cons]
  exact ⟨forall_mem_inEntryIf rfl, forall_mem_inEntryIf rfl, forall_mem_inEntryIf rfl,
    forall_mem_inEntryIf rfl, by simp⟩

variable {fs : FileSystem}
variable {path : String}
variable {entries : List (String × Node)}
variable {package : Package}

/-- The package holds its files by their paths. -/
theorem holds_of_mem_files
    {file : List String}
    (hroot : fs.node path = .ok (.directory entries))
    (hnames : ∀ entry ∈ entries, Path.IsEntryName entry.1)
    (hload : Package.load fs path = .ok package)
    (hfile : file ∈ package.files) :
    package.Holds (Path.ofNames file) := by
  obtain ⟨entry, hentry, below, rfl⟩ := Package.exists_cons_of_mem_files hroot hload hfile
  exact ⟨Path.isAbsolute_ofNames (hnames entry hentry) below, Or.inl ⟨_, hfile, rfl⟩⟩

/-- A diagnostic names what the package holds, whatever it comes from. -/
theorem holds_of_origin
    {tools : Script.Toolchain}
    {config : Config}
    {d : Diagnostic}
    {shown : String}
    (hroot : fs.node path = .ok (.directory entries))
    (hnames : ∀ entry ∈ entries, Path.IsEntryName entry.1)
    (hload : Package.load fs path = .ok package)
    (horigin : Origin tools config package d)
    (hd : d.ruleId ≠ "structure/entry-missing")
    (hshown : d.file = some shown) :
    package.Holds shown := by
  -- The header and the body name the entry document, which is a name of the root.
  have hentry : package.document.isSome = true → package.Holds Contract.entryFile :=
    fun hdocument =>
      ⟨by decide, Or.inr (Package.entryFile_mem_topLevel hroot hload hdocument)⟩
  cases horigin with
  | noDocument hdocument =>
      exact absurd rfl hd
  | forbiddenFile name hname hforbidden =>
      obtain rfl : name = shown := Option.some.inj hshown
      have hrelative : ∀ name ∈ Contract.forbiddenFiles, Path.isAbsolute name = false := by
        decide
      exact ⟨hrelative name hforbidden, Or.inr hname⟩
  | missingExclusionFile hexclusions =>
      cases hshown
  | missingExclusion pattern hexclusions hpattern =>
      obtain rfl : Contract.exclusionFile = shown := Option.some.inj hshown
      exact ⟨by decide, Or.inr (Package.exclusionFile_mem_topLevel hroot hload hexclusions)⟩
  | script file hfile hsaid =>
      have hnamed : d.file = some (Path.ofNames file) := by
        cases hsaid with
        | notInstalled => rfl
        | invalid => rfl
      obtain rfl : Path.ofNames file = shown := Option.some.inj (hnamed.symm.trans hshown)
      exact holds_of_mem_files hroot hnames hload (List.mem_filter.1 hfile).1
  | deepNesting file hfile hdeep =>
      obtain rfl : Path.ofNames file = shown := Option.some.inj hshown
      exact holds_of_mem_files hroot hnames hload (List.mem_filter.1 hfile).1
  | header document hdocument hmem =>
      obtain rfl : Contract.entryFile = shown :=
        Option.some.inj ((file_of_mem_frontmatter d hmem).symm.trans hshown)
      exact hentry (by rw [hdocument]; rfl)
  | body document hdocument hmem =>
      obtain rfl : Contract.entryFile = shown :=
        Option.some.inj ((file_of_mem_body d hmem).symm.trans hshown)
      exact hentry (by rw [hdocument]; rfl)

/--
A directory with a readable entry document, or without one, is read as a package that holds whatever
its diagnostics name, but for the diagnostic on a missing entry document.  The names of the
documents that are there are names of the root; a document may be a link there.
-/
theorem diagnostics_located
    (hroot : fs.node path = .ok (.directory entries))
    (hnames : ∀ entry ∈ entries, Path.IsEntryName entry.1)
    (hentry : ∀ file, fs.node (Path.join path Contract.entryFile) = .ok (.file file) →
      file.readable = true) :
    ∃ package, Package.load fs path = .ok package ∧
      (∀ (tools : Script.Toolchain) (config : Config),
        ∀ d ∈ diagnostics tools config package, d.ruleId ≠ "structure/entry-missing" →
          ∀ shown, d.file = some shown → package.Holds shown) ∧
      (package.document.isSome = true → "SKILL.md" ∈ package.topLevel) ∧
      (package.exclusions.isSome = true → ".gitignore" ∈ package.topLevel) := by
  obtain ⟨document, hdocument⟩ := Package.readDocument_of_readable hentry
  have hload := Package.load_eq_ok_iff.2 ⟨document, hdocument, rfl⟩
  refine ⟨_, hload, ?_, Package.entryFile_mem_topLevel hroot hload,
    Package.exclusionFile_mem_topLevel hroot hload⟩
  intro tools config d hmem hd shown hshown
  exact holds_of_origin hroot hnames hload (origin_of_mem_diagnostics hmem) hd hshown

/-- The entries of a package whose entry document is a link, with a reference that lies too deep. -/
def linkedEntries : List (String × Node) :=
  [(".gitignore", .file { bytes := [] }),
    ("SKILL.md", .link "../q/SKILL.md"),
    ("references",
      .directory [("a", .directory [("b", .directory [("c.md", .file { bytes := [] })])])])]

def linkedSystem : FileSystem where
  root :=
    .directory [("p", .directory linkedEntries),
      ("q", .directory [("SKILL.md", .file { bytes := [] })])]
  workingDirectory := []
  ordered := by
    simp only [linkedEntries, Node.Ordered, Node.OrderedEntries]
    decide

theorem node_linkedSystem :
    linkedSystem.node "/p" = .ok (.directory linkedEntries) ∧
    linkedSystem.node "/p/SKILL.md" = .ok (.file { bytes := [] }) := by
  have hsteps : FileSystem.stepsOf "/p" = ["p"] ∧
      FileSystem.stepsOf "/p/SKILL.md" = ["p", "SKILL.md"] ∧
      FileSystem.stepsOf "../q/SKILL.md" = ["..", "q", "SKILL.md"] := by
    decide
  have habsolute : Path.isAbsolute "/p" = true ∧ Path.isAbsolute "/p/SKILL.md" = true ∧
      Path.isAbsolute "../q/SKILL.md" = false := by
    decide
  have hshort : ∀ name ∈ ["p", "q", "SKILL.md"],
      ¬ FileSystem.nameLimit < name.utf8ByteSize := by
    decide
  simp only [FileSystem.node, FileSystem.trail]
  rw [FileSystem.land_of_fits (by decide) (by decide), FileSystem.land_of_fits (by decide)
    (by decide), hsteps.1, hsteps.2.1]
  simp [FileSystem.follow, FileSystem.nodeAt, linkedSystem, linkedEntries, Node.find?,
    FileSystem.linkLimit, habsolute, hsteps, hshort, Except.map]

/-- The link is a name of the root, and what is said of the reference is in the package. -/
theorem diagnostics_located_linked :
    ∃ package, Package.load linkedSystem "/p" = .ok package ∧
      "SKILL.md" ∈ package.topLevel ∧
      (∃ d ∈ diagnostics bareTools {} package, d.file = some "references/a/b/c.md") ∧
      ∀ d ∈ diagnostics bareTools {} package, d.ruleId ≠ "structure/entry-missing" →
        ∀ shown, d.file = some shown → package.Holds shown := by
  have hroot := node_linkedSystem.1
  have hfile : linkedSystem.node (Path.join "/p" Contract.entryFile) =
      .ok (.file { bytes := [] }) := by
    have hjoin : Path.join "/p" Contract.entryFile = "/p/SKILL.md" := by
      decide
    rw [hjoin]
    exact node_linkedSystem.2
  have hreadable : ∀ file,
      linkedSystem.node (Path.join "/p" Contract.entryFile) = .ok (.file file) →
      file.readable = true := by
    intro file hnode
    rw [hfile] at hnode
    cases hnode
    rfl
  obtain ⟨package, hload, hlocated, htop, -⟩ := diagnostics_located hroot (by decide) hreadable
  obtain ⟨document, hread, hpackage⟩ := Package.load_eq_ok_iff.1 hload
  have hdocument : document = some (Document.ofText (Text.Utf8.decodeLenient [])) := by
    simp only [Package.readDocument, FileSystem.isFile, FileSystem.readBytes, hfile,
      if_true] at hread
    exact (Except.ok.inj hread).symm
  have hsome : package.document = some (Document.ofText (Text.Utf8.decodeLenient [])) := by
    rw [hpackage]
    exact hdocument
  have hfiles : package.files = [[".gitignore"], ["references", "a", "b", "c.md"]] := by
    have hwalk : (Package.visitsBelow [] (.directory linkedEntries)).filterMap Package.Visit.file? =
        [[".gitignore"], ["references", "a", "b", "c.md"]] := by
      decide
    rw [hpackage, ← hwalk, Package.visitsAt_of_directory hroot]
  have hunder : ["references", "a", "b", "c.md"] ∈
      package.filesUnder Contract.referencesDirectory := by
    rw [Package.mem_filesUnder, hfiles]
    decide
  have hmem := @mem_diagnostics_of_deep bareTools {} package _ _ hsome rfl hunder (by decide)
  have hshown : some (Path.ofNames ["references", "a", "b", "c.md"]) =
      some "references/a/b/c.md" := by
    decide
  exact ⟨package, hload, htop (by rw [hsome]; rfl), ⟨_, hmem, hshown⟩, hlocated bareTools {}⟩

end Locations

end Evaluation
end SkillAudit
