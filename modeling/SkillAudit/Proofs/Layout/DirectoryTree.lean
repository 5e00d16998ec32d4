import Mathlib.Data.List.Infix
import Mathlib.Data.List.Sort
import SkillAudit.Proofs.Evaluation.Groups
import SkillAudit.Proofs.Package.Entries

/-!
# What the layout checks find in a directory tree

A package is read from a directory, and the layout checks look at what was read.  Here the two are
put together: what the checks say is told from the entries of the directory, from the exclusion file
that is found by its path, and from the regular files that are reached through directories.

None of the names that the checks look for is a name under which directories are left out, so
nothing that they look for is lost on the way.  The orders are those in which the way through the
package meets the entries.

* `run_exclusionChecks`: the two checks on the exclusion file give one of two lists.
* `mem_forbidden_iff`, `mem_deep_iff`: what the selections of the other two checks hold.
* `layout_finds_exactly`: all that the layout checks say of a directory.
-/

namespace SkillAudit
namespace Layout

section Findings

/-- What is said of an auxiliary document at the root. -/
def forbiddenDiagnostic (name : String) : Diagnostic where
  ruleId := "structure/forbidden-file"
  severity := .error
  category := .layout
  message := "forbidden file: " ++ name ++ " (skills should not include auxiliary docs)"
  file := some name

/-- What is said where there is no exclusion file. -/
def noExclusionFileDiagnostic : Diagnostic where
  ruleId := "structure/missing-exclusion-file"
  severity := .warning
  category := .layout
  message :=
    "missing exclusion file: no .gitignore found " ++
      "(recommend excluding .venv/, data/, __pycache__/)"
  file := none

/-- What is said of a pattern that the exclusion file lacks. -/
def missingPatternDiagnostic (pattern : String) : Diagnostic where
  ruleId := "structure/missing-exclusion"
  severity := .warning
  category := .layout
  message := ".gitignore missing '" ++ pattern ++ "' exclusion"
  file := some ".gitignore"

/-- What is said of a reference that lies too deep. -/
def deepDiagnostic (file : List String) : Diagnostic where
  ruleId := "structure/deep-nesting"
  severity := .warning
  category := .layout
  message := "deep nesting: " ++ "/".intercalate file ++ " (keep references one level deep)"
  file := some ("/".intercalate file)

/-- The required patterns that do not occur in a text. -/
def missingPatterns (text : String) : List String :=
  Contract.requiredExclusions.filter fun pattern => ¬ pattern.toList <:+: text.toList

/-- What is said of the exclusion file of a directory. -/
inductive SaidOfExclusions (fs : FileSystem) (path : String) : List Diagnostic → Prop
  | noFile
      (hnode : ∀ file, fs.node (Path.join path ".gitignore") ≠ .ok (.file file)) :
      SaidOfExclusions fs path [noExclusionFileDiagnostic]
  | file
      (file : File)
      (hnode : fs.node (Path.join path ".gitignore") = .ok (.file file)) :
      SaidOfExclusions fs path
        ((missingPatterns (Text.Utf8.decodeLenient file.bytes)).map missingPatternDiagnostic)

/-- A regular file below the references, reached through directories, that lies too deep. -/
structure IsDeepReference (entries : List (String × Node)) (file : List String) : Prop where
  regular : ∃ content, (Node.directory entries).descend? file = some (.file content)
  reference : ∃ below, file = "references" :: below
  deep : 3 < file.length

end Findings

section Checks

variable (package : Package)

theorem run_forbiddenFile :
    forbiddenFile.run package =
      (package.topLevel.filter fun name => Contract.forbiddenFiles.contains name).map
        forbiddenDiagnostic := by
  rw [Check.run, forbiddenFile, List.map_map]
  rfl

theorem run_deepNesting :
    deepNesting.run package =
      ((package.filesUnder Contract.referencesDirectory).filter fun file =>
        Contract.maxReferenceDepth < file.length).map deepDiagnostic := by
  rw [Check.run, deepNesting, List.map_map]
  rfl

/-- Either the file is missed, or the patterns that it lacks. -/
theorem run_exclusionChecks :
    missingExclusionFile.run package ++ missingExclusion.run package =
      match package.exclusions with
      | none => [noExclusionFileDiagnostic]
      | some text => (missingPatterns text).map missingPatternDiagnostic := by
  simp only [Check.run, missingExclusionFile, missingExclusion, missingPatterns]
  cases package.exclusions with
  | none => rfl
  | some text =>
      have hpatterns : ∀ pattern : String,
          (!Text.occursIn pattern.toList text.toList) =
            decide (¬ pattern.toList <:+: text.toList) := by
        intro pattern
        rw [decide_not, ← Bool.decide_coe (Text.occursIn pattern.toList text.toList)]
        simp only [Text.occursIn_iff]
      simp only [hpatterns, List.map_map]
      rfl

/-- With the layout checks alone, the exclusion file comes between the root and the references. -/
theorem structural_of_layout
    {config : Config}
    (hlayout : config.checks.layout = true)
    (hscripts : config.checks.scripts = false)
    (tools : Script.Toolchain) :
    Evaluation.structural tools config package =
      forbiddenFile.run package ++
        (missingExclusionFile.run package ++ missingExclusion.run package) ++
        deepNesting.run package := by
  simp [Evaluation.structural, Evaluation.whenOn, hlayout, hscripts, rootChecks, referenceChecks]

end Checks

section Selections

variable {fs : FileSystem}
variable {path : String}
variable {entries : List (String × Node)}

/-- A file is below the references if its path starts with their name. -/
theorem references_prefix_iff
    {file : List String} :
    Path.parts Contract.referencesDirectory <+: Package.fileParts file ↔
      ∃ below, file = "references" :: below := by
  have hparts : Path.parts Contract.referencesDirectory = [.name "references"] := by
    decide
  rw [hparts, Package.fileParts]
  cases file with
  | nil => simp
  | cons first rest => simp [List.cons_prefix_cons, eq_comm]

/-- What stands under a name of the root is left out only if the name is one of those. -/
theorem not_isLeftOut
    {name : String}
    (hname : name ∉ Contract.skippedDirectories)
    (below : List String) :
    ¬ Package.IsLeftOut entries (name :: below) := by
  rintro ⟨other, inner, hhead, -, hskipped⟩
  obtain rfl : name = other := Option.some.inj hhead
  exact hname hskipped

/-- The forbidden names that are met are those of entries of the root, whatever the entries are. -/
theorem mem_forbidden_iff
    (hroot : fs.node path = .ok (.directory entries))
    {name : String} :
    name ∈ ((Package.visitsAt fs path).filterMap Package.Visit.rootName?).filter
        (fun name => Contract.forbiddenFiles.contains name) ↔
      (∃ node, (name, node) ∈ entries) ∧ name ∈ Contract.forbiddenFiles := by
  rw [List.mem_filter, Package.mem_rootNames_visitsAt hroot, List.contains_iff_mem]
  have hkept : ∀ name ∈ Contract.forbiddenFiles, name ∉ Contract.skippedDirectories := by
    decide
  constructor
  · rintro ⟨⟨hentry, -⟩, hforbidden⟩
    exact ⟨hentry, hforbidden⟩
  · rintro ⟨hentry, hforbidden⟩
    exact ⟨⟨hentry, not_isLeftOut (hkept name hforbidden) []⟩, hforbidden⟩

/-- The references that are met and lie too deep are all that there are. -/
theorem mem_deep_iff
    (hroot : fs.node path = .ok (.directory entries))
    {file : List String} :
    (file ∈ (Package.visitsAt fs path).filterMap Package.Visit.file? ∧
        Path.parts Contract.referencesDirectory <+: Package.fileParts file) ∧
        Contract.maxReferenceDepth < file.length ↔
      IsDeepReference entries file := by
  rw [Package.mem_files_visitsAt hroot, references_prefix_iff]
  constructor
  · rintro ⟨⟨⟨hregular, -⟩, hreference⟩, hdeep⟩
    exact ⟨hregular, hreference, hdeep⟩
  · rintro ⟨hregular, ⟨below, rfl⟩, hdeep⟩
    exact ⟨⟨⟨hregular, not_isLeftOut (by decide) below⟩, below, rfl⟩, hdeep⟩

/-- What the checks on the exclusion file say of a directory whose exclusion file can be read. -/
theorem saidOfExclusions_run
    (package : Package)
    (hpackage : package.exclusions =
      Package.readExclusions fs (Path.join path Contract.exclusionFile))
    (hreadable : ∀ file, fs.node (Path.join path ".gitignore") = .ok (.file file) →
      file.readable = true) :
    SaidOfExclusions fs path
      (missingExclusionFile.run package ++ missingExclusion.run package) := by
  rw [run_exclusionChecks, hpackage]
  by_cases hfile : ∃ file, fs.node (Path.join path ".gitignore") = .ok (.file file)
  · obtain ⟨file, hnode⟩ := hfile
    have hread : Package.readExclusions fs (Path.join path Contract.exclusionFile) =
        some (Text.Utf8.decodeLenient file.bytes) := by
      simp [Package.readExclusions, FileSystem.isFile, FileSystem.readBytes,
        Contract.exclusionFile, hnode, hreadable file hnode]
    rw [hread]
    exact .file file hnode
  · have hread : Package.readExclusions fs (Path.join path Contract.exclusionFile) = none := by
      have hnone : ¬ fs.isFile (Path.join path Contract.exclusionFile) = true := by
        rw [FileSystem.isFile_iff]
        exact hfile
      rw [Package.readExclusions, if_neg hnone]
    rw [hread]
    exact .noFile fun file hnode => hfile ⟨file, hnode⟩

end Selections

section Tree

variable {fs : FileSystem}
variable {path : String}
variable {entries : List (String × Node)}

/-- A document that can be read is there when it was read. -/
theorem readDocument_of_file
    {file : File}
    (hnode : fs.node path = .ok (.file file))
    (hreadable : file.readable = true) :
    ∃ document, Package.readDocument fs path = .ok (some document) := by
  simp [Package.readDocument, FileSystem.isFile, FileSystem.readBytes, hnode, hreadable]

/--
All that the layout checks, with the scripts left aside, say of a directory with an entry document,
where this and the exclusion file can be read.  First come the names of entries of the directory
that are forbidden, be they of files, of directories or of links, in increasing order; then what is
said of the exclusion file; then the regular files below the references that lie too deep, in the
order of their paths compared name by name.
-/
theorem layout_finds_exactly
    {document : File}
    {config : Config}
    (hroot : fs.node path = .ok (.directory entries))
    (hentry : fs.node (Path.join path "SKILL.md") = .ok (.file document))
    (hdocument : document.readable = true)
    (hexclusions : ∀ file, fs.node (Path.join path ".gitignore") = .ok (.file file) →
      file.readable = true)
    (hlayout : config.checks.layout = true)
    (hscripts : config.checks.scripts = false)
    (tools : Script.Toolchain) :
    ∃ package : Package, Package.load fs path = .ok package ∧ package.document.isSome = true ∧
      ∃ (forbidden : List String) (onExclusions : List Diagnostic) (deep : List (List String)),
      Evaluation.structural tools config package =
        forbidden.map forbiddenDiagnostic ++ onExclusions ++ deep.map deepDiagnostic ∧
      forbidden.Pairwise (· < ·) ∧
      (∀ name, name ∈ forbidden ↔
        (∃ node, (name, node) ∈ entries) ∧ name ∈ Contract.forbiddenFiles) ∧
      SaidOfExclusions fs path onExclusions ∧
      deep.Pairwise (· < ·) ∧
      ∀ file, file ∈ deep ↔ IsDeepReference entries file := by
  obtain ⟨text, htext⟩ := readDocument_of_file hentry hdocument
  have hload := Package.load_eq_ok_iff.2 ⟨some text, htext, rfl⟩
  refine ⟨_, hload, rfl, ?_⟩
  rw [structural_of_layout _ hlayout hscripts, run_forbiddenFile, run_deepNesting]
  refine ⟨_, _, _, rfl, ?_, fun name => mem_forbidden_iff hroot,
    saidOfExclusions_run _ rfl hexclusions, ?_, fun file => ?_⟩
  · exact (Package.pairwise_rootNames_visitsAt fs path).filter _
  · exact ((Package.pairwise_files_visitsAt fs path).filter _).filter _
  · rw [List.mem_filter, Package.mem_filesUnder, decide_eq_true_iff]
    exact mem_deep_iff hroot

/-- The entries of a package with a link and a directory that have forbidden names, another
forbidden name further below, and files that lie deep below the references and elsewhere. -/
def crowdedEntries : List (String × Node) :=
  [(".gitignore", .file { bytes := Text.Utf8.encode ".venv\n" }),
    ("CHANGELOG.md", .link "nowhere"),
    ("README.md", .directory []),
    ("SKILL.md", .file { bytes := [] }),
    ("assets", .directory [("SETUP.md", .file { bytes := [] })]),
    ("references",
      .directory [("a", .directory [("b", .directory [("c.md", .file { bytes := [] })]),
        ("c.md", .file { bytes := [] })])]),
    ("references-old",
      .directory [("a", .directory [("b", .directory [("c.md", .file { bytes := [] })])])])]

def crowdedSystem : FileSystem where
  root := .directory [("p", .directory crowdedEntries)]
  workingDirectory := []
  ordered := by
    simp only [crowdedEntries, Node.Ordered, Node.OrderedEntries]
    decide

theorem trail_crowdedSystem :
    crowdedSystem.trail "/p" = .ok [("p", .directory crowdedEntries)] := by
  have hjoin : "/p" = Path.join "/" "p" := by
    decide
  rw [hjoin]
  exact FileSystem.trail_join (FileSystem.trail_root rfl) rfl (by decide) (by decide) (by decide)
    rfl (fun _ h => nomatch h)

theorem node_crowdedSystem :
    crowdedSystem.node "/p" = .ok (.directory crowdedEntries) :=
  FileSystem.node_eq_ok_iff.2 ⟨_, trail_crowdedSystem, rfl⟩

/-- The two files that are looked for by their paths. -/
theorem node_join_crowdedSystem
    {name : String}
    {file : File}
    (hname : name = "SKILL.md" ∨ name = ".gitignore")
    (hfind : Node.find? name crowdedEntries = some (.file file)) :
    crowdedSystem.node (Path.join "/p" name) = .ok (.file file) := by
  have hentry : Path.IsEntryName name ∧ name.utf8ByteSize ≤ FileSystem.nameLimit ∧
      FileSystem.Fits (Path.join "/p" name) := by
    rcases hname with rfl | rfl <;> decide
  exact FileSystem.node_eq_ok_iff.2 ⟨_, FileSystem.trail_join trail_crowdedSystem rfl hentry.1
    hentry.2.1 hentry.2.2 hfind (fun _ h => nomatch h), rfl⟩

/-- One reference lies too deep there. -/
theorem isDeepReference_crowdedEntries
    (file : List String) :
    IsDeepReference crowdedEntries file ↔ file ∈ [["references", "a", "b", "c.md"]] := by
  have hwalk : ((Package.visitsBelow [] (.directory crowdedEntries)).filterMap
      Package.Visit.file?).filter (fun file => (Path.parts Contract.referencesDirectory).isPrefixOf
        (Package.fileParts file) && Contract.maxReferenceDepth < file.length) =
      [["references", "a", "b", "c.md"]] := by
    decide
  rw [← mem_deep_iff node_crowdedSystem, Package.visitsAt_of_directory node_crowdedSystem,
    ← hwalk, List.mem_filter, Bool.and_eq_true, List.isPrefixOf_iff_prefix, decide_eq_true_iff,
    and_assoc]

/-- What is said of that package: nothing of what stands elsewhere. -/
theorem layout_finds_exactly_crowded :
    ∃ package, Package.load crowdedSystem "/p" = .ok package ∧
      Evaluation.structural Evaluation.bareTools { checks := { scripts := false } } package =
        [forbiddenDiagnostic "CHANGELOG.md", forbiddenDiagnostic "README.md",
          missingPatternDiagnostic "__pycache__",
          deepDiagnostic ["references", "a", "b", "c.md"]] := by
  have hentry := node_join_crowdedSystem (Or.inl rfl) rfl
  have hexclusions := node_join_crowdedSystem (Or.inr rfl) rfl
  have hreadable : ∀ file, crowdedSystem.node (Path.join "/p" ".gitignore") = .ok (.file file) →
      file.readable = true := by
    intro file hfile
    rw [hexclusions] at hfile
    cases hfile
    rfl
  obtain ⟨package, hload, -, forbidden, onExclusions, deep, hsaid, hascending, hforbidden, hfound,
    hdeepAscending, hdeep⟩ :=
    @layout_finds_exactly crowdedSystem "/p" crowdedEntries _ { checks := { scripts := false } }
      node_crowdedSystem hentry rfl hreadable rfl rfl Evaluation.bareTools
  have hnames : forbidden = ["CHANGELOG.md", "README.md"] := by
    have hroots : (crowdedEntries.map Prod.fst).filter (· ∈ Contract.forbiddenFiles) =
        ["CHANGELOG.md", "README.md"] := by
      decide
    refine hascending.eq_of_mem_iff (by decide) fun name => ?_
    simp [hforbidden, ← hroots]
  have hpatterns : onExclusions = [missingPatternDiagnostic "__pycache__"] := by
    cases hfound with
    | noFile hnone => exact absurd hexclusions (hnone _)
    | file file hnode =>
        rw [hexclusions] at hnode
        cases hnode
        decide +kernel
  have hfiles : deep = [["references", "a", "b", "c.md"]] :=
    hdeepAscending.eq_of_mem_iff (by decide) fun file =>
      (hdeep file).trans (isDeepReference_crowdedEntries file)
  rw [hnames, hpatterns, hfiles] at hsaid
  exact ⟨package, hload, hsaid⟩

end Tree

end Layout
end SkillAudit
