import SkillAudit.Proofs.Evaluation.Locations
import SkillAudit.Proofs.Frontmatter.Contract
import SkillAudit.Proofs.Frontmatter.Quotes
import SkillAudit.Proofs.Report.PrettyLines
import SkillAudit.Proofs.Report.Verdict

/-!
# Messages and the lines of the report

A message is put together from fixed words, numbers, keys and values of the header, what an
interpreter says, names of files and names of programs.  A header is read line by line, and of what
an interpreter says one line is kept.  The names of files and of programs are taken as they are, so
they alone can bring a line feed into a message.

* `isOneLine_of_invalid`, `isOneLine_of_mem_frontmatter`: what is read line by line.
* `namesOneLine_of_isOneLine`, `isOneLine_of_namesOneLine`: one case for each origin.
* `messages_oneLine`: the messages of a package that is read, and the lines of its report.
-/

namespace SkillAudit

section Sources

theorem Header.mem_of_field?
    {header : Header}
    {key : String}
    {field : Field}
    (h : header.field? key = some field) :
    (key, field) ∈ header.fields := by
  obtain ⟨front, back, hsplit, -⟩ := List.lookup_eq_some_iff.1 h
  rw [hsplit]
  exact List.mem_append_right _ List.mem_cons_self

/-- The keys and the values of a document are on one line. -/
theorem Frontmatter.isOneLine_of_mem_fields
    {text : String}
    {fields : Header}
    (hheader : (Document.ofText text).header = some fields)
    {entry : String × Field}
    (hentry : entry ∈ fields.fields) :
    Text.IsOneLine entry.1 ∧ Text.IsOneLine entry.2.value := by
  obtain ⟨inside, rest, -, rfl, -⟩ := ofText_header_eq_some_iff.1 hheader
  obtain ⟨hwritable, hfield⟩ := isWritable_of_mem_header hentry
  refine ⟨hwritable.key_inline.oneLine, ?_⟩
  rw [hfield, Text.IsOneLine, Field.ofRaw, String.toList_ofList]
  exact fun hmem => hwritable.raw_inline.oneLine (mem_of_mem_unquote hmem)

theorem Script.isOneLine_firstLine
    (text : String) :
    Text.IsOneLine (firstLine text) := by
  rw [Text.IsOneLine, firstLine, String.toList_ofList]
  cases hfind : ((Text.lines text.toList).map Text.trim).find? (!·.isEmpty) with
  | none =>
      exact List.not_mem_nil
  | some line =>
      obtain ⟨whole, hwhole, rfl⟩ := List.mem_map.1 (List.mem_of_find?_eq_some hfind)
      exact fun hmem => Text.not_mem_of_mem_lines hwhole (Text.mem_of_mem_trim hmem)

/-- What an interpreter says of a script is cut down to one line. -/
theorem Script.isOneLine_of_invalid
    {tools : Toolchain}
    {language : Language}
    {program file shown detail : String}
    (h : checkFile tools language program file shown = .invalid detail) :
    Text.IsOneLine detail := by
  unfold checkFile at h
  split at h
  · next run hrun =>
      cases language with
      | python =>
          simp only [Language.judge, Language.judgePython] at h
          split_ifs at h
          rw [← Outcome.invalid.inj h]
          exact isOneLine_firstLine _
      | shell =>
          simp only [Language.judge, Language.judgeShell] at h
          split_ifs at h
          have hfirst := isOneLine_firstLine (Text.Utf8.decodeLenient run.errors)
          split at h
          · next rest hrest =>
              rw [← Outcome.invalid.inj h, Text.IsOneLine, String.toList_ofList]
              rw [Text.IsOneLine, ← List.isPrefixOf?_eq_some_iff_append_eq.1 hrest] at hfirst
              exact fun hmem => hfirst (List.mem_append_right _ hmem)
          · rw [← Outcome.invalid.inj h]
            exact hfirst
  · cases h

end Sources

namespace Evaluation

section Messages

/-- Diagnostics of checks whose violations have messages on one line have such messages. -/
theorem isOneLine_of_mem_runChecks
    {α : Type}
    {checks : List (Check α)}
    {subject : α}
    (hchecks : ∀ check ∈ checks, ∀ v ∈ check.violations subject, Text.IsOneLine v.message) :
    ∀ d ∈ runChecks checks subject, Text.IsOneLine d.message :=
  forall_mem_runChecks hchecks fun _ _ hmessage => hmessage

/-- Fixed words without a line feed, where they are given, are a message on one line. -/
theorem isOneLine_inEntryIf
    {condition : Bool}
    {letters : List Char}
    (hletters : '\n' ∉ letters) :
    ∀ v ∈ Violation.inEntryIf condition (String.ofList letters), Text.IsOneLine v.message :=
  forall_mem_inEntryIf (Text.isOneLine_ofList hletters)

/-- Messages on a text are on one line if the one that is made for it is. -/
theorem isOneLine_onText
    {text : Option String}
    {condition : String → Bool}
    {message : String → String}
    (hmessage : ∀ content, text = some content → Text.IsOneLine (message content)) :
    ∀ v ∈ Frontmatter.onText text fun content =>
        Violation.inEntryIf (condition content) (message content),
      Text.IsOneLine v.message :=
  Frontmatter.forall_mem_onText fun content hcontent =>
    forall_mem_inEntryIf (hmessage content hcontent)

/-- The messages of the rules on a header whose keys and values are on one line. -/
theorem isOneLine_of_mem_checks
    {fields : Header}
    (hfields : ∀ entry ∈ fields.fields,
      Text.IsOneLine entry.1 ∧ Text.IsOneLine entry.2.value) :
    ∀ d ∈ runChecks Frontmatter.checks fields, Text.IsOneLine d.message := by
  have hname : ∀ name, Frontmatter.name? fields = some name → Text.IsOneLine name := by
    intro name hsome
    obtain ⟨-, field, hfield, rfl⟩ := Frontmatter.nonEmpty?_eq_some_iff.1 hsome
    exact (hfields _ (Header.mem_of_field? hfield)).2
  have hfixed : ∀ {text : Option String} {condition : String → Bool} {letters : List Char},
      '\n' ∉ letters →
      ∀ v ∈ Frontmatter.onText text fun content =>
        Violation.inEntryIf (condition content) (String.ofList letters),
      Text.IsOneLine v.message :=
    fun hletters => isOneLine_onText fun _ _ => Text.isOneLine_ofList hletters
  refine isOneLine_of_mem_runChecks ?_
  simp only [Frontmatter.checks, List.forall_mem_cons]
  -- One part for each rule, in order; those that stay open put something into their message.
  refine ⟨isOneLine_inEntryIf (by decide), isOneLine_onText ?_, isOneLine_onText ?_, ?_,
    hfixed (by decide), isOneLine_inEntryIf (by decide), isOneLine_onText ?_, isOneLine_onText ?_,
    hfixed (by decide), ?_, hfixed (by decide), hfixed (by decide), hfixed (by decide), ?_,
    by simp⟩
  · exact fun _ _ => Text.isOneLine_counted (by decide) (by decide) (by decide) _ _
  · exact fun name hsome => Text.isOneLine_between (by decide) (by decide) (hname name hsome)
  · have hwords : ∀ word ∈ Contract.forbiddenNameWords, Text.IsOneLine word := by
      decide
    refine Frontmatter.forall_mem_onText fun name _ =>
      List.forall_mem_map.2 fun word hword => ?_
    have hfound := (List.mem_filter.1 hword).1
    exact Text.isOneLine_between (by decide) (by decide) (hwords word hfound)
  · exact fun _ _ => Text.isOneLine_counted (by decide) (by decide) (by decide) _ _
  · exact fun _ _ => Text.isOneLine_counted (by decide) (by decide) (by decide) _ _
  · refine Frontmatter.forall_mem_onText fun _ _ => isOneLine_onText fun _ _ => ?_
    exact Text.isOneLine_append.2
      ⟨Text.isOneLine_ofList (by decide), Text.isOneLine_ofList (by decide)⟩
  · refine List.forall_mem_map.2 fun key hkey => ?_
    obtain ⟨entry, hentry, rfl⟩ := List.mem_map.1 (List.mem_filter.1 hkey).1
    exact Text.isOneLine_between (by decide) (by decide) (hfields entry hentry).1

/-- The messages on the header of a document are on one line. -/
theorem isOneLine_of_mem_frontmatter
    (text : String) :
    ∀ d ∈ Frontmatter.diagnostics (Document.ofText text).header, Text.IsOneLine d.message := by
  cases hheader : (Document.ofText text).header with
  | none =>
      intro d hd
      rw [List.mem_singleton.1 hd]
      exact Text.isOneLine_ofList (by decide)
  | some fields =>
      exact isOneLine_of_mem_checks fun _ => Frontmatter.isOneLine_of_mem_fields hheader

/-- The messages on a body are on one line. -/
theorem isOneLine_of_mem_body
    (body : String) :
    ∀ d ∈ Body.diagnostics body, Text.IsOneLine d.message := by
  refine isOneLine_of_mem_runChecks ?_
  simp only [Body.checks, List.forall_mem_cons]
  refine ⟨forall_mem_inEntryIf ?_, forall_mem_inEntryIf ?_, forall_mem_inEntryIf ?_,
    forall_mem_inEntryIf ?_, by simp⟩
  · exact Text.isOneLine_counted (by decide) (by decide) (by decide) _ _
  · exact Text.isOneLine_counted (by decide) (by decide) (by decide) _ _
  · exact Text.isOneLine_between (by decide) (by decide) (Text.isOneLine_toString _)
  · exact Text.isOneLine_ofList (by decide)

/-- A path of names is on one line if each of them is. -/
theorem isOneLine_ofNames
    (names : List String) :
    Text.IsOneLine (Path.ofNames names) ↔ ∀ name ∈ names, Text.IsOneLine name := by
  induction names with
  | nil =>
      simp [Path.ofNames, Text.IsOneLine]
  | cons name rest ih =>
      cases rest with
      | nil =>
          simp [Path.ofNames]
      | cons next more =>
          have hslash : Text.IsOneLine "/" := by
            decide
          rw [Path.ofNames_cons_cons, Text.isOneLine_append, Text.isOneLine_append, ih]
          simp only [List.forall_mem_cons, hslash, and_true]

/-- A file directly in the script directory is shown on one line if its name is on one line. -/
theorem isOneLine_script_iff
    {package : Package}
    {file : List String}
    (hfile : file ∈ package.filesDirectlyIn Contract.scriptsDirectory) :
    Text.IsOneLine (Path.ofNames file) ↔ Text.IsOneLine (file.getLastD "") := by
  rw [Script.filesDirectlyIn_scriptsDirectory] at hfile
  have hdirectory : file.dropLast = ["scripts"] :=
    of_decide_eq_true (List.mem_filter.1 hfile).2
  obtain ⟨name, rfl⟩ : ∃ name, file = ["scripts", name] := by
    have hne : file ≠ [] := by
      rintro rfl
      cases hdirectory
    have hsplit := List.dropLast_append_getLast hne
    rw [hdirectory] at hsplit
    exact ⟨_, hsplit.symm⟩
  have hscripts : Text.IsOneLine "scripts" := by
    decide
  simp [isOneLine_ofNames, hscripts]

variable {tools : Script.Toolchain}
variable {config : Config}
variable {package : Package}
variable {d : Diagnostic}

/-- What a diagnostic names, the file that it is about and a program that is not installed, is on
one line. -/
structure NamesOneLine (config : Config) (d : Diagnostic) : Prop where
  file : ∀ shown, d.file = some shown → Text.IsOneLine shown
  program : ∀ name language,
    d.message = "script not checked: " ++ name ++ " (" ++ config.interpreters.program language ++
      " not found on PATH)" →
    Text.IsOneLine (config.interpreters.program language)

/-- What is said of a script is about its own path, and its name stands in the message. -/
theorem isOneLine_of_said
    {file : List String}
    (hfile : file ∈ package.filesDirectlyIn Contract.scriptsDirectory)
    (hsaid : Script.Says tools config.interpreters package.root file d) :
    d.file = some (Path.ofNames file) ∧
      (Text.IsOneLine d.message → Text.IsOneLine (Path.ofNames file)) := by
  refine ⟨Script.file_eq_of_alone tools config.interpreters
    ((Script.alone_eq_some_iff tools config.interpreters).2 hsaid), ?_⟩
  rw [isOneLine_script_iff hfile]
  intro hmessage
  cases hsaid with
  | notInstalled language hscript hmissing =>
      simp only [Text.isOneLine_append] at hmessage
      exact hmessage.1.1.1.2
  | invalid language detail hscript hinstalled houtcome =>
      simp only [Text.isOneLine_append] at hmessage
      exact hmessage.1.1.2

/-- A diagnostic is about a file with a fixed name on one line, or about a file of the package,
whose name is then in the message. -/
theorem isOneLine_or_of_file
    {shown : String}
    (horigin : Origin tools config package d)
    (hshown : d.file = some shown) :
    Text.IsOneLine shown ∨
      (∃ file ∈ package.files, shown = Path.ofNames file) ∧
        (Text.IsOneLine d.message → Text.IsOneLine shown) := by
  have hentry : Text.IsOneLine Contract.entryFile := by
    decide
  cases horigin with
  | noDocument hnone =>
      rw [← Option.some.inj hshown]
      exact Or.inl hentry
  | forbiddenFile name hname hforbidden =>
      have hnames : ∀ name ∈ Contract.forbiddenFiles, Text.IsOneLine name := by
        decide
      rw [← Option.some.inj hshown]
      exact Or.inl (hnames name hforbidden)
  | missingExclusionFile hexclusions =>
      cases hshown
  | missingExclusion pattern hexclusions hpattern =>
      rw [← Option.some.inj hshown]
      exact Or.inl (by decide)
  | script file hfile hsaid =>
      obtain ⟨hown, hnamed⟩ := isOneLine_of_said hfile hsaid
      rw [← Option.some.inj (hown.symm.trans hshown)]
      exact Or.inr ⟨⟨file, (List.mem_filter.1 hfile).1, rfl⟩, hnamed⟩
  | deepNesting file hfile hdeep =>
      rw [← Option.some.inj hshown]
      exact Or.inr ⟨⟨file, (List.mem_filter.1 hfile).1, rfl⟩,
        fun hmessage => (Text.isOneLine_append.1 (Text.isOneLine_append.1 hmessage).1).2⟩
  | header document hsome hmem =>
      rw [← Option.some.inj ((file_of_mem_frontmatter d hmem).symm.trans hshown)]
      exact Or.inl hentry
  | body document hsome hmem =>
      rw [← Option.some.inj ((file_of_mem_body d hmem).symm.trans hshown)]
      exact Or.inl hentry

/-- A message on one line names what is on one line: the names stand in it. -/
theorem namesOneLine_of_isOneLine
    (horigin : Origin tools config package d)
    (hmessage : Text.IsOneLine d.message) :
    NamesOneLine config d := by
  refine ⟨?_, ?_⟩
  · intro shown hshown
    rcases isOneLine_or_of_file horigin hshown with hfixed | ⟨-, hnamed⟩
    · exact hfixed
    · exact hnamed hmessage
  · intro name language hsaid
    rw [hsaid] at hmessage
    simp only [Text.isOneLine_append] at hmessage
    exact hmessage.1.2

/-- A message that names what is on one line is on one line: the rest of it is. -/
theorem isOneLine_of_namesOneLine
    (hdocument : ∀ document, package.document = some document →
      ∃ text, document = Document.ofText text)
    (horigin : Origin tools config package d)
    (hnames : NamesOneLine config d) :
    Text.IsOneLine d.message := by
  cases horigin with
  | noDocument hnone =>
      exact Text.isOneLine_append.2 ⟨Text.isOneLine_ofList (by decide), by decide⟩
  | forbiddenFile name hname hforbidden =>
      exact Text.isOneLine_between (by decide) (by decide) (hnames.file name rfl)
  | missingExclusionFile hexclusions =>
      exact Text.isOneLine_append.2
        ⟨Text.isOneLine_ofList (by decide), Text.isOneLine_ofList (by decide)⟩
  | missingExclusion pattern hexclusions hpattern =>
      have hpatterns : ∀ pattern ∈ Contract.requiredExclusions, Text.IsOneLine pattern := by
        decide
      exact Text.isOneLine_between (by decide) (by decide) (hpatterns pattern hpattern)
  | script file hfile hsaid =>
      cases hsaid with
      | notInstalled language hscript hmissing =>
          have hname := (isOneLine_script_iff hfile).1 (hnames.file _ rfl)
          have hprogram := hnames.program _ language rfl
          refine Text.isOneLine_append.2 ⟨?_, Text.isOneLine_ofList (by decide)⟩
          exact Text.isOneLine_append.2
            ⟨Text.isOneLine_between (by decide) (by decide) hname, hprogram⟩
      | invalid language detail hscript hinstalled houtcome =>
          have hname := (isOneLine_script_iff hfile).1 (hnames.file _ rfl)
          exact Text.isOneLine_append.2
            ⟨Text.isOneLine_between (by decide) (by decide) hname,
              Script.isOneLine_of_invalid houtcome⟩
  | deepNesting file hfile hdeep =>
      exact Text.isOneLine_between (by decide) (by decide) (hnames.file _ rfl)
  | header document hsome hmem =>
      obtain ⟨text, rfl⟩ := hdocument document hsome
      exact isOneLine_of_mem_frontmatter text d hmem
  | body document hsome hmem =>
      exact isOneLine_of_mem_body document.body d hmem

variable {fs : FileSystem}
variable {path : String}

/--
The messages of a package that is read, whatever its texts, the configuration and the answers of the
interpreters are.  A message is on one line exactly if the file that it is about and the program
that it misses have names on one line, so it is if all files of the package and all programs have
such names.  If the messages and the name of the package are on one line, then the report for people
has one line for each error, one for each warning, and one for the result.
-/
theorem messages_oneLine
    (hload : Package.load fs path = .ok package)
    (tools : Script.Toolchain)
    (config : Config) :
    (∀ d ∈ diagnostics tools config package,
      Text.IsOneLine d.message ↔ NamesOneLine config d) ∧
    ((∀ file ∈ package.files, ∀ name ∈ file, Text.IsOneLine name) →
      (∀ language, Text.IsOneLine (config.interpreters.program language)) →
      ∀ d ∈ diagnostics tools config package, Text.IsOneLine d.message) ∧
    ((∀ d ∈ diagnostics tools config package, Text.IsOneLine d.message) →
      Text.IsOneLine package.name →
      ∀ strict : Bool,
        let report : Report :=
          { name := package.name, diagnostics := diagnostics tools config package, strict }
        Report.linesWith "  [x] " (report.text .pretty false) =
          report.errors.map (fun d => (Report.rowOf "[x]" d).toList) ∧
        Report.linesWith "  [!] " (report.text .pretty false) =
          report.warnings.map (fun d => (Report.rowOf "[!]" d).toList) ∧
        Report.linesWith "  RESULT: " (report.text .pretty false) =
          [("  " ++ report.resultLine.text).toList]) := by
  have hdocument : ∀ document, package.document = some document →
      ∃ text, document = Document.ofText text := by
    intro document hsome
    obtain ⟨found, hread, rfl⟩ := Package.load_eq_ok_iff.1 hload
    obtain rfl : found = some document := hsome
    obtain ⟨file, bytes, -, hdocument⟩ := Package.node_of_readDocument hread
    exact ⟨_, hdocument⟩
  have hnames : ∀ d ∈ diagnostics tools config package,
      NamesOneLine config d → Text.IsOneLine d.message :=
    fun d hd => isOneLine_of_namesOneLine hdocument (origin_of_mem_diagnostics hd)
  refine ⟨?_, ?_, ?_⟩
  · exact fun d hd => ⟨namesOneLine_of_isOneLine (origin_of_mem_diagnostics hd), hnames d hd⟩
  · intro hfiles hprograms d hd
    refine hnames d hd ⟨?_, fun _ language _ => hprograms language⟩
    intro shown hshown
    rcases isOneLine_or_of_file (origin_of_mem_diagnostics hd) hshown with
      hfixed | ⟨⟨file, hfile, rfl⟩, -⟩
    · exact hfixed
    · exact (isOneLine_ofNames file).2 (hfiles file hfile)
  · intro hmessages hname strict report
    exact Report.linesWith_pretty hname hmessages

/-- The entries of a package with an empty document and one script of this name. -/
def scriptEntries (script : String) : List (String × Node) :=
  [("SKILL.md", .file { bytes := [] }), ("scripts", .directory [(script, .file { bytes := [] })])]

def scriptSystem (script : String) : FileSystem where
  root := .directory [("p", .directory (scriptEntries script))]
  workingDirectory := []
  ordered := by
    have hnames : "SKILL.md" < "scripts" := by
      decide
    have hscripts : (Node.directory [(script, .file { bytes := [] })]).Ordered :=
      ⟨List.pairwise_singleton _ _, trivial, trivial⟩
    have hentries : (Node.directory (scriptEntries script)).Ordered :=
      ⟨List.pairwise_pair.2 hnames, trivial, hscripts, trivial⟩
    exact ⟨List.pairwise_singleton _ _, hentries, trivial⟩

/-- The package that is read there. -/
def loneScriptPackage (script : String) : Package where
  root := "/p"
  name := "p"
  document := some (Document.ofText "")
  files := [["SKILL.md"], ["scripts", script]]
  topLevel := ["SKILL.md", "scripts"]
  exclusions := none

theorem node_scriptSystem
    (script : String) :
    (scriptSystem script).node "/p" = .ok (.directory (scriptEntries script)) ∧
    (scriptSystem script).node "/p/SKILL.md" = .ok (.file { bytes := [] }) ∧
    (scriptSystem script).isFile "/p/.gitignore" = false := by
  have hsteps : FileSystem.stepsOf "/p" = ["p"] ∧
      FileSystem.stepsOf "/p/SKILL.md" = ["p", "SKILL.md"] ∧
      FileSystem.stepsOf "/p/.gitignore" = ["p", ".gitignore"] := by
    decide
  have habsolute : Path.isAbsolute "/p" = true ∧ Path.isAbsolute "/p/SKILL.md" = true ∧
      Path.isAbsolute "/p/.gitignore" = true := by
    decide
  have hshort : ∀ name ∈ ["p", "SKILL.md", ".gitignore"],
      ¬ FileSystem.nameLimit < name.utf8ByteSize := by
    decide
  simp only [FileSystem.node, FileSystem.trail, FileSystem.isFile]
  rw [FileSystem.land_of_fits (by decide) (by decide), FileSystem.land_of_fits (by decide)
    (by decide), FileSystem.land_of_fits (by decide) (by decide), hsteps.1, hsteps.2.1, hsteps.2.2]
  simp [FileSystem.follow, FileSystem.nodeAt, scriptSystem, scriptEntries, Node.find?,
    FileSystem.linkLimit, habsolute, hshort, Except.map]

theorem load_scriptSystem
    (script : String) :
    Package.load (scriptSystem script) "/p" = .ok (loneScriptPackage script) := by
  obtain ⟨hroot, hentry, hexclusions⟩ := node_scriptSystem script
  have hjoin : Path.join "/p" Contract.entryFile = "/p/SKILL.md" ∧
      Path.join "/p" Contract.exclusionFile = "/p/.gitignore" := by
    decide
  have hread : Package.readDocument (scriptSystem script) "/p/SKILL.md" =
      .ok (some (Document.ofText "")) := by
    have hempty : Text.Utf8.decodeLenient [] = "" := by
      simp [Text.Utf8.decodeLenient, Text.Utf8.pieces]
    simp only [Package.readDocument, FileSystem.isFile, FileSystem.readBytes, hentry, if_true]
    exact congrArg (fun text => Except.ok (some (Document.ofText text))) hempty
  refine Package.load_eq_ok_iff.2 ⟨some (Document.ofText ""), by rw [hjoin.1, hread], ?_⟩
  rw [loneScriptPackage, Package.visitsAt_of_directory hroot, hjoin.2, Package.readExclusions,
    hexclusions]
  have hname : Package.nameOf "/p" = "p" := by
    decide
  have hvisits : Package.visitsBelow [] (.directory (scriptEntries script)) =
      [⟨["SKILL.md"], .file { bytes := [] }⟩,
        ⟨["scripts"], .directory [(script, .file { bytes := [] })]⟩,
        ⟨["scripts", script], .file { bytes := [] }⟩] := by
    simp [scriptEntries, Package.visitsBelow, Package.visitsAmong, Package.Visit.isSkipped,
      Contract.skippedDirectories]
  rw [hname, hvisits]
  rfl

/-- With an ordinary name of the script the messages are on one line, and one line says what came
out. -/
theorem messages_oneLine_lone_script :
    let report : Report :=
      { name := "p"
        diagnostics := diagnostics bareTools {} (loneScriptPackage "a.py")
        strict := false }
    Package.load (scriptSystem "a.py") "/p" = .ok (loneScriptPackage "a.py") ∧
    (∀ d ∈ report.diagnostics, Text.IsOneLine d.message) ∧
    (Report.linesWith "  RESULT: " (report.text .pretty false)).length = 1 := by
  intro report
  have hload := load_scriptSystem "a.py"
  have hfiles : ∀ file ∈ (loneScriptPackage "a.py").files, ∀ name ∈ file, Text.IsOneLine name := by
    decide
  have hprograms : ∀ language, Text.IsOneLine (Interpreters.program {} language) := by
    intro language
    cases language <;> decide
  obtain ⟨-, hnamed, hlines⟩ := messages_oneLine hload bareTools {}
  have hmessages := hnamed hfiles hprograms
  obtain ⟨-, -, hresult⟩ := hlines hmessages (by decide) false
  exact ⟨hload, hmessages, congrArg List.length hresult⟩

/-- The name of a script that holds a line of its own. -/
def forgedName : String := "x\n  RESULT: PASS (0 warnings)\n.py"

/-- What is said of that script where its interpreter is not installed. -/
def forgedDiagnostic : Diagnostic where
  ruleId := "scripts/unchecked"
  severity := .warning
  category := .scripts
  message := "script not checked: " ++ forgedName ++ " (python3 not found on PATH)"
  file := some ("scripts/" ++ forgedName)

/-- A package with that script fails, and a line of its report says that it passes. -/
theorem messages_forged :
    let report : Report :=
      { name := "p"
        diagnostics := diagnostics bareTools {} (loneScriptPackage forgedName)
        strict := false }
    Package.load (scriptSystem forgedName) "/p" = .ok (loneScriptPackage forgedName) ∧
    (∃ d ∈ report.diagnostics, ¬ Text.IsOneLine d.message) ∧
    report.passed = false ∧
    "  RESULT: PASS (0 warnings)".toList ∈
      Report.linesWith "  RESULT: " (report.text .pretty false) := by
  intro report
  have hmem : forgedDiagnostic ∈ report.diagnostics := by
    decide +kernel
  have hwarning : forgedDiagnostic ∈ report.warnings :=
    List.mem_filter.2 ⟨hmem, by decide⟩
  have hforged : (Report.rowOf "[!]" forgedDiagnostic).toList =
      "  [!] [scripts] script not checked: x".toList ++
        '\n' :: ("  RESULT: PASS (0 warnings)".toList ++
          '\n' :: ".py (python3 not found on PATH)".toList) := by
    simp [Report.rowOf, Diagnostic.text, Category.text, forgedDiagnostic, forgedName]
  have herror : Severity.error.OccursIn report.diagnostics := by
    have hheader : Frontmatter.noHeader.diagnostic
        (.inEntry "no header block found (SKILL.md must start with ---)") ∈ report.diagnostics := by
      decide +kernel
    exact ⟨_, hheader, rfl⟩
  have hlines : ¬ Text.IsOneLine forgedDiagnostic.message := by
    simp [Text.IsOneLine, forgedDiagnostic, forgedName]
  refine ⟨load_scriptSystem forgedName, ⟨forgedDiagnostic, hmem, hlines⟩,
    Report.passed_eq_false_iff.2 (Report.status_eq_failed_iff.2 (Or.inl herror)), ?_⟩
  exact Report.mem_linesWith_of_row (Report.rowOf_mem_prettyRows hwarning) hforged (by simp)
    (by simp [List.cons_prefix_cons])

end Messages

end Evaluation
end SkillAudit
