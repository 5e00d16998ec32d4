import SkillAudit.Proofs.Command.Coverage
import SkillAudit.Proofs.FileSystem.Writing
import SkillAudit.Proofs.Json.RoundTrip
import SkillAudit.Proofs.Package.Entries
import SkillAudit.Proofs.Report.Verdict

/-!
# Validating one package

A run on one package passes three places at which it can end early: the configuration may not be
loaded, the package may allow no report, and the report may not be written to its file.  The first
one that fails decides the exit code and what is printed.  Strictness has a say in the verdict
alone.

* `runValidate_ends`: the ways in which a run ends.
* `fails_iff`: the packages that allow no report.
* `run_tighten`: the report of a strict run.
* `runValidate_law`: exit code, output and files of a run, and what strictness changes.
-/

namespace SkillAudit

namespace Validation

/-- Why the package at a path allows no report. -/
inductive Fails (fs : FileSystem) (path : String) : RunError → Prop
  | missing
      (hmissing : fs.pathExists path = false) :
      Fails fs path (.pathNotFound path)
  | noDirectory
      (hexists : fs.pathExists path = true)
      (hother : fs.isDirectory path = false) :
      Fails fs path (.notADirectory path)
  | unreadable
      (names : List String)
      (file : File)
      (hdirectory : fs.isDirectory path = true)
      (hplace : fs.canonical path = .ok names)
      (hentry : fs.node (Path.join (Path.absolute names) Contract.entryFile) = .ok (.file file))
      (hlocked : file.readable = false) :
      Fails fs path
        (.unreadable (Path.join (Path.absolute names) Contract.entryFile)
          IoFault.permissionDenied.message)

section Failing

variable {fs : FileSystem}
variable {path : String}
variable {error : RunError}

/-- A document cannot be read exactly if it is a file that may not be read. -/
theorem readDocument_eq_error_iff :
    Package.readDocument fs path = .error error ↔
      ∃ file, fs.node path = .ok (.file file) ∧ file.readable = false ∧
        error = .unreadable path IoFault.permissionDenied.message := by
  cases hnode : fs.node path with
  | error fault =>
      simp [Package.readDocument, FileSystem.isFile, hnode]
  | ok node =>
      cases node with
      | link target => simp [Package.readDocument, FileSystem.isFile, hnode]
      | directory entries => simp [Package.readDocument, FileSystem.isFile, hnode]
      | file file =>
          cases hreadable : file.readable with
          | true =>
              simp [Package.readDocument, FileSystem.isFile, FileSystem.readBytes, hnode, hreadable]
          | false =>
              simp only [Package.readDocument, FileSystem.isFile, FileSystem.readBytes, hnode,
                hreadable, if_true, Bool.false_eq_true, if_false, Except.error.injEq,
                Except.ok.injEq, Node.file.injEq]
              constructor
              · rintro rfl
                exact ⟨file, rfl, hreadable, rfl⟩
              · rintro ⟨_, rfl, -, rfl⟩
                rfl

theorem load_eq_error_iff :
    Package.load fs path = .error error ↔
      Package.readDocument fs (Path.join path Contract.entryFile) = .error error := by
  rw [Package.load]
  cases Package.readDocument fs (Path.join path Contract.entryFile) with
  | error fault => simp [bind, Except.bind]
  | ok document => simp [bind, Except.bind, pure, Except.pure]

/-- A directory is read by its resolved spelling. -/
theorem package_of_isDirectory
    (hdirectory : fs.isDirectory path = true) :
    ∃ names, fs.canonical path = .ok names ∧
      package fs path = Package.load fs (Path.absolute names) := by
  have hnode : ∃ entries, fs.node path = .ok (.directory entries) := by
    unfold FileSystem.isDirectory at hdirectory
    split at hdirectory
    · next entries hnode => exact ⟨entries, hnode⟩
    · cases hdirectory
  obtain ⟨entries, hentries⟩ := hnode
  obtain ⟨trail, htrail, hreached⟩ := FileSystem.node_eq_ok_iff.1 hentries
  refine ⟨trail.names, ?_, package_of_trail htrail hreached⟩
  rw [FileSystem.canonical, htrail]
  rfl

/-- A package cannot be read exactly for one of these reasons. -/
theorem fails_iff :
    package fs path = .error error ↔ Fails fs path error := by
  constructor
  · intro h
    cases hdirectory : fs.isDirectory path with
    | true =>
        obtain ⟨names, hplace, hload⟩ := package_of_isDirectory hdirectory
        rw [hload, load_eq_error_iff, readDocument_eq_error_iff] at h
        obtain ⟨file, hentry, hlocked, rfl⟩ := h
        exact .unreadable names file hdirectory hplace hentry hlocked
    | false =>
        cases hexists : fs.pathExists path with
        | false =>
            rw [package, hexists, Bool.not_false, if_pos rfl] at h
            cases h
            exact .missing hexists
        | true =>
            rw [package, hexists, hdirectory, Bool.not_true, if_neg Bool.false_ne_true,
              Bool.not_false, if_pos rfl] at h
            cases h
            exact .noDirectory hexists hdirectory
  · intro h
    cases h with
    | missing hmissing =>
        rw [package, hmissing, Bool.not_false, if_pos rfl]
    | noDirectory hexists hother =>
        rw [package, hexists, hother, Bool.not_true, if_neg Bool.false_ne_true, Bool.not_false,
          if_pos rfl]
    | unreadable names file hdirectory hplace hentry hlocked =>
        obtain ⟨others, hothers, hload⟩ := package_of_isDirectory hdirectory
        obtain rfl : names = others := Except.ok.inj (hplace.symm.trans hothers)
        rw [hload, load_eq_error_iff, readDocument_eq_error_iff]
        exact ⟨file, hentry, hlocked, rfl⟩

/-- A fault of the package is no usage error. -/
theorem Fails.exitCode
    (h : Fails fs path error) :
    error.exitCode = 1 := by
  cases h <;> rfl

end Failing

section Running

variable {host : Host}
variable {config : Config}
variable {path : String}

/-- A run allows no report exactly if the package cannot be read. -/
theorem run_eq_error_iff
    {error : RunError} :
    run host config path = .error error ↔ Fails host.files path error := by
  rw [← fails_iff, run]
  cases package host.files path with
  | error fault => simp [bind, Except.bind]
  | ok found => simp [bind, Except.bind, pure, Except.pure]

/-- A strict run finds what any run finds. -/
theorem run_tighten
    (host : Host)
    (config : Config)
    (path : String) :
    run host (config.tighten true) path =
      (run host config path).map fun report => { report with strict := true } := by
  rw [run, run]
  cases package host.files path with
  | error fault => rfl
  | ok found => rfl

theorem hostAfter_tighten
    (host : Host)
    (config : Config)
    (path : String) :
    hostAfter host (config.tighten true) path = hostAfter host config path := by
  rw [hostAfter, hostAfter]
  cases package host.files path with
  | error fault => rfl
  | ok found => rfl

end Running

end Validation

namespace Command

section Running

variable (host : Host)
variable (options : Options)
variable (path : String)

/-- The configuration of a run is loaded and the package allows this report. -/
structure Reports (config : Config) (report : Report) : Prop where
  config_loaded : loadConfig host options = .ok config
  report_made : Validation.run host config path = .ok report

/-- What is to be written for a report. -/
def bytesFor (report : Report) : List UInt8 :=
  Text.Utf8.encode (Report.endLine (report.text (options.format.getD .pretty) false))

/-- The ways in which a run on one package ends. -/
inductive Ends : Outcome → Prop
  | badConfig
      (error : RunError)
      (hconfig : loadConfig host options = .error error) :
      Ends (configFailure host error (hintFor host path))
  | noReport
      (config : Config)
      (error : RunError)
      (hconfig : loadConfig host options = .ok config)
      (herror : Validation.run host config path = .error error) :
      Ends
        { exitCode := error.exitCode
          output := failureLine error
          errors := hintFor host path
          files := host.files }
  | printed
      (config : Config)
      (report : Report)
      (hreports : Reports host options path config report)
      (houtput : options.output = none) :
      Ends
        { exitCode := report.exitCode
          output := report.printed (options.format.getD .pretty) (colored host options)
          errors := hintFor host path
          files := (Validation.hostAfter host config path).files }
  | filed
      (config : Config)
      (report : Report)
      (file : String)
      (files : FileSystem)
      (hreports : Reports host options path config report)
      (houtput : options.output = some file)
      (hwrite : (Validation.hostAfter host config path).files.write file
        (bytesFor options report) = .ok files) :
      Ends
        { exitCode := report.exitCode
          errors := hintFor host path ++ "Output written to " ++ file ++ "\n"
          files }
  | notFiled
      (config : Config)
      (report : Report)
      (file : String)
      (fault : IoFault)
      (hreports : Reports host options path config report)
      (houtput : options.output = some file)
      (hwrite : (Validation.hostAfter host config path).files.write file
        (bytesFor options report) = .error fault) :
      Ends
        { exitCode := usageExitCode
          errors := hintFor host path ++ "Error writing output: " ++ fault.message ++ "\n"
          files := (Validation.hostAfter host config path).files }

/-- A run ends in one of these ways. -/
theorem runValidate_ends :
    Ends host options path (runValidate host options path) := by
  cases hconfig : loadConfig host options with
  | error error =>
      simp only [runValidate, hconfig]
      exact .badConfig error hconfig
  | ok config =>
      cases hreport : Validation.run host config path with
      | error error =>
          simp only [runValidate, hconfig, hreport]
          exact .noReport config error hconfig hreport
      | ok report =>
          cases houtput : options.output with
          | none =>
              have hcolored :=
                colored_congr options (Validation.environment_hostAfter host config path)
              simp only [runValidate, hconfig, hreport, deliver, houtput, hcolored]
              exact .printed config report ⟨hconfig, hreport⟩ houtput
          | some file =>
              cases hwrite : (Validation.hostAfter host config path).files.write file
                  (bytesFor options report) with
              | ok files =>
                  have hfiled := hwrite
                  rw [bytesFor, ← Report.printed, ← Report.filed] at hfiled
                  simp only [runValidate, hconfig, hreport, deliver, houtput, hfiled]
                  exact .filed config report file files ⟨hconfig, hreport⟩ houtput hwrite
              | error fault =>
                  have hfiled := hwrite
                  rw [bytesFor, ← Report.printed, ← Report.filed] at hfiled
                  simp only [runValidate, hconfig, hreport, deliver, houtput, hfiled]
                  exact .notFiled config report file fault ⟨hconfig, hreport⟩ houtput hwrite

variable {host options path}
variable {config other : Config}
variable {report : Report}
variable {error : RunError}

/-- A configuration that cannot be loaded is a usage error. -/
theorem exitCode_of_loadConfig
    (h : loadConfig host options = .error error) :
    error.exitCode = usageExitCode := by
  have hfile : ∀ file, Config.readFile host.files file = .error error →
      error.exitCode = usageExitCode := by
    intro file hread
    unfold Config.readFile at hread
    split at hread
    · cases hread
      rfl
    · split at hread
      · cases hread
      · cases hread
        rfl
  have hload : Config.load host.files options.config = .error error := by
    rw [loadConfig] at h
    cases hfound : Config.load host.files options.config with
    | error found =>
        rw [hfound] at h
        cases h
        rfl
    | ok found =>
        rw [hfound] at h
        cases h
  unfold Config.load at hload
  split at hload
  · next file _ =>
      split at hload
      · exact hfile file hload
      · cases hload
        rfl
  · split at hload
    · exact hfile _ hload
    · cases hload

theorem Reports.unique
    {otherReport : Report}
    (h : Reports host options path config report)
    (hother : Reports host options path other otherReport) :
    config = other ∧ report = otherReport := by
  obtain rfl : config = other := Except.ok.inj (h.config_loaded.symm.trans hother.config_loaded)
  exact ⟨rfl, Except.ok.inj (h.report_made.symm.trans hother.report_made)⟩

theorem Reports.loadConfig_ne
    (h : Reports host options path config report) :
    loadConfig host options ≠ .error error := by
  rw [h.config_loaded]
  exact fun hsame => by cases hsame

theorem Reports.ne_error
    (h : Reports host options path config report)
    (hconfig : loadConfig host options = .ok other) :
    Validation.run host other path ≠ .error error := by
  obtain rfl : config = other := Except.ok.inj (h.config_loaded.symm.trans hconfig)
  rw [h.report_made]
  exact fun hsame => by cases hsame

theorem exitCode_eq_one_iff
    (report : Report) :
    report.exitCode = 1 ↔ report.passed = false := by
  rw [Report.exitCode]
  cases report.passed <;> simp

theorem exitCode_ne_two
    (report : Report) :
    report.exitCode ≠ usageExitCode := by
  rw [Report.exitCode]
  cases report.passed <;> decide

variable {outcome : Outcome}

/-- The exit code for a wrong call is that of a bad configuration, and of a report that cannot be
written. -/
theorem Ends.exitCode_eq_usage_iff
    (h : Ends host options path outcome) :
    outcome.exitCode = usageExitCode ↔
      (∃ error, loadConfig host options = .error error) ∨
      ∃ config report file fault, Reports host options path config report ∧
        options.output = some file ∧
        (Validation.hostAfter host config path).files.write file (bytesFor options report) =
          .error fault := by
  cases h with
  | badConfig error hconfig =>
      exact iff_of_true (exitCode_of_loadConfig hconfig) (.inl ⟨error, hconfig⟩)
  | noReport config error hconfig herror =>
      have hexit := (Validation.run_eq_error_iff.1 herror).exitCode
      refine iff_of_false (fun husage => absurd (hexit.symm.trans husage) (by decide)) ?_
      rintro (⟨other, hother⟩ | ⟨other, report, file, fault, hreports, -, -⟩)
      · rw [hconfig] at hother
        cases hother
      · exact hreports.ne_error hconfig herror
  | printed config report hreports houtput =>
      refine iff_of_false (exitCode_ne_two report) ?_
      rintro (⟨other, hother⟩ | ⟨other, _, file, fault, -, hfile, -⟩)
      · exact hreports.loadConfig_ne hother
      · rw [houtput] at hfile
        cases hfile
  | filed config report file files hreports houtput hwrite =>
      refine iff_of_false (exitCode_ne_two report) ?_
      rintro (⟨other, hother⟩ | ⟨other, _, place, fault, hothers, hplace, hfault⟩)
      · exact hreports.loadConfig_ne hother
      · obtain ⟨rfl, rfl⟩ := hreports.unique hothers
        obtain rfl : file = place := Option.some.inj (houtput.symm.trans hplace)
        rw [hwrite] at hfault
        cases hfault
  | notFiled config report file fault hreports houtput hwrite =>
      exact iff_of_true rfl (.inr ⟨config, report, file, fault, hreports, houtput, hwrite⟩)

/-- A run fails, unless it was called wrongly, if there is no report or one that does not pass. -/
theorem Ends.exitCode_eq_one_iff
    (h : Ends host options path outcome)
    (hcalled : outcome.exitCode ≠ usageExitCode) :
    outcome.exitCode = 1 ↔
      (∃ config error, loadConfig host options = .ok config ∧
        Validation.run host config path = .error error) ∨
      ∃ config report, Reports host options path config report ∧ report.passed = false := by
  have hreport : ∀ {config report}, Reports host options path config report →
      (report.exitCode = 1 ↔
        (∃ config error, loadConfig host options = .ok config ∧
          Validation.run host config path = .error error) ∨
        ∃ config report, Reports host options path config report ∧ report.passed = false) := by
    intro config report hreports
    rw [Command.exitCode_eq_one_iff]
    constructor
    · exact fun hfailed => .inr ⟨config, report, hreports, hfailed⟩
    · rintro (⟨other, error, hconfig, herror⟩ | ⟨other, _, hothers, hfailed⟩)
      · exact absurd herror (hreports.ne_error hconfig)
      · obtain ⟨-, rfl⟩ := hreports.unique hothers
        exact hfailed
  cases h with
  | badConfig error hconfig =>
      exact absurd (exitCode_of_loadConfig hconfig) hcalled
  | noReport config error hconfig herror =>
      exact iff_of_true (Validation.run_eq_error_iff.1 herror).exitCode
        (.inl ⟨config, error, hconfig, herror⟩)
  | printed config report hreports houtput =>
      exact hreport hreports
  | filed config report file files hreports houtput hwrite =>
      exact hreport hreports
  | notFiled config report file fault hreports houtput hwrite =>
      exact absurd rfl hcalled

theorem Ends.exitCode_cases
    (h : Ends host options path outcome) :
    outcome.exitCode = 0 ∨ outcome.exitCode = 1 ∨ outcome.exitCode = usageExitCode := by
  have hreport (report : Report) :
      report.exitCode = 0 ∨ report.exitCode = 1 ∨ report.exitCode = usageExitCode := by
    rw [Report.exitCode]
    cases report.passed <;> simp
  cases h with
  | badConfig error hconfig => exact .inr (.inr (exitCode_of_loadConfig hconfig))
  | noReport config error hconfig herror =>
      exact .inr (.inl (Validation.run_eq_error_iff.1 herror).exitCode)
  | printed config report => exact hreport report
  | filed config report => exact hreport report
  | notFiled => exact .inr (.inr rfl)

/-- A text with a line feed at its end is the text itself or the text with one more line feed. -/
theorem endLine_cases (text : String) :
    (Report.endLine text = text ∨ Report.endLine text = text ++ "\n") ∧
      (Report.endLine text).toList.getLast? = some '\n' := by
  unfold Report.endLine
  split
  · next hlast => exact ⟨.inl rfl, hlast⟩
  · exact ⟨.inr rfl, by simp⟩

/-- The JSON form of a report is read back with the line feed behind it. -/
theorem ofText?_printed
    (report : Report)
    (colored : Bool) :
    Json.ofText? (report.printed .json colored) = some report.record := by
  rw [Report.printed, Report.text]
  rcases (endLine_cases report.record.render).1 with h | h
  · rw [h, Json.ofText?_render]
  · rw [h]
    refine Json.ofText?_render_append _ ?_ (by decide)
    intro c hc
    cases hc
    rfl

/-- Without a configuration nothing is printed, and no interpreter is started. -/
theorem Ends.output_badConfig
    (h : Ends host options path outcome)
    (herror : loadConfig host options = .error error) :
    outcome.output = "" ∧ outcome.files = host.files := by
  cases h with
  | badConfig => exact ⟨rfl, rfl⟩
  | noReport _ _ hconfig _ =>
      rw [herror] at hconfig
      cases hconfig
  | printed _ _ hreports _ | filed _ _ _ _ hreports _ _ | notFiled _ _ _ _ hreports _ _ =>
      exact absurd herror hreports.loadConfig_ne

/-- What a run prints if no file is asked for. -/
theorem Ends.output_printed
    (h : Ends host options path outcome)
    (hreports : Reports host options path config report)
    (houtput : options.output = none) :
    outcome.exitCode = report.exitCode ∧
      outcome.output = report.printed (options.format.getD .pretty) (colored host options) := by
  cases h with
  | badConfig error hconfig =>
      exact absurd hconfig hreports.loadConfig_ne
  | noReport other error hconfig herror =>
      exact absurd herror (hreports.ne_error hconfig)
  | printed other others hothers _ =>
      obtain ⟨-, rfl⟩ := hreports.unique hothers
      exact ⟨rfl, rfl⟩
  | filed _ _ _ _ _ hfile _ =>
      rw [houtput] at hfile
      cases hfile
  | notFiled _ _ _ _ _ hfile _ =>
      rw [houtput] at hfile
      cases hfile

/-- What a run prints if there is no report. -/
theorem Ends.output_error
    (h : Ends host options path outcome)
    (hconfig : loadConfig host options = .ok config)
    (herror : Validation.run host config path = .error error) :
    outcome.output = "ERROR: " ++ error.message ++ "\n" := by
  cases h with
  | badConfig error hbad =>
      rw [hconfig] at hbad
      cases hbad
  | noReport other found hother hfound =>
      obtain rfl : config = other := Except.ok.inj (hconfig.symm.trans hother)
      obtain rfl : error = found := Except.error.inj (herror.symm.trans hfound)
      rfl
  | printed _ _ hreports _ => exact absurd herror (hreports.ne_error hconfig)
  | filed _ _ _ _ hreports _ _ => exact absurd herror (hreports.ne_error hconfig)
  | notFiled _ _ _ _ hreports _ _ => exact absurd herror (hreports.ne_error hconfig)

/-- Where a file is asked for, a run prints no report, and leaves it in the file if it can be
written. -/
theorem Ends.output_filed
    {file : String}
    (h : Ends host options path outcome)
    (hreports : Reports host options path config report)
    (houtput : options.output = some file) :
    outcome.output = "" ∧
      (outcome.exitCode ≠ usageExitCode →
        ∃ content, outcome.files.node file = .ok (.file content) ∧
          content.bytes = bytesFor options report) := by
  cases h with
  | badConfig error hconfig =>
      exact absurd hconfig hreports.loadConfig_ne
  | noReport other error hconfig herror =>
      exact absurd herror (hreports.ne_error hconfig)
  | printed _ _ _ hnone =>
      rw [houtput] at hnone
      cases hnone
  | filed other others place files hothers hplace hwrite =>
      obtain ⟨rfl, rfl⟩ := hreports.unique hothers
      obtain rfl : file = place := Option.some.inj (houtput.symm.trans hplace)
      exact ⟨rfl, fun _ => FileSystem.node_of_write hwrite⟩
  | notFiled => exact ⟨rfl, fun hcalled => absurd rfl hcalled⟩

end Running

section Strictness

variable {host : Host}
variable {options : Options}
variable {path : String}
variable {config : Config}
variable {report : Report}

theorem loadConfig_strict
    (host : Host)
    (options : Options) :
    loadConfig host { options with strict := true } =
      (loadConfig host { options with strict := false }).map (·.tighten true) := by
  simp only [loadConfig]
  cases Config.load host.files options.config with
  | error fault => rfl
  | ok found => rfl

/-- Strictness changes how a report is judged and nothing else in it. -/
theorem Reports.strict
    (h : Reports host { options with strict := false } path config report) :
    Reports host { options with strict := true } path (config.tighten true)
      { report with strict := true } where
  config_loaded := by
    rw [loadConfig_strict, h.config_loaded]
    rfl
  report_made := by
    rw [Validation.run_tighten, h.report_made]
    rfl

/-- A report that does not pass does not pass when it is judged strictly. -/
theorem passed_strict_eq_false
    (h : report.passed = false) :
    ({ report with strict := true } : Report).passed = false := by
  rw [Report.passed_eq_false_iff, Report.status_eq_failed_iff] at h ⊢
  exact h.imp id fun hstrict => ⟨rfl, hstrict.2⟩

/-- A run that fails still fails when it is strict. -/
theorem exitCode_strict_ne_zero
    (h : (runValidate host { options with strict := false } path).exitCode ≠ 0) :
    (runValidate host { options with strict := true } path).exitCode ≠ 0 := by
  have hplain := runValidate_ends host { options with strict := false } path
  have hstrict := runValidate_ends host { options with strict := true } path
  intro hzero
  have hcalled : (runValidate host { options with strict := true } path).exitCode ≠
      usageExitCode := by
    rw [hzero]
    decide
  rcases hplain.exitCode_cases with hnone | hone | husage
  · exact h hnone
  · have hstays : (runValidate host { options with strict := true } path).exitCode = 1 := by
      refine (hstrict.exitCode_eq_one_iff hcalled).2 ?_
      rcases (hplain.exitCode_eq_one_iff (by rw [hone]; decide)).1 hone with
        ⟨config, error, hconfig, herror⟩ | ⟨config, report, hreports, hfailed⟩
      · refine .inl ⟨config.tighten true, error, ?_, ?_⟩
        · rw [loadConfig_strict, hconfig]
          rfl
        · rw [Validation.run_tighten, herror]
          rfl
      · exact .inr ⟨_, _, hreports.strict, passed_strict_eq_false hfailed⟩
    rw [hzero] at hstays
    cases hstays
  · refine hcalled (hstrict.exitCode_eq_usage_iff.2 ?_)
    rcases hplain.exitCode_eq_usage_iff.1 husage with
      ⟨error, herror⟩ | ⟨config, report, file, fault, hreports, hfile, hwrite⟩
    · refine .inl ⟨error, ?_⟩
      rw [loadConfig_strict, herror]
      rfl
    · refine .inr ⟨_, _, file, fault, hreports.strict, hfile, ?_⟩
      rw [Validation.hostAfter_tighten]
      exact FileSystem.write_error_congr hwrite _

end Strictness

/--
A run of the default command on a path.  It exits with two exactly if the configuration cannot be
loaded, or the report cannot be written to the file that is asked for.  Otherwise it exits with one
exactly if the package allows no report, for one of three reasons, or the report does not pass; else
with zero.  Without a configuration nothing is printed and no file changes.  Without a file, the
report is printed and ends with a line feed, and in JSON it carries the exit code of the run; with a
file, nothing is printed and the file has the report; without a report, one line says why.  A strict
run makes the same report but for its strictness, and never passes where another one fails.
-/
theorem runValidate_law
    (host : Host)
    (options : Options)
    (path : String) :
    let outcome := runValidate host options path
    let format := options.format.getD .pretty
    (∀ words, readArguments words = .ok (.validate, options) → options.operand = some path →
      run host words = outcome) ∧
    (outcome.exitCode = 2 ↔
      (∃ error, loadConfig host options = .error error) ∨
      ∃ config report file fault, Reports host options path config report ∧
        options.output = some file ∧
        (Validation.hostAfter host config path).files.write file (bytesFor options report) =
          .error fault) ∧
    (outcome.exitCode ≠ 2 →
      (outcome.exitCode = 1 ↔
        (∃ config error, loadConfig host options = .ok config ∧
          Validation.run host config path = .error error) ∨
        ∃ config report, Reports host options path config report ∧ report.passed = false)) ∧
    (outcome.exitCode = 0 ∨ outcome.exitCode = 1 ∨ outcome.exitCode = 2) ∧
    (∀ config error, Validation.run host config path = .error error ↔
      Validation.Fails host.files path error) ∧
    (∀ error, loadConfig host options = .error error →
      outcome.output = "" ∧ outcome.files = host.files) ∧
    (∀ config report, Reports host options path config report → options.output = none →
      outcome.output = Report.endLine (report.text format (colored host options)) ∧
      outcome.output.toList.getLast? = some '\n' ∧
      (format = .json → ∃ record, Json.ofText? outcome.output = some record ∧
        record.get? "exit_code" = some (.number outcome.exitCode))) ∧
    (∀ config error, loadConfig host options = .ok config →
      Validation.run host config path = .error error →
      outcome.output = "ERROR: " ++ error.message ++ "\n") ∧
    (∀ config report file, Reports host options path config report →
      options.output = some file →
      outcome.output = "" ∧
        (outcome.exitCode ≠ 2 → ∃ content,
          outcome.files.node file = .ok (.file content) ∧
            content.bytes = bytesFor options report)) ∧
    (loadConfig host { options with strict := true } =
      (loadConfig host { options with strict := false }).map (·.tighten true)) ∧
    (∀ config, Validation.run host (config.tighten true) path =
      (Validation.run host config path).map fun report => { report with strict := true }) ∧
    ((runValidate host { options with strict := false } path).exitCode ≠ 0 →
      (runValidate host { options with strict := true } path).exitCode ≠ 0) := by
  intro outcome format
  have hends : Ends host options path outcome := runValidate_ends host options path
  refine ⟨?_, hends.exitCode_eq_usage_iff, hends.exitCode_eq_one_iff, hends.exitCode_cases,
    fun _ _ => Validation.run_eq_error_iff, fun _ => hends.output_badConfig, ?_,
    fun _ _ => hends.output_error, fun _ _ _ => hends.output_filed, loadConfig_strict host options,
    fun config => Validation.run_tighten host config path, exitCode_strict_ne_zero⟩
  · intro words hwords hoperand
    simp only [run, hwords, runVerb, hoperand, outcome]
  · intro config report hreports houtput
    obtain ⟨hexit, hprinted⟩ := hends.output_printed hreports houtput
    refine ⟨hprinted, ?_, ?_⟩
    · rw [hprinted]
      exact (endLine_cases _).2
    · intro hformat
      refine ⟨report.record, ?_, ?_⟩
      · rw [hprinted]
        rw [show options.format.getD .pretty = .json from hformat]
        exact ofText?_printed report _
      · rw [hexit]
        rfl

end Command

end SkillAudit
