import Mathlib.Data.List.Basic
import SkillAudit.Command.Run
import SkillAudit.Proofs.Collection
import SkillAudit.Proofs.Package.Snapshot

/-!
# Validating a collection

To validate a collection is to validate its packages one after another.  In its turn each package is
validated as it would be alone, on the files as the turn before left them.  The reports are printed
as they would be alone, and the run passes if each package alone does; the first package that allows
no report ends the run.

* `Turn.alone_of_report`, `Turn.alone_of_error`: one package alone.
* `validateEach_append`: the packages up to some turn, by induction on the packages; the hosts of
  the turns are those on which the packages are validated.
* `runValidateAll_agrees`: a whole run.
-/

namespace SkillAudit

namespace Host

theorem afterLaunch_eq
    (host : Host)
    (program : String)
    (arguments : List String) :
    host.afterLaunch program arguments =
      { host with files := (host.afterLaunch program arguments).files } := by
  unfold afterLaunch
  split <;> rfl

/-- Programs that are run change files and nothing else. -/
theorem afterCalls_eq
    (host : Host)
    (calls : List (String × List String)) :
    host.afterCalls calls = { host with files := (host.afterCalls calls).files } := by
  unfold afterCalls
  induction calls generalizing host with
  | nil =>
      rfl
  | cons call rest ih =>
      obtain ⟨program, arguments⟩ := call
      rw [List.foldl_cons, ih]
      dsimp only
      rw [afterLaunch_eq]

end Host

/-- A directory that is reached is read by its resolved spelling. -/
theorem Validation.package_of_trail
    {fs : FileSystem}
    {path : String}
    {trail : FileSystem.Trail}
    {entries : List (String × Node)}
    (htrail : fs.trail path = .ok trail)
    (hnode : FileSystem.nodeAt fs.root trail = .directory entries) :
    package fs path = Package.load fs (Path.absolute trail.names) := by
  have hexists : fs.pathExists path = true := by
    rw [FileSystem.pathExists, htrail]
    rfl
  have hdirectory : fs.isDirectory path = true := by
    rw [FileSystem.isDirectory, FileSystem.node_eq_ok_iff.2 ⟨trail, htrail, hnode⟩]
  have hcanonical : fs.canonical path = .ok trail.names := by
    rw [FileSystem.canonical, htrail]
    rfl
  simp only [package, hexists, hdirectory, hcanonical, Bool.not_true, Bool.false_eq_true, if_false]

theorem Validation.hostAfter_eq
    (host : Host)
    (config : Config)
    (path : String) :
    hostAfter host config path = { host with files := (hostAfter host config path).files } := by
  unfold hostAfter
  split
  · exact host.afterCalls_eq _
  · rfl

theorem Validation.environment_hostAfter
    (host : Host)
    (config : Config)
    (path : String) :
    (hostAfter host config path).environment = host.environment := by
  rw [hostAfter_eq]

namespace Command

/-- A package of a collection, and the host on which its turn finds it. -/
structure Turn where
  host : Host
  package : String

namespace Turn

/-- The report on the package. -/
def report (turn : Turn) (config : Config) : Except RunError Report :=
  Validation.run turn.host config turn.package

/-- What is left behind when the package alone is validated and its report is printed. -/
def alone (turn : Turn) (options : Options) : Outcome :=
  runValidate turn.host { options with output := none } turn.package

end Turn

/-- The turns of packages that are validated alone, one after another: each finds the files as the
one before left them. -/
def turns (options : Options) : Host → List String → List Turn
  | _, [] => []
  | host, package :: rest =>
      let turn : Turn := { host, package }
      turn :: turns options { host with files := (turn.alone options).files } rest

section Alone

variable {options : Options}

/-- Whether there are colors is a matter of the variables. -/
theorem colored_congr
    (options : Options)
    {host other : Host}
    (h : host.environment = other.environment) :
    colored host options = colored other options := by
  simp only [colored, colorsForced, Machine.valueOf?, h]

variable {config : Config}
variable {turn : Turn}

/-- A package that allows a report is left with the report printed. -/
theorem Turn.alone_of_report
    {report : Report}
    (hconfig : loadConfig turn.host options = .ok config)
    (hreport : turn.report config = .ok report) :
    (turn.alone options).exitCode = report.exitCode ∧
    (turn.alone options).output =
      report.printed (options.format.getD .pretty) (colored turn.host options) ∧
    { turn.host with files := (turn.alone options).files } =
      Validation.hostAfter turn.host config turn.package := by
  have hload : loadConfig turn.host { options with output := none } = .ok config := hconfig
  rw [Turn.report] at hreport
  have hcolored := colored_congr options
    (Validation.environment_hostAfter turn.host config turn.package)
  simp only [Turn.alone, runValidate, hload, hreport, deliver]
  refine ⟨trivial, ?_, (Validation.hostAfter_eq _ _ _).symm⟩
  rw [← hcolored]
  rfl

/-- A package that allows no report is left with a line that says why. -/
theorem Turn.alone_of_error
    {error : RunError}
    (hconfig : loadConfig turn.host options = .ok config)
    (herror : turn.report config = .error error) :
    (turn.alone options).exitCode = error.exitCode ∧
    (turn.alone options).output = failureLine error := by
  have hload : loadConfig turn.host { options with output := none } = .ok config := hconfig
  rw [Turn.report] at herror
  simp only [Turn.alone, runValidate, hload, herror, and_self]

end Alone

section Turns

variable {options : Options}
variable {config : Config}

theorem map_package_turns
    (options : Options)
    (host : Host)
    (packages : List String) :
    (turns options host packages).map (·.package) = packages := by
  induction packages generalizing host with
  | nil =>
      rfl
  | cons package rest ih =>
      rw [turns, List.map_cons, ih]

theorem environment_of_mem_turns
    {host : Host}
    {packages : List String}
    {turn : Turn}
    (h : turn ∈ turns options host packages) :
    turn.host.environment = host.environment := by
  induction packages generalizing host with
  | nil =>
      cases h
  | cons package rest ih =>
      rw [turns, List.mem_cons] at h
      rcases h with rfl | h
      · rfl
      · rw [ih h]

theorem colored_of_mem_turns
    {host : Host}
    {packages : List String}
    {turn : Turn}
    (h : turn ∈ turns options host packages) :
    colored turn.host options = colored host options :=
  colored_congr options (environment_of_mem_turns h)

/-- Packages whose validation leaves the files as they are all have their turns on the same host. -/
theorem turns_eq_map
    {host : Host}
    {packages : List String}
    (h : ∀ package ∈ packages, (Turn.alone ⟨host, package⟩ options).files = host.files) :
    turns options host packages = packages.map (Turn.mk host) := by
  induction packages with
  | nil =>
      rfl
  | cons package rest ih =>
      obtain ⟨hfirst, hrest⟩ := List.forall_mem_cons.1 h
      rw [turns, hfirst, ih hrest, List.map_cons]

theorem validateEach_cons
    {host : Host}
    {package : String}
    {report : Report}
    (hreport : Validation.run host config package = .ok report)
    (rest : List String) :
    validateEach config host (package :: rest) =
      let others := validateEach config (Validation.hostAfter host config package) rest
      (report :: others.1, others.2) := by
  conv_lhs => unfold validateEach
  rw [hreport]

theorem validateEach_cons_of_error
    {host : Host}
    {package : String}
    {error : RunError}
    (herror : Validation.run host config package = .error error)
    (rest : List String) :
    validateEach config host (package :: rest) = ([], some error, host) := by
  unfold validateEach
  rw [herror]

/--
The packages up to some turn are validated in their turns.  What follows is validated from the host
of the next turn on.
-/
theorem validateEach_append
    {host : Host}
    {packages : List String}
    {before after : List Turn}
    {reports : List Report}
    (hconfig : ∀ turn ∈ turns options host packages, loadConfig turn.host options = .ok config)
    (hturns : turns options host packages = before ++ after)
    (hreports : before.map (·.report config) = reports.map .ok) :
    ∃ next rest, turns options next rest = after ∧
      (validateEach config host packages).1 = reports ++ (validateEach config next rest).1 ∧
      (validateEach config host packages).2 = (validateEach config next rest).2 := by
  induction before generalizing host packages reports with
  | nil =>
      have hnone : reports = [] := List.map_eq_nil_iff.1 hreports.symm
      exact ⟨host, packages, hturns, by rw [hnone, List.nil_append], rfl⟩
  | cons turn before ih =>
      cases packages with
      | nil =>
          cases hturns
      | cons package packages =>
          rw [turns, List.cons_append, List.cons_eq_cons] at hturns
          obtain ⟨rfl, hrest⟩ := hturns
          rw [turns] at hconfig
          obtain ⟨hfirst, hconfig⟩ := List.forall_mem_cons.1 hconfig
          cases reports with
          | nil =>
              cases hreports
          | cons report reports =>
              rw [List.map_cons, List.map_cons, List.cons_eq_cons] at hreports
              obtain ⟨hreport, hreports⟩ := hreports
              obtain ⟨next, rest, hnext, hall, hend⟩ := ih hconfig hrest hreports
              -- The host that the turn leaves behind alone is the one for the packages after it.
              rw [(Turn.alone_of_report hfirst hreport).2.2] at hall hend
              rw [validateEach_cons hreport]
              refine ⟨next, rest, hnext, ?_, hend⟩
              rw [List.cons_append, ← hall]

/-- When all packages allow a report, these are the reports. -/
theorem validateEach_of_reports
    {host : Host}
    {packages : List String}
    {reports : List Report}
    (hconfig : ∀ turn ∈ turns options host packages, loadConfig turn.host options = .ok config)
    (hreports : (turns options host packages).map (·.report config) = reports.map .ok) :
    ∃ after, validateEach config host packages = (reports, none, after) := by
  obtain ⟨next, rest, hnext, hall, hend⟩ :=
    validateEach_append hconfig (List.append_nil _).symm hreports
  cases rest with
  | nil =>
      refine ⟨next, Prod.ext ?_ hend⟩
      rw [hall]
      exact List.append_nil reports
  | cons package rest =>
      cases hnext

/-- The first package that allows no report ends the run. -/
theorem validateEach_of_error
    {host : Host}
    {packages : List String}
    {before after : List Turn}
    {turn : Turn}
    {reports : List Report}
    {error : RunError}
    (hconfig : ∀ turn ∈ turns options host packages, loadConfig turn.host options = .ok config)
    (hturns : turns options host packages = before ++ turn :: after)
    (hreports : before.map (·.report config) = reports.map .ok)
    (herror : turn.report config = .error error) :
    ∃ last, validateEach config host packages = (reports, some error, last) := by
  obtain ⟨next, rest, hnext, hall, hend⟩ := validateEach_append hconfig hturns hreports
  cases rest with
  | nil =>
      cases hnext
  | cons package rest =>
      rw [turns, List.cons_eq_cons] at hnext
      obtain ⟨rfl, -⟩ := hnext
      rw [validateEach_cons_of_error herror] at hall hend
      exact ⟨next, Prod.ext (hall.trans (List.append_nil reports)) hend⟩

theorem exists_reports
    {ts : List Turn}
    (h : ∀ turn ∈ ts, ∃ report, turn.report config = .ok report) :
    ∃ reports : List Report, ts.map (·.report config) = reports.map .ok := by
  induction ts with
  | nil =>
      exact ⟨[], rfl⟩
  | cons turn rest ih =>
      obtain ⟨⟨report, hreport⟩, hrest⟩ := List.forall_mem_cons.1 h
      obtain ⟨reports, hreports⟩ := ih hrest
      exact ⟨report :: reports, by rw [List.map_cons, List.map_cons, hreport, hreports]⟩

/-- The reports of turns are printed as they are alone, and give the same exit codes. -/
theorem map_alone_of_reports
    {host : Host}
    {ts : List Turn}
    {reports : List Report}
    (hconfig : ∀ turn ∈ ts, loadConfig turn.host options = .ok config)
    (hcolored : ∀ turn ∈ ts, colored turn.host options = colored host options)
    (hreports : ts.map (·.report config) = reports.map .ok) :
    ts.map (fun turn => (turn.alone options).output) =
        reports.map (·.printed (options.format.getD .pretty) (colored host options)) ∧
      ts.map (fun turn => (turn.alone options).exitCode) = reports.map (·.exitCode) := by
  induction ts generalizing reports with
  | nil =>
      have hnone : reports = [] := List.map_eq_nil_iff.1 hreports.symm
      rw [hnone]
      exact ⟨rfl, rfl⟩
  | cons turn rest ih =>
      cases reports with
      | nil =>
          cases hreports
      | cons report reports =>
          rw [List.map_cons, List.map_cons, List.cons_eq_cons] at hreports
          obtain ⟨hfirst, hconfig⟩ := List.forall_mem_cons.1 hconfig
          obtain ⟨hcolor, hcolored⟩ := List.forall_mem_cons.1 hcolored
          obtain ⟨hcode, houtput, -⟩ := Turn.alone_of_report hfirst hreports.1
          obtain ⟨houtputs, hcodes⟩ := ih hconfig hcolored hreports.2
          simp only [List.map_cons, hcode, houtput, hcolor, houtputs, hcodes, and_self]

end Turns

section Run

variable {host : Host}
variable {options : Options}
variable {path : String}
variable {config : Config}

/-- What a run leaves behind when all packages allow a report. -/
theorem runValidateAll_of_reports
    {reports : List Report}
    {after : Host}
    (hpackages : Collection.packages host.files path ≠ [])
    (hload : loadConfig host options = .ok config)
    (heach : validateEach config host (Collection.packages host.files path) =
      (reports, none, after)) :
    runValidateAll host options path =
      { exitCode := if reports.all (·.passed) then 0 else 1
        output := printedAll host options reports ++ summaryText host options path reports
        files := after.files } := by
  have hdirectory := Collection.isDirectory_of_packages_ne_nil hpackages
  have hsome := List.isEmpty_eq_false_iff.2 hpackages
  simp only [runValidateAll, hdirectory, hsome, hload, heach, Bool.not_true, Bool.false_eq_true,
    if_false]

/-- What a run leaves behind when a package allows no report. -/
theorem runValidateAll_of_error
    {reports : List Report}
    {error : RunError}
    {after : Host}
    (hpackages : Collection.packages host.files path ≠ [])
    (hload : loadConfig host options = .ok config)
    (heach : validateEach config host (Collection.packages host.files path) =
      (reports, some error, after)) :
    runValidateAll host options path =
      { exitCode := error.exitCode
        output := printedAll host options reports ++ failureLine error
        files := after.files } := by
  have hdirectory := Collection.isDirectory_of_packages_ne_nil hpackages
  have hsome := List.isEmpty_eq_false_iff.2 hpackages
  simp only [runValidateAll, hdirectory, hsome, hload, heach, Bool.not_true, Bool.false_eq_true,
    if_false]

theorem loadConfig_of_turns
    {packages : List String}
    (hpackages : packages ≠ [])
    (hconfig : ∀ turn ∈ turns options host packages, loadConfig turn.host options = .ok config) :
    loadConfig host options = .ok config := by
  cases packages with
  | nil =>
      exact absurd rfl hpackages
  | cons package rest =>
      rw [turns] at hconfig
      exact (List.forall_mem_cons.1 hconfig).1

/-- When all packages allow a report, both the run and the packages alone pass if the reports do. -/
theorem exitCode_runValidateAll_eq_zero_iff
    {reports : List Report}
    (hpackages : Collection.packages host.files path ≠ [])
    (hconfig : ∀ turn ∈ turns options host (Collection.packages host.files path),
      loadConfig turn.host options = .ok config)
    (hreports : (turns options host (Collection.packages host.files path)).map (·.report config) =
      reports.map .ok) :
    ((runValidateAll host options path).exitCode = 0 ↔
      ∀ report ∈ reports, report.passed = true) ∧
    ((∀ turn ∈ turns options host (Collection.packages host.files path),
        (turn.alone options).exitCode = 0) ↔
      ∀ report ∈ reports, report.passed = true) := by
  obtain ⟨after, heach⟩ := validateEach_of_reports hconfig hreports
  obtain ⟨-, hcodes⟩ :=
    map_alone_of_reports hconfig (fun _ hturn => colored_of_mem_turns hturn) hreports
  have houtcome :=
    runValidateAll_of_reports hpackages (loadConfig_of_turns hpackages hconfig) heach
  refine ⟨by simp [houtcome], ?_⟩
  calc (∀ turn ∈ turns options host (Collection.packages host.files path),
        (turn.alone options).exitCode = 0)
    _ ↔ ∀ code ∈ (turns options host (Collection.packages host.files path)).map
          (fun turn => (turn.alone options).exitCode), code = 0 := by rw [List.forall_mem_map]
    _ ↔ ∀ code ∈ reports.map (·.exitCode), code = 0 := by rw [hcodes]
    _ ↔ ∀ report ∈ reports, report.passed = true := by simp [Report.exitCode]

/--
A collection with packages, whose configuration is loaded and is the same in every turn.  The
packages are the directories of the collection, links apart, that hold an entry document, in the
order of the bytes of their names; they all have their turns on the host itself when validating a
package leaves the files as they are.

When each package alone allows a report, what is printed is what is printed for each package alone,
and after it, for people only, the summary of the reports.  The run exits with zero if each package
alone does, and with one otherwise.  Every report is counted under one verdict, and none as failed
if the run exits with zero.

When a package allows no report, what is printed for the packages before it is followed by the line
that says why, and the run exits with the code for that.
-/
theorem runValidateAll_agrees
    (hpackages : Collection.packages host.files path ≠ [])
    (hconfig : ∀ turn ∈ turns options host (Collection.packages host.files path),
      loadConfig turn.host options = .ok config) :
    let packages := Collection.packages host.files path
    let inTurn := turns options host packages
    let outcome := runValidateAll host options path
    (∃ names : List String, packages = names.map (Path.join path) ∧
      names.Pairwise (fun a b => Text.Utf8.encode a < Text.Utf8.encode b) ∧
      ∀ name, name ∈ names ↔ Collection.HoldsPackage host.files path name) ∧
    inTurn.map (·.package) = packages ∧
    ((∀ package ∈ packages, (Turn.alone ⟨host, package⟩ options).files = host.files) →
      inTurn = packages.map (Turn.mk host)) ∧
    (∀ reports : List Report, inTurn.map (·.report config) = reports.map .ok →
      outcome.output =
        String.join (inTurn.map fun turn => (turn.alone options).output) ++
          (if options.format.getD .pretty = .pretty then
            Span.renderAll (colored host options) (Collection.summary path reports)
          else "") ∧
      (outcome.exitCode = 0 ↔ ∀ turn ∈ inTurn, (turn.alone options).exitCode = 0) ∧
      (outcome.exitCode = 0 ∨ outcome.exitCode = 1) ∧
      Span.renderAll false (Collection.summary path reports) =
        Collection.summaryText path reports ∧
      Collection.tally reports .failed + Collection.tally reports .warning +
        Collection.tally reports .passed = packages.length ∧
      (Collection.tally reports .failed = 0 ↔ outcome.exitCode = 0)) ∧
    (∀ (before : List Turn) (turn : Turn) (after : List Turn) (error : RunError),
      inTurn = before ++ turn :: after →
      (∀ earlier ∈ before, ∃ report, earlier.report config = .ok report) →
      turn.report config = .error error →
      outcome.output =
        String.join (before.map fun earlier => (earlier.alone options).output) ++
          failureLine error ∧
      outcome.exitCode = error.exitCode ∧
      (turn.alone options).output = failureLine error ∧
      (turn.alone options).exitCode = error.exitCode) := by
  intro packages inTurn outcome
  have hload := loadConfig_of_turns hpackages hconfig
  refine ⟨Collection.packages_eq host.files path, map_package_turns options host packages,
    turns_eq_map, ?_, ?_⟩
  · intro reports hreports
    obtain ⟨after, heach⟩ := validateEach_of_reports hconfig hreports
    have houtcome := runValidateAll_of_reports hpackages hload heach
    obtain ⟨houtputs, -⟩ :=
      map_alone_of_reports hconfig (fun _ hturn => colored_of_mem_turns hturn) hreports
    obtain ⟨hcode, halone⟩ := exitCode_runValidateAll_eq_zero_iff hpackages hconfig hreports
    have hlength : reports.length = packages.length := by
      rw [← map_package_turns options host packages]
      simpa using (congrArg List.length hreports).symm
    refine ⟨?_, hcode.trans halone.symm, ?_, Collection.renderAll_summary path reports, ?_,
      Collection.tally_failed_eq_zero_iff.trans hcode.symm⟩
    · rw [houtputs]
      simp only [outcome, houtcome, printedAll, summaryText]
    · simp only [outcome, houtcome]
      split_ifs <;> simp
    · rw [Collection.tally_sum, hlength]
  · intro before turn after error hturns hbefore herror
    obtain ⟨reports, hreports⟩ := exists_reports hbefore
    obtain ⟨last, heach⟩ := validateEach_of_error hconfig hturns hreports herror
    have houtcome := runValidateAll_of_error hpackages hload heach
    -- Only the turns up to the one that fails are known to allow or to refuse a report.
    have hturn : ∀ earlier ∈ before, earlier ∈ inTurn := by
      intro earlier hearlier
      rw [hturns]
      exact List.mem_append_left _ hearlier
    have hlast : turn ∈ inTurn := by
      rw [hturns]
      exact List.mem_append_right _ List.mem_cons_self
    obtain ⟨houtputs, -⟩ :=
      map_alone_of_reports (fun earlier hearlier => hconfig earlier (hturn earlier hearlier))
        (fun earlier hearlier => colored_of_mem_turns (hturn earlier hearlier)) hreports
    obtain ⟨hcode, houtput⟩ := Turn.alone_of_error (hconfig turn hlast) herror
    refine ⟨?_, ?_, houtput, hcode⟩
    · rw [houtputs]
      simp only [outcome, houtcome, printedAll]
    · simp only [outcome, houtcome]

end Run

section Shelf

def plainText : String := "---\nname: a\ndescription: b\n---\n"

def plainNode : Node :=
  .directory [(Contract.entryFile, .file { bytes := Text.toBytes plainText.toList })]

def bareNode : Node :=
  .directory [(Contract.entryFile, .file { bytes := [] })]

def shelfEntries : List (String × Node) :=
  [("a", plainNode), ("b", plainNode), ("z", .link "../d")]

/-- A host with a collection of two packages and a link to a third one, which stands elsewhere. -/
def shelf : Host where
  files :=
    { root := .directory [("c", .directory shelfEntries), ("d", bareNode)]
      workingDirectory := []
      ordered := by
        simp only [shelfEntries, plainNode, bareNode, Node.Ordered, Node.OrderedEntries]
        decide }
  programs := []
  environment := []

theorem trail_shelf : shelf.files.trail "/c" = .ok [("c", .directory shelfEntries)] := by
  have hjoin : "/c" = Path.join "/" "c" := by
    decide
  rw [hjoin]
  exact FileSystem.trail_join (FileSystem.trail_root rfl) rfl (by decide) (by decide) (by decide)
    rfl (fun _ h => nomatch h)

theorem loadConfig_shelf : loadConfig shelf {} = .ok {} := by
  have hstart : shelf.files.workingTrail = .ok [] := rfl
  have habsent : shelf.files.trail Config.defaultFile = .error .notFound :=
    FileSystem.trail_name_of_absent hstart rfl (by decide) (by decide) (by decide) rfl
  simp only [loadConfig, Config.load, FileSystem.pathExists, habsent]
  rfl

def shelfPackage (name : String) : Package where
  root := Path.join "/c" name
  name
  document := some (Document.ofText plainText)
  files := [[Contract.entryFile]]
  topLevel := [Contract.entryFile]
  exclusions := none

variable {name : String}

theorem trail_shelf_package
    (hname : name = "a" ∨ name = "b") :
    shelf.files.trail (Path.join "/c" name) =
      .ok [(name, plainNode), ("c", .directory shelfEntries)] := by
  rcases hname with rfl | rfl
  all_goals
    exact FileSystem.trail_join trail_shelf rfl (by decide) (by decide) (by decide) rfl
      (fun _ h => nomatch h)

theorem package_shelf
    (hname : name = "a" ∨ name = "b") :
    Validation.package shelf.files (Path.join "/c" name) = .ok (shelfPackage name) := by
  have htrail := trail_shelf_package hname
  have habsolute : Path.absolute (FileSystem.Trail.names
      [(name, plainNode), ("c", .directory shelfEntries)]) = Path.join "/c" name := by
    rcases hname with rfl | rfl <;> decide
  have hnameOf : Package.nameOf (Path.join "/c" name) = name := by
    rcases hname with rfl | rfl <;> decide
  have htext : Text.Utf8.decodeLenient (Text.toBytes plainText.toList) = plainText := by
    have hshown : Text.shown plainText.toList = _ := Text.shown_of_ascii (by simp [plainText])
    rwa [String.ofList_toList] at hshown
  rw [Validation.package_of_trail htrail rfl, habsolute, Package.load_of_entry_only htrail rfl,
    htext, hnameOf]
  · rfl
  all_goals
    rcases hname with rfl | rfl <;> decide

theorem isAccepted_shelf
    (hname : name = "a" ∨ name = "b") :
    Collection.IsAccepted shelf.files (Path.join "/c" name) := by
  have htrail := trail_shelf_package hname
  have hfits : FileSystem.Fits (Path.join (Path.join "/c" name) Contract.entryFile) := by
    rcases hname with rfl | rfl <;> decide
  have hentry := FileSystem.trail_join htrail rfl (by decide) (by decide) hfits rfl
    (fun _ h => nomatch h)
  constructor
  · rw [FileSystem.isDirectory, FileSystem.node_eq_ok_iff.2 ⟨_, htrail, rfl⟩]
    rfl
  · rw [FileSystem.isFile, FileSystem.node_eq_ok_iff.2 ⟨_, hentry, rfl⟩]
    rfl

theorem packages_shelf :
    Collection.packages shelf.files "/c" = ["a", "b"].map (Path.join "/c") := by
  have hdirectories : Collection.directoriesIn shelf.files "/c" = ["a", "b"] := by
    rw [Collection.directoriesIn, FileSystem.node_eq_ok_iff.2 ⟨_, trail_shelf, rfl⟩]
    decide
  rw [Collection.packages, hdirectories, List.filter_eq_self, List.forall_mem_map]
  intro name hmem
  exact (isAccepted_shelf (by simpa using hmem)).2

/-- The report on a package without scripts. -/
theorem report_of_package
    {path : String}
    {package : Package}
    {document : Document}
    (hpackage : Validation.package shelf.files path = .ok package)
    (hdocument : package.document = some document)
    (hjobs : Script.jobs package = []) :
    Turn.report ⟨shelf, path⟩ {} = .ok {
      name := package.name
      diagnostics := runChecks Layout.rootChecks package ++
        runChecks Layout.referenceChecks package ++ Evaluation.textual {} document
      strict := false } := by
  have hscripts : ∀ tools, Script.diagnostics tools {} package = [] := by
    intro tools
    rw [Script.diagnostics, hjobs, List.filterMap_nil]
  rw [Turn.report, Validation.run, hpackage]
  simp only [bind, Except.bind, pure, Except.pure, Evaluation.diagnostics, hdocument,
    Evaluation.structural, hscripts, Evaluation.whenOn, if_true, List.append_nil]

theorem report_shelf
    (hname : name = "a" ∨ name = "b") :
    ∃ report, Turn.report ⟨shelf, Path.join "/c" name⟩ {} = .ok report ∧ report.passed = true := by
  refine ⟨_, report_of_package (package_shelf hname) rfl rfl, ?_⟩
  rcases hname with rfl | rfl <;> decide +kernel

theorem files_alone_shelf
    (hname : name = "a" ∨ name = "b") :
    (Turn.alone ⟨shelf, Path.join "/c" name⟩ {}).files = shelf.files := by
  obtain ⟨report, hreport, -⟩ := report_shelf hname
  obtain ⟨-, -, hafter⟩ := Turn.alone_of_report loadConfig_shelf hreport
  have hcalls : ∀ tools, Evaluation.calls tools {} (shelfPackage name) = [] := by
    intro tools
    have hjobs : Script.jobs (shelfPackage name) = [] := rfl
    simp only [Evaluation.calls, Evaluation.structuralCalls, Script.calls, hjobs,
      List.filterMap_nil, ite_self]
    rfl
  have hhost : Validation.hostAfter shelf {} (Path.join "/c" name) = shelf := by
    rw [Validation.hostAfter, package_shelf hname]
    simp only [hcalls]
    rfl
  exact congrArg (fun host => host.files) (hafter.trans hhost)

/-- The packages of the collection have their turns on the same host, and they pass. -/
theorem turns_shelf :
    turns {} shelf (Collection.packages shelf.files "/c") =
      [⟨shelf, "/c/a"⟩, ⟨shelf, "/c/b"⟩] ∧
    ∀ turn ∈ turns {} shelf (Collection.packages shelf.files "/c"),
      loadConfig turn.host {} = .ok {} ∧
        (∃ report, turn.report {} = .ok report) ∧ (turn.alone {}).exitCode = 0 := by
  have hnames : ∀ name ∈ ["a", "b"], name = "a" ∨ name = "b" := by
    simp
  have hturns : turns {} shelf (Collection.packages shelf.files "/c") =
      (Collection.packages shelf.files "/c").map (Turn.mk shelf) := by
    refine turns_eq_map ?_
    rw [packages_shelf, List.forall_mem_map]
    exact fun name hmem => files_alone_shelf (hnames name hmem)
  rw [hturns, packages_shelf, List.map_map, List.forall_mem_map]
  refine ⟨rfl, fun name hmem => ?_⟩
  obtain ⟨report, hreport, hpassed⟩ := report_shelf (hnames name hmem)
  refine ⟨loadConfig_shelf, ⟨report, hreport⟩, ?_⟩
  simp only [Function.comp_apply, (Turn.alone_of_report loadConfig_shelf hreport).1,
    Report.exitCode, hpassed, if_true]

/-- Both packages pass, one after the other; the link is not validated. -/
theorem runValidateAll_shelf :
    Collection.packages shelf.files "/c" = ["/c/a", "/c/b"] ∧
    (runValidateAll shelf {} "/c").exitCode = 0 ∧
    ∃ reports : List Report, reports.length = 2 ∧
      (runValidateAll shelf {} "/c").output =
        String.join [(Turn.alone ⟨shelf, "/c/a"⟩ {}).output,
          (Turn.alone ⟨shelf, "/c/b"⟩ {}).output] ++
          Span.renderAll false (Collection.summary "/c" reports) := by
  obtain ⟨hturns, hshelf⟩ := turns_shelf
  have hpackages : Collection.packages shelf.files "/c" ≠ [] := by
    rw [packages_shelf]
    exact List.cons_ne_nil _ _
  obtain ⟨-, -, -, hagrees, -⟩ :=
    runValidateAll_agrees hpackages fun turn hturn => (hshelf turn hturn).1
  obtain ⟨reports, hreports⟩ := exists_reports fun turn hturn => (hshelf turn hturn).2.1
  obtain ⟨houtput, hcode, -⟩ := hagrees reports hreports
  rw [hturns] at houtput hreports
  refine ⟨packages_shelf, hcode.2 fun turn hturn => (hshelf turn hturn).2.2, reports, ?_, houtput⟩
  simpa using (congrArg List.length hreports).symm

end Shelf

end Command
end SkillAudit
