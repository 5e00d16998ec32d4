import Mathlib.Data.List.Basic
import SkillAudit.Proofs.Command.CollectionRun

/-!
# The packages that a collection is validated with

The packages of a collection are chosen by what its entries are.  A package alone is chosen by what
its path leads to.  For an entry that is no link the two are the same, so that it is validated with
the collection if it would be validated alone.  A link to a package is validated alone and is passed
over in the collection: its diagnostics do not count there.

* `reports_of_validateEach`: by induction on the packages, all of them have reports in their turns.
* `exitCode_alone_of_mem_turns`: the packages of a collection that passes pass in their turns.
* `output_or_error_of_turns`: what is printed in a turn, or why nothing is.
* `runValidateAll_covers`: what a run on a collection covers.
-/

namespace SkillAudit

theorem RunError.exitCode_ne_zero (error : RunError) : error.exitCode ≠ 0 := by
  unfold exitCode
  split <;> decide

namespace Command

section Coverage

variable {host : Host}
variable {options : Options}
variable {path : String}
variable {config : Config}

/-- If no package ends the run early, all of them have reports in their turns. -/
theorem reports_of_validateEach
    {packages : List String}
    (hconfig : ∀ turn ∈ turns options host packages, loadConfig turn.host options = .ok config)
    (heach : (validateEach config host packages).2.1 = none) :
    (turns options host packages).map (·.report config) =
      (validateEach config host packages).1.map .ok := by
  induction packages generalizing host with
  | nil =>
      rfl
  | cons package rest ih =>
      rw [turns] at hconfig
      obtain ⟨hfirst, hrest⟩ := List.forall_mem_cons.1 hconfig
      cases hreport : Validation.run host config package with
      | error error =>
          rw [validateEach_cons_of_error hreport] at heach
          cases heach
      | ok report =>
          have hafter := (Turn.alone_of_report hfirst hreport).2.2
          rw [validateEach_cons hreport, ← hafter] at heach
          rw [turns, List.map_cons, ih hrest heach, validateEach_cons hreport, ← hafter,
            List.map_cons, Turn.report, hreport]

/-- A collection that passes has packages that pass in their turns. -/
theorem exitCode_alone_of_mem_turns
    {turn : Turn}
    (hpackages : Collection.packages host.files path ≠ [])
    (hconfig : ∀ turn ∈ turns options host (Collection.packages host.files path),
      loadConfig turn.host options = .ok config)
    (hpass : (runValidateAll host options path).exitCode = 0)
    (hturn : turn ∈ turns options host (Collection.packages host.files path)) :
    (turn.alone options).exitCode = 0 := by
  have hload := loadConfig_of_turns hpackages hconfig
  rcases heach : validateEach config host (Collection.packages host.files path) with
    ⟨reports, failure, after⟩
  cases failure with
  | some error =>
      rw [runValidateAll_of_error hpackages hload heach] at hpass
      -- A run that was ended early does not pass, whatever the reports before its end.
      exact absurd hpass error.exitCode_ne_zero
  | none =>
      have hreports := reports_of_validateEach hconfig (by rw [heach])
      obtain ⟨hrun, halone⟩ := exitCode_runValidateAll_eq_zero_iff hpackages hconfig hreports
      exact halone.2 (hrun.1 hpass) turn hturn

/-- Of some turns either all allow a report, or there is a first one that allows none. -/
theorem exists_reports_or_first_error
    (config : Config)
    (ts : List Turn) :
    (∀ turn ∈ ts, ∃ report, turn.report config = .ok report) ∨
      ∃ before turn after error, ts = before ++ turn :: after ∧
        (∀ earlier ∈ before, ∃ report, earlier.report config = .ok report) ∧
        turn.report config = .error error := by
  induction ts with
  | nil =>
      exact Or.inl (List.forall_mem_nil _)
  | cons turn rest ih =>
      cases hreport : turn.report config with
      | error error =>
          exact Or.inr ⟨[], turn, rest, error, rfl, List.forall_mem_nil _, hreport⟩
      | ok report =>
          rcases ih with hall | ⟨before, other, after, error, rfl, hbefore, herror⟩
          · exact Or.inl (List.forall_mem_cons.2 ⟨⟨report, hreport⟩, hall⟩)
          · exact Or.inr ⟨turn :: before, other, after, error, rfl,
              List.forall_mem_cons.2 ⟨⟨report, hreport⟩, hbefore⟩, herror⟩

/-- What is printed starts with what is printed for the packages of the first turns alone, as long
as these allow a report. -/
theorem output_of_reports
    {before after : List Turn}
    (hpackages : Collection.packages host.files path ≠ [])
    (hconfig : ∀ turn ∈ turns options host (Collection.packages host.files path),
      loadConfig turn.host options = .ok config)
    (hturns : turns options host (Collection.packages host.files path) = before ++ after)
    (hbefore : ∀ turn ∈ before, ∃ report, turn.report config = .ok report) :
    ∃ rest, (runValidateAll host options path).output =
      String.join (before.map fun turn => (turn.alone options).output) ++ rest := by
  have hload := loadConfig_of_turns hpackages hconfig
  have hturn : ∀ turn ∈ before,
      turn ∈ turns options host (Collection.packages host.files path) := by
    intro turn hmem
    rw [hturns]
    exact List.mem_append_left _ hmem
  obtain ⟨reports, hreports⟩ := exists_reports hbefore
  obtain ⟨next, rest, -, hall, -⟩ := validateEach_append hconfig hturns hreports
  obtain ⟨houtputs, -⟩ :=
    map_alone_of_reports (fun turn hmem => hconfig turn (hturn turn hmem))
      (fun turn hmem => colored_of_mem_turns (hturn turn hmem)) hreports
  -- The reports are printed in one piece, whether or not a later package ends the run.
  obtain ⟨more, hmore⟩ : ∃ more, (runValidateAll host options path).output =
      printedAll host options
        (reports ++ (validateEach config next rest).1) ++ more := by
    rw [← hall]
    rcases heach : validateEach config host (Collection.packages host.files path) with
      ⟨found, failure, after⟩
    cases failure with
    | some error => exact ⟨_, by rw [runValidateAll_of_error hpackages hload heach]⟩
    | none => exact ⟨_, by rw [runValidateAll_of_reports hpackages hload heach]⟩
  refine ⟨printedAll host options (validateEach config next rest).1 ++ more, ?_⟩
  rw [hmore, houtputs]
  simp only [printedAll, List.map_append, String.join_append, String.append_assoc]

/-- What is printed for a package alone is printed for it in its turn, behind what is printed for
the packages before it, unless one of these or the package itself allows no report, which ends the
run. -/
theorem output_or_error_of_turns
    {before after : List Turn}
    {turn : Turn}
    (hpackages : Collection.packages host.files path ≠ [])
    (hconfig : ∀ turn ∈ turns options host (Collection.packages host.files path),
      loadConfig turn.host options = .ok config)
    (hturns : turns options host (Collection.packages host.files path) =
      before ++ turn :: after) :
    ((∃ report, turn.report config = .ok report) ∧
      ∃ rest, (runValidateAll host options path).output =
        String.join (before.map fun earlier => (earlier.alone options).output) ++
          (turn.alone options).output ++ rest) ∨
    ∃ other ∈ before ++ [turn], ∃ error, other.report config = .error error ∧
      (runValidateAll host options path).exitCode = error.exitCode := by
  have hsplit : turns options host (Collection.packages host.files path) =
      (before ++ [turn]) ++ after := by
    rw [hturns, List.append_assoc, List.singleton_append]
  rcases exists_reports_or_first_error config (before ++ [turn]) with
    hall | ⟨front, other, back, error, hfirst, hfront, herror⟩
  · obtain ⟨rest, houtput⟩ := output_of_reports hpackages hconfig hsplit hall
    refine Or.inl ⟨hall turn (List.mem_append_right _ List.mem_cons_self), rest, ?_⟩
    rw [houtput, List.map_append, String.join_append]
    rfl
  · refine Or.inr ⟨other, ?_, error, herror, ?_⟩
    · rw [hfirst]
      exact List.mem_append_right _ List.mem_cons_self
    · obtain ⟨reports, hreports⟩ := exists_reports hfront
      rw [hfirst, List.append_assoc, List.cons_append] at hsplit
      obtain ⟨last, heach⟩ := validateEach_of_error hconfig hsplit hreports herror
      rw [runValidateAll_of_error hpackages (loadConfig_of_turns hpackages hconfig) heach]

/--
The entries of a collection that are accepted as packages when they are validated alone.  They are
packages of the collection exactly if they are no links.  When a run on the collection passes, those
that are no links pass alone in their turns.  Whether or not it passes, what is printed for each of
these alone is printed for it in its turn, unless it or one before it allows no report and so ends
the run.  Nothing is said of the links.
-/
theorem runValidateAll_covers
    {entries : List (String × Node)}
    (hnode : host.files.node path = .ok (.directory entries))
    (hnames : ∀ entry ∈ entries, Path.IsEntryName entry.1) :
    (∀ entry ∈ entries, Collection.IsAccepted host.files (Path.join path entry.1) →
      (Path.join path entry.1 ∈ Collection.packages host.files path ↔
        ∀ target, entry.2 ≠ .link target)) ∧
    (∀ config, (∀ turn ∈ turns options host (Collection.packages host.files path),
        loadConfig turn.host options = .ok config) →
      (runValidateAll host options path).exitCode = 0 →
      ∀ entry ∈ entries, Collection.IsAccepted host.files (Path.join path entry.1) →
        (∀ target, entry.2 ≠ .link target) →
        ∃ turn ∈ turns options host (Collection.packages host.files path),
          turn.package = Path.join path entry.1 ∧
          (turn.alone options).exitCode = 0) ∧
    (∀ config, (∀ turn ∈ turns options host (Collection.packages host.files path),
        loadConfig turn.host options = .ok config) →
      ∀ entry ∈ entries, Collection.IsAccepted host.files (Path.join path entry.1) →
        (∀ target, entry.2 ≠ .link target) →
        ∃ before turn after,
          turns options host (Collection.packages host.files path) = before ++ turn :: after ∧
          turn.package = Path.join path entry.1 ∧
          (((∃ report, turn.report config = .ok report) ∧
            ∃ rest, (runValidateAll host options path).output =
              String.join (before.map fun earlier => (earlier.alone options).output) ++
                (turn.alone options).output ++ rest) ∨
          ∃ other ∈ before ++ [turn], ∃ error, other.report config = .error error ∧
            (runValidateAll host options path).exitCode = error.exitCode)) := by
  have hmem : ∀ entry ∈ entries, Collection.IsAccepted host.files (Path.join path entry.1) →
      (∀ target, entry.2 ≠ .link target) →
      Path.join path entry.1 ∈ Collection.packages host.files path :=
    fun entry hentry haccepted hlink =>
      Collection.mem_packages_of_isAccepted hnode hentry (hnames entry hentry) hlink haccepted
  have hturn : ∀ package ∈ Collection.packages host.files path,
      ∃ turn ∈ turns options host (Collection.packages host.files path),
        turn.package = package := by
    intro package hpackage
    rw [← map_package_turns options host (Collection.packages host.files path)] at hpackage
    exact List.mem_map.1 hpackage
  refine ⟨?_, ?_, ?_⟩
  · intro entry hentry haccepted
    exact ⟨Collection.ne_link_of_mem_packages hnode hnames hentry, hmem entry hentry haccepted⟩
  · intro config hconfig hpass entry hentry haccepted hlink
    have hpackage := hmem entry hentry haccepted hlink
    obtain ⟨turn, hinTurn, hsame⟩ := hturn _ hpackage
    exact ⟨turn, hinTurn, hsame,
      exitCode_alone_of_mem_turns (List.ne_nil_of_mem hpackage) hconfig hpass hinTurn⟩
  · intro config hconfig entry hentry haccepted hlink
    have hpackage := hmem entry hentry haccepted hlink
    obtain ⟨turn, hinTurn, hsame⟩ := hturn _ hpackage
    obtain ⟨before, after, hturns⟩ := List.append_of_mem hinTurn
    exact ⟨before, turn, after, hturns, hsame,
      output_or_error_of_turns (List.ne_nil_of_mem hpackage) hconfig hturns⟩

theorem node_shelf : shelf.files.node "/c" = .ok (.directory shelfEntries) :=
  FileSystem.node_eq_ok_iff.2 ⟨_, trail_shelf, rfl⟩

theorem exitCode_runValidateAll_shelf : (runValidateAll shelf {} "/c").exitCode = 0 := by
  have hpackages : Collection.packages shelf.files "/c" ≠ [] := by
    rw [packages_shelf]
    exact List.cons_ne_nil _ _
  obtain ⟨-, hshelf⟩ := turns_shelf
  obtain ⟨reports, hreports⟩ := exists_reports fun turn hturn => (hshelf turn hturn).2.1
  obtain ⟨hrun, halone⟩ := exitCode_runValidateAll_eq_zero_iff hpackages
    (fun turn hturn => (hshelf turn hturn).1) hreports
  exact hrun.2 (halone.1 fun turn hturn => (hshelf turn hturn).2.2)

theorem trail_shelf_link : shelf.files.trail "/c/z" = .ok [("d", bareNode)] := by
  have hsteps : FileSystem.stepsOf "/c/z" = ["c", "z"] ∧
      FileSystem.stepsOf "../d" = ["..", "d"] := by
    decide
  have habsolute : Path.isAbsolute "/c/z" = true ∧ Path.isAbsolute "../d" = false := by
    decide
  have hshort : ∀ name ∈ ["c", "z", "d"], ¬ FileSystem.nameLimit < name.utf8ByteSize := by
    decide
  rw [FileSystem.trail_eq_ok_iff, FileSystem.land_of_fits (by decide) (by decide), hsteps.1]
  simp [FileSystem.follow, FileSystem.nodeAt, shelf, shelfEntries, bareNode, Node.find?,
    FileSystem.linkLimit, habsolute, hsteps, hshort]

theorem isAccepted_shelf_link : Collection.IsAccepted shelf.files "/c/z" := by
  have hdirectory : shelf.files.node "/c/z" = .ok bareNode :=
    FileSystem.node_eq_ok_iff.2 ⟨_, trail_shelf_link, rfl⟩
  have hentry : shelf.files.trail (Path.join "/c/z" Contract.entryFile) =
      .ok [(Contract.entryFile, .file { bytes := [] }), ("d", bareNode)] :=
    FileSystem.trail_join trail_shelf_link rfl (by decide) (by decide) (by decide) rfl
      (fun _ h => nomatch h)
  have hfile : shelf.files.node (Path.join "/c/z" Contract.entryFile) =
      .ok (.file { bytes := [] }) :=
    FileSystem.node_eq_ok_iff.2 ⟨_, hentry, rfl⟩
  constructor
  · rw [FileSystem.isDirectory, hdirectory]
    exact rfl
  · rw [FileSystem.isFile, hfile]

theorem exitCode_runValidate_shelf_link : (runValidate shelf {} "/c/z").exitCode = 1 := by
  have htrail : shelf.files.trail "/d" = .ok [("d", bareNode)] := by
    have hjoin : "/d" = Path.join "/" "d" := by
      decide
    rw [hjoin]
    exact FileSystem.trail_join (FileSystem.trail_root rfl) rfl (by decide) (by decide) (by decide)
      rfl (fun _ h => nomatch h)
  have hload := Package.load_of_entry_only htrail rfl (by decide) (by decide)
  have habsolute : Path.absolute (FileSystem.Trail.names [("d", bareNode)]) = "/d" := by
    decide
  have htext : Text.Utf8.decodeLenient [] = "" :=
    Text.shown_of_ascii (List.forall_mem_nil _)
  have hpackage := Validation.package_of_trail trail_shelf_link rfl
  rw [habsolute, hload, htext] at hpackage
  have hreport := report_of_package hpackage rfl rfl
  change (Turn.alone ⟨shelf, "/c/z"⟩ {}).exitCode = 1
  rw [(Turn.alone_of_report loadConfig_shelf hreport).1]
  decide +kernel

/-- Of the accepted entries the link is no package; a package passes with the run, and what is
printed for it is printed there. -/
theorem runValidateAll_covers_shelf :
    "/c/a" ∈ Collection.packages shelf.files "/c" ∧
    "/c/z" ∉ Collection.packages shelf.files "/c" ∧
    (∃ turn ∈ turns {} shelf (Collection.packages shelf.files "/c"),
      turn.package = "/c/a" ∧ (turn.alone {}).exitCode = 0) ∧
    ∃ (front : String) (turn : Turn) (rest : String), turn.package = "/c/a" ∧
      (runValidateAll shelf {} "/c").output = front ++ (turn.alone {}).output ++ rest := by
  have hnames : ∀ entry ∈ shelfEntries, Path.IsEntryName entry.1 := by
    decide
  have ha : ("a", plainNode) ∈ shelfEntries := List.mem_cons_self
  have hz : ("z", Node.link "../d") ∈ shelfEntries := by
    simp [shelfEntries]
  have haccepted := isAccepted_shelf (Or.inl rfl)
  have hconfig := fun turn hturn => (turns_shelf.2 turn hturn).1
  obtain ⟨hpackage, hpass, hprinted⟩ :=
    @runValidateAll_covers shelf {} "/c" shelfEntries node_shelf hnames
  refine ⟨(hpackage _ ha haccepted).2 (fun _ h => nomatch h), fun hmem => ?_, ?_, ?_⟩
  · exact (hpackage _ hz isAccepted_shelf_link).1 hmem "../d" rfl
  · exact hpass {} hconfig exitCode_runValidateAll_shelf _ ha haccepted fun _ h => nomatch h
  · obtain ⟨before, turn, after, hturns, hsame, houtput⟩ :=
      hprinted {} hconfig _ ha haccepted fun _ h => nomatch h
    rcases houtput with ⟨-, rest, houtput⟩ | ⟨other, hother, error, herror, -⟩
    · exact ⟨_, turn, rest, hsame, houtput⟩
    · -- All turns of the collection allow a report.
      have hmem : other ∈ turns {} shelf (Collection.packages shelf.files "/c") := by
        rw [hturns, ← List.singleton_append, ← List.append_assoc]
        exact List.mem_append_left _ hother
      obtain ⟨report, hreport⟩ := (turns_shelf.2 other hmem).2.1
      rw [hreport] at herror
      cases herror

/-- A link to a package that fails alone is passed over, and the run on the collection passes. -/
theorem runValidateAll_passes_over_link :
    Collection.IsAccepted shelf.files "/c/z" ∧
    "/c/z" ∉ Collection.packages shelf.files "/c" ∧
    (runValidateAll shelf {} "/c").exitCode = 0 ∧
    (runValidate shelf {} "/c/z").exitCode = 1 := by
  refine ⟨isAccepted_shelf_link, ?_, exitCode_runValidateAll_shelf, exitCode_runValidate_shelf_link⟩
  rw [packages_shelf]
  decide

end Coverage

end Command
end SkillAudit
