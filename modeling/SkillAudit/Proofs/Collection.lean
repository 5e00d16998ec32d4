import Mathlib.Data.List.Basic
import SkillAudit.Collection
import SkillAudit.Proofs.FileSystem.Children
import SkillAudit.Proofs.Text.ByteOrder

/-!
# Packages and summary of a collection

The packages of a collection are chosen by what the entries of its directory are, so that a link is
never one of them, and by what their entry documents are reached as.  The summary has one row for
each report and the numbers of the verdicts.

* `packages_eq`: the packages of a collection, in the order of the bytes of their names.
* `mem_packages_of_isAccepted`, `ne_link_of_mem_packages`: the packages of a collection are those of
  its entries that are accepted alone, links apart.
* `renderAll_summary`: the summary as it reads without colors.
* `tally_failed_eq_zero_iff`: no report is counted as failed if all reports pass.
-/

namespace SkillAudit
namespace Collection

section Packages

/-- The name is that of a directory in the collection, no link, that holds an entry document. -/
def HoldsPackage (fs : FileSystem) (path name : String) : Prop :=
  ∃ entries inner, fs.node path = .ok (.directory entries) ∧
    (name, .directory inner) ∈ entries ∧
    fs.isFile (Path.join (Path.join path name) Contract.entryFile) = true

/-- The names of the packages of a collection. -/
def packageNames (fs : FileSystem) (path : String) : List String :=
  (directoriesIn fs path).filter fun name =>
    fs.isFile (Path.join (Path.join path name) Contract.entryFile)

theorem packages_eq_map_packageNames
    (fs : FileSystem)
    (path : String) :
    packages fs path = (packageNames fs path).map (Path.join path) := by
  simp only [packages, packageNames, List.filter_map, Function.comp_def]

theorem mem_directoriesIn_iff
    {fs : FileSystem}
    {path name : String} :
    name ∈ directoriesIn fs path ↔
      ∃ entries inner, fs.node path = .ok (.directory entries) ∧
        (name, .directory inner) ∈ entries := by
  unfold directoriesIn
  split
  · next entries hnode =>
      simp only [List.mem_map, List.mem_filter]
      constructor
      · rintro ⟨⟨_, node⟩, ⟨hmem, hdirectory⟩, rfl⟩
        cases node with
        | directory inner => exact ⟨entries, inner, hnode, hmem⟩
        | file content => cases hdirectory
        | link target => cases hdirectory
      · rintro ⟨_, inner, hentries, hmem⟩
        rw [hnode] at hentries
        cases hentries
        exact ⟨_, ⟨hmem, rfl⟩, rfl⟩
  · next hnone =>
      constructor
      · intro h
        cases h
      · rintro ⟨entries, _, hnode, -⟩
        exact absurd hnode (hnone entries)

theorem mem_packageNames_iff
    {fs : FileSystem}
    {path name : String} :
    name ∈ packageNames fs path ↔ HoldsPackage fs path name := by
  rw [packageNames, List.mem_filter, mem_directoriesIn_iff]
  constructor
  · rintro ⟨⟨entries, inner, hnode, hmem⟩, hfile⟩
    exact ⟨entries, inner, hnode, hmem, hfile⟩
  · rintro ⟨entries, inner, hnode, hmem, hfile⟩
    exact ⟨⟨entries, inner, hnode, hmem⟩, hfile⟩

theorem pairwise_packageNames
    (fs : FileSystem)
    (path : String) :
    (packageNames fs path).Pairwise (· < ·) := by
  suffices hall : (directoriesIn fs path).Pairwise (· < ·) from hall.sublist List.filter_sublist
  unfold directoriesIn
  split
  · next entries hnode =>
      have hordered := (Node.ordered_directory.1 (FileSystem.ordered_of_node hnode)).1
      exact List.pairwise_map.2 (hordered.sublist List.filter_sublist)
  · exact List.Pairwise.nil

/-- The packages of a collection are the directories in it that hold an entry document, in the order
of the bytes of their names. -/
theorem packages_eq
    (fs : FileSystem)
    (path : String) :
    ∃ names : List String, packages fs path = names.map (Path.join path) ∧
      names.Pairwise (fun a b => Text.Utf8.encode a < Text.Utf8.encode b) ∧
      ∀ name, name ∈ names ↔ HoldsPackage fs path name :=
  ⟨packageNames fs path, packages_eq_map_packageNames fs path,
    (pairwise_packageNames fs path).imp Text.Utf8.encode_lt_encode, fun _ => mem_packageNames_iff⟩

/-- A path under which there are packages is that of a directory. -/
theorem isDirectory_of_packages_ne_nil
    {fs : FileSystem}
    {path : String}
    (h : packages fs path ≠ []) :
    fs.isDirectory path = true := by
  obtain ⟨package, hpackage⟩ := List.exists_mem_of_ne_nil _ h
  rw [packages_eq_map_packageNames, List.mem_map] at hpackage
  obtain ⟨name, hname, -⟩ := hpackage
  obtain ⟨entries, inner, hnode, -, -⟩ := mem_packageNames_iff.1 hname
  rw [FileSystem.isDirectory, hnode]

end Packages

/-- The path leads to a directory, perhaps through links, that holds an entry document. -/
def IsAccepted (fs : FileSystem) (package : String) : Prop :=
  fs.isDirectory package = true ∧ fs.isFile (Path.join package Contract.entryFile) = true

section Entries

variable {fs : FileSystem}
variable {path : String}
variable {entries : List (String × Node)}
variable {entry : String × Node}

/-- An entry that is no link is a package if it is accepted alone. -/
theorem mem_packages_of_isAccepted
    (hnode : fs.node path = .ok (.directory entries))
    (hentry : entry ∈ entries)
    (hname : Path.IsEntryName entry.1)
    (hlink : ∀ target, entry.2 ≠ .link target)
    (haccepted : IsAccepted fs (Path.join path entry.1)) :
    Path.join path entry.1 ∈ packages fs path := by
  obtain ⟨hdirectory, hfile⟩ := haccepted
  rw [packages_eq_map_packageNames]
  refine List.mem_map_of_mem (mem_packageNames_iff.2 ?_)
  unfold FileSystem.isDirectory at hdirectory
  split at hdirectory
  · next inner hinner =>
      have hsame := FileSystem.eq_of_node_join hnode hname hentry hlink hinner
      exact ⟨entries, inner, hnode, hsame ▸ hentry, hfile⟩
  · cases hdirectory

/-- A link is no package. -/
theorem ne_link_of_mem_packages
    (hnode : fs.node path = .ok (.directory entries))
    (hnames : ∀ entry ∈ entries, Path.IsEntryName entry.1)
    (hentry : entry ∈ entries)
    (hpackage : Path.join path entry.1 ∈ packages fs path)
    (target : String) :
    entry.2 ≠ .link target := by
  rw [packages_eq_map_packageNames, List.mem_map] at hpackage
  obtain ⟨name, hname, hjoin⟩ := hpackage
  obtain ⟨_, inner, hagain, hmem, -⟩ := mem_packageNames_iff.1 hname
  rw [hnode] at hagain
  cases hagain
  have hpath : path ≠ "" := by
    obtain ⟨trail, htrail, -⟩ := FileSystem.node_eq_ok_iff.1 hnode
    exact (FileSystem.fits_of_land (FileSystem.trail_eq_ok_iff.1 htrail)).1
  obtain rfl := Path.join_injective hpath (hnames _ hmem) (hnames _ hentry) hjoin
  have hordered := (Node.ordered_directory.1 (FileSystem.ordered_of_node hnode)).1
  have hfind := (Node.find?_eq_some_iff hordered).2 hmem
  rw [(Node.find?_eq_some_iff hordered).2 hentry] at hfind
  intro hlink
  rw [hlink] at hfind
  cases hfind

end Entries

section Summary

/-- The row of a report as it reads without colors. -/
def rowText (report : Report) : String :=
  "  " ++ (verdictSpans report.status).1.text ++ "  " ++ nameColumn report.name ++ " " ++
    (verdictSpans report.status).2.text ++ "  " ++ toString report.errors.length ++ "e " ++
    toString report.warnings.length ++ "w\n"

/-- The summary as it reads without colors. -/
def summaryText (path : String) (reports : List Report) : String :=
  "\n" ++ "  Collection Summary: " ++ path ++ "  (" ++ toString reports.length ++ " skills)" ++
    "\n" ++ bar.text ++ "\n" ++
    String.join (reports.map rowText) ++
    bar.text ++ "\n  Total: " ++
    toString (tally reports .failed) ++ " failed" ++ "  " ++
    toString (tally reports .warning) ++ " warnings" ++ "  " ++
    toString (tally reports .passed) ++ " passed" ++ "\n"

theorem render_row
    (report : Report) :
    (row report).flatMap (Span.render false) = (rowText report).toList := by
  unfold row rowText
  simp only [Report.countBySeverity_eq, List.flatMap_cons, List.flatMap_nil, Span.render_off,
    Span.text_plain, String.toList_append, List.append_assoc, List.append_nil]

theorem render_rows
    (reports : List Report) :
    (reports.flatMap row).flatMap (Span.render false) =
      (String.join (reports.map rowText)).toList := by
  induction reports with
  | nil =>
      rfl
  | cons report rest ih =>
      rw [List.flatMap_cons, List.flatMap_append, render_row, ih, List.map_cons, String.join_cons,
        String.toList_append]

/-- The summary as it reads without colors: a heading, a row for each report and the numbers. -/
theorem renderAll_summary
    (path : String)
    (reports : List Report) :
    Span.renderAll false (summary path reports) = summaryText path reports := by
  rw [← String.toList_inj, Span.renderAll, String.toList_ofList]
  unfold summary summaryText
  simp only [List.flatMap_append, List.flatMap_cons, List.flatMap_nil, Span.render_off, render_rows,
    Span.text_plain, Span.text_styled, String.toList_append, List.append_assoc, List.append_nil]

/-- No report is counted as failed if all reports pass. -/
theorem tally_failed_eq_zero_iff
    {reports : List Report} :
    tally reports .failed = 0 ↔ ∀ report ∈ reports, report.passed = true := by
  simp [tally, Report.passed]

end Summary

end Collection
end SkillAudit
