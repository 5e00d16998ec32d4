import Mathlib.Data.List.Forall2
import SkillAudit.Proofs.Evaluation.Groups
import SkillAudit.Proofs.Report.Reading

/-!
# Files and their addresses in the SARIF form

The result of a diagnostic in the SARIF form gives the address of its file, which is the path with a
slash for every backslash; the JSON form gives the path as it is.  A backslash may be a character of
a name, so files that differ in their slashes alone have one address.

* `uri_eq_iff`, `uri_eq_self_iff`: which addresses are the same, and which are paths.
* `address?_result`: the address is read from the result of a diagnostic.
* `sarif_addresses_files`: a whole report, as its two forms are read back from their texts.
* `sarif_confuses_files`: two files of one package with one address.
-/

namespace SkillAudit
namespace Report
namespace Sarif

section Addresses

/-- A slash or a backslash. -/
def IsSlash (c : Char) : Prop :=
  c = '/' ∨ c = '\\'

/-- Two paths are the same but for the kinds of their slashes. -/
def SameButSlashes (file other : String) : Prop :=
  List.Forall₂ (fun c c' => c = c' ∨ IsSlash c ∧ IsSlash c') file.toList other.toList

/-- Two characters become the same one if they are the same or both slashes. -/
theorem forward_eq_iff
    {c c' : Char} :
    (if c = '\\' then '/' else c) = (if c' = '\\' then '/' else c') ↔
      c = c' ∨ IsSlash c ∧ IsSlash c' := by
  unfold IsSlash
  by_cases h : c = '\\'
  · by_cases h' : c' = '\\'
    · simp [h, h']
    · simp [h, h', eq_comm]
  · by_cases h' : c' = '\\'
    · simp [h, h']
    · simp only [h, h', if_false, or_false]
      constructor
      · exact Or.inl
      · rintro (rfl | ⟨rfl, rfl⟩) <;> rfl

/-- Two files have one address exactly if their paths are the same but for the slashes. -/
theorem uri_eq_iff
    {file other : String} :
    uri file = uri other ↔ SameButSlashes file other := by
  rw [uri, uri, String.ofList_inj, ← List.forall₂_eq_eq_eq, List.forall₂_map_left_iff,
    List.forall₂_map_right_iff]
  simp only [forward_eq_iff]
  rfl

/-- An address has no backslash. -/
theorem backslash_notMem_uri
    (file : String) :
    '\\' ∉ (uri file).toList := by
  rw [uri, String.toList_ofList, List.mem_map]
  rintro ⟨c, -, hc⟩
  split at hc
  · cases hc
  · next hne => exact hne hc

/-- The address of a file is its path exactly if the path has no backslash. -/
theorem uri_eq_self_iff
    {file : String} :
    uri file = file ↔ '\\' ∉ file.toList := by
  constructor
  · intro h
    rw [← h]
    exact backslash_notMem_uri file
  · intro h
    have hkept : ∀ c ∈ file.toList, (if c = '\\' then '/' else c) = c := by
      intro c hc
      refine if_neg ?_
      rintro rfl
      exact h hc
    rw [uri, List.map_congr_left hkept, List.map_id', String.ofList_toList]

/-- Whether there is an address, and which paths may be behind it. -/
theorem map_uri_eq_iff
    {file other : Option String} :
    file.map uri = other.map uri ↔ Option.Rel SameButSlashes file other := by
  cases file with
  | none => cases other <;> simp
  | some file => cases other <;> simp [uri_eq_iff]

theorem map_uri_eq_self_iff
    {file : Option String} :
    file.map uri = file ↔ ∀ path, file = some path → '\\' ∉ path.toList := by
  cases file with
  | none => simp
  | some path => simp [uri_eq_self_iff]

/-- The address in the first location of a result. -/
def address? (result : Json) : Option String :=
  match result.get? "locations" with
  | some (.list (location :: _)) =>
      match ((location.get? "physicalLocation").bind (Json.get? "artifactLocation")).bind
          (Json.get? "uri") with
      | some (.text uri) => some uri
      | _ => none
  | _ => none

theorem address?_result
    (places : List (String × Nat))
    (d : Diagnostic) :
    address? (result places d) = d.file.map uri := by
  cases hfile : d.file with
  | none =>
      unfold address?
      cases hplace : places.lookup d.ruleId <;>
        simp [result, locations, ruleIndex, List.lookup_cons, hfile, hplace]
  | some file =>
      simp [address?, result, locations, location, List.lookup_cons, hfile]

/-- The results of some diagnostics have the addresses of their files. -/
theorem forall₂_address?
    (places : List (String × Nat))
    (diagnostics : List Diagnostic) :
    List.Forall₂ (fun d result => address? result = d.file.map uri)
      diagnostics (diagnostics.map (result places)) := by
  rw [List.forall₂_map_right_iff, List.forall₂_same]
  exact fun d _ => address?_result places d

theorem address?_of_mem_zip
    {places : List (String × Nat)}
    {diagnostics : List Diagnostic}
    {entry : Diagnostic × Json}
    (h : entry ∈ diagnostics.zip (diagnostics.map (result places))) :
    address? entry.2 = entry.1.file.map uri :=
  (List.forall₂_iff_zip.1 (forall₂_address? places diagnostics)).2 h

end Addresses

end Sarif

/--
Both forms of a report are read back.  The JSON form has the diagnostics themselves, and the SARIF
form has one result for each of them, in their order.  A result has the address of the file of its
diagnostic, if there is one.  The address is the path in the JSON form exactly if the path has no
backslash, and two results have the same address exactly if the paths are the same but for their
slashes.
-/
theorem sarif_addresses_files
    (report : Report)
    (colored : Bool) :
    ∃ (results : List Json) (tool record : Json),
      Json.ofText? (report.text .sarif colored) =
        some (.object [
          ("runs", .list [.object [("results", .list results), ("tool", tool)]]),
          ("version", .text "2.1.0")]) ∧
      Json.ofText? (report.text .json colored) = some record ∧
      (record.get? "diagnostics").bind Diagnostic.listOfRecord? = some report.diagnostics ∧
      List.Forall₂ (fun d result => Sarif.address? result = d.file.map Sarif.uri)
        report.diagnostics results ∧
      (∀ entry ∈ report.diagnostics.zip results,
        Sarif.address? entry.2 = entry.1.file ↔
          ∀ file, entry.1.file = some file → '\\' ∉ file.toList) ∧
      ∀ entry ∈ report.diagnostics.zip results, ∀ other ∈ report.diagnostics.zip results,
        Sarif.address? entry.2 = Sarif.address? other.2 ↔
          Option.Rel Sarif.SameButSlashes entry.1.file other.1.file := by
  refine ⟨_, _, report.record, Json.ofText?_render report.sarif,
    Json.ofText?_render report.record, ?_, Sarif.forall₂_address? _ _, ?_, ?_⟩
  · simp [record, List.lookup_cons, Diagnostic.listOfRecord?_records]
  · intro entry hmem
    rw [Sarif.address?_of_mem_zip hmem, Sarif.map_uri_eq_self_iff]
  · intro entry hmem other hother
    rw [Sarif.address?_of_mem_zip hmem, Sarif.address?_of_mem_zip hother, Sarif.map_uri_eq_iff]

/-- A package with two references that lie too deep; the name of one file has a backslash where the
path of the other one has a slash. -/
def slashedPackage : Package where
  root := "/p"
  name := "p"
  document := some (Document.ofText "")
  files :=
    [[".gitignore"], ["SKILL.md"], ["references", "a", "b", "c", "d.md"],
      ["references", "a", "b", "c\\d.md"]]
  topLevel := [".gitignore", "SKILL.md", "references"]
  exclusions := some ".venv __pycache__"

/-- What the layout checks say of it. -/
def slashedReport : Report where
  name := "p"
  diagnostics :=
    Evaluation.diagnostics Evaluation.bareTools
      { checks := { scripts := false, frontmatter := false, body := false } } slashedPackage
  strict := false

/-- The two files have the same address. -/
theorem sarif_confuses_files :
    slashedReport.diagnostics.map (·.file) =
      [some "references/a/b/c/d.md", some "references/a/b/c\\d.md"] ∧
    ∃ (results : List Json) (tool : Json),
      Json.ofText? (slashedReport.text .sarif false) =
        some (.object [
          ("runs", .list [.object [("results", .list results), ("tool", tool)]]),
          ("version", .text "2.1.0")]) ∧
      results.map Sarif.address? =
        [some "references/a/b/c/d.md", some "references/a/b/c/d.md"] := by
  have hfiles : slashedReport.diagnostics.map (·.file) =
      [some "references/a/b/c/d.md", some "references/a/b/c\\d.md"] := by
    decide +kernel
  refine ⟨hfiles, _, _, Json.ofText?_render slashedReport.sarif, ?_⟩
  have haddresses := congrArg (List.map (Option.map Sarif.uri)) hfiles
  rw [List.map_map] at haddresses
  rw [List.map_map]
  refine (List.map_congr_left fun d _ => Sarif.address?_result _ d).trans (haddresses.trans ?_)
  decide

end Report
end SkillAudit
