import SkillAudit.Proofs.FileSystem.Endings
import SkillAudit.Proofs.FileSystem.Places
import SkillAudit.Proofs.Package.Entries

/-!
# The files of a package by directory

A directory is named by a text, whose spelling does not matter: its parts are compared with those of
the files.  The files below a directory are those whose first parts are the parts of the directory,
so a directory whose name only starts in the same way has no share in them.  The files in the
directory itself are those with one part more, and every file is in one directory.

* `parts_ofNames`: the parts of a path of plain names.
* `isPrefix_iff`: a path below a directory, as it is written.
* `dropLast_eq_iff`: the directory above a file has one part less.
* `hasPlainFiles_of_load`: the files of a package that is read have plain paths.
* `files_by_directory`: the two selections.
-/

namespace SkillAudit

namespace Path

section Names

variable {path name : String}
variable {file names : List String}

/-- The names among the parts of a path are names of entries. -/
theorem isEntryName_of_mem_parts
    (h : .name name ∈ parts path) :
    IsEntryName name := by
  have hinner : .name name ∈ (pieces path).filterMap partOf? := by
    unfold parts at h
    dsimp only at h
    split at h
    · simpa using h
    · split at h
      · simpa using h
      · exact h
  obtain ⟨piece, hpiece, hpart⟩ := List.mem_filterMap.1 hinner
  obtain ⟨text, htext, rfl⟩ := List.mem_map.1 hpiece
  unfold partOf? at hpart
  split at hpart
  · cases hpart
  · next hdot =>
      split at hpart
      · cases hpart
      · next hup =>
          cases hpart
          rw [Bool.or_eq_true, decide_eq_true_iff, decide_eq_true_iff, not_or] at hdot
          refine ⟨hdot.1, hdot.2, hup, ?_⟩
          rw [String.toList_ofList]
          exact Text.not_mem_of_mem_splitOn htext

theorem pieces_ofNames
    (hne : names ≠ [])
    (hnames : ∀ name ∈ names, IsEntryName name) :
    pieces (ofNames names) = names :=
  (Text.map_ofList_splitOn_eq_iff (by decide : "/".toList = ['/'])).2
    ⟨hne, fun name hname => (hnames name hname).no_slash, rfl⟩

/-- The parts of a path of plain names are the names. -/
theorem parts_ofNames
    (hnames : ∀ name ∈ names, IsEntryName name) :
    parts (ofNames names) = names.map .name := by
  cases names with
  | nil =>
      decide
  | cons name below =>
      have hpieces := pieces_ofNames (List.cons_ne_nil name below) hnames
      have hfirst := hnames name List.mem_cons_self
      have hinner : (name :: below).filterMap partOf? = (name :: below).map .name := by
        rw [← List.filterMap_eq_map]
        refine List.filterMap_congr fun other hother => ?_
        have hname := hnames other hother
        simp [partOf?, hname.ne_empty, hname.ne_here, hname.ne_up]
      have hhead : (name :: below).head? ≠ some "." :=
        fun hdot => hfirst.ne_here (Option.some.inj hdot)
      rw [parts, isAbsolute_ofNames hfirst below, hpieces, hinner]
      simp [hfirst.ne_here]

/-- A path of plain names is below another one if the other one stands before it, with a slash
between them. -/
theorem isPrefix_iff
    (hfile : ∀ name ∈ file, IsEntryName name)
    (hnames : ∀ name ∈ names, IsEntryName name)
    (hne : file ≠ []) :
    names <+: file ↔
      names = [] ∨ ofNames file = ofNames names ∨
        ∃ rest, ofNames file = ofNames names ++ "/" ++ rest := by
  constructor
  · rintro ⟨rest, rfl⟩
    by_cases hempty : names = []
    · exact Or.inl hempty
    · by_cases hrest : rest = []
      · exact Or.inr (Or.inl (by rw [hrest, List.append_nil]))
      · exact Or.inr (Or.inr ⟨ofNames rest, String.intercalate_append_of_ne_nil hempty hrest⟩)
  · by_cases hempty : names = []
    · rw [hempty]
      exact fun _ => List.nil_prefix
    · have hpieces := pieces_ofNames hempty hnames
      have hwhole := pieces_ofNames hne hfile
      rintro (hnil | hsame | ⟨rest, hbelow⟩)
      · exact absurd hnil hempty
      · rw [hsame, hpieces] at hwhole
        rw [hwhole]
      · refine ⟨pieces rest, ?_⟩
        rw [← hwhole, hbelow, pieces_append_slash, hpieces]

theorem spell_map_name
    (names : List String) :
    spell (names.map .name) = ofNames names := by
  have htexts : (names.map PathPart.name).map PathPart.text = names := by
    rw [List.map_map]
    exact List.map_id _
  unfold spell
  split
  · next hroot =>
      obtain ⟨name, -, hname⟩ := List.map_eq_singleton_iff.1 hroot
      cases hname
  · rw [htexts, ofNames]

/-- The path above a path of plain names has the names but the last. -/
theorem parent?_ofNames
    (hne : names ≠ [])
    (hnames : ∀ name ∈ names, IsEntryName name) :
    parent? (ofNames names) = some (ofNames names.dropLast) := by
  obtain rfl | ⟨above, last, rfl⟩ := List.eq_nil_or_concat names
  · exact absurd rfl hne
  · rw [List.concat_eq_append] at hnames ⊢
    rw [parent?, parts_ofNames hnames, List.map_append, List.map_singleton, List.getLast?_concat,
      List.dropLast_concat, List.dropLast_concat, spell_map_name]

end Names

end Path

namespace Package

/-- The text spells a path of these plain names, from the root of a package; without a name it is
the root. -/
def Spells (directory : String) (names : List String) : Prop :=
  Path.parts directory = names.map .name

instance (directory : String) (names : List String) : Decidable (Spells directory names) :=
  inferInstanceAs (Decidable (_ = _))

/-- The files are known by paths of plain names, which have at least one. -/
def HasPlainFiles (package : Package) : Prop :=
  ∀ file ∈ package.files, file ≠ [] ∧ ∀ name ∈ file, Path.IsEntryName name

section Selection

variable {package : Package}
variable {directory : String}
variable {file names : List String}

theorem Spells.isEntryName
    (h : Spells directory names) :
    ∀ name ∈ names, Path.IsEntryName name := by
  intro name hname
  exact Path.isEntryName_of_mem_parts (h ▸ List.mem_map_of_mem hname)

theorem fileParts_injective : fileParts.Injective :=
  List.map_injective_iff.2 fun _ _ h => PathPart.name.inj h

theorem fileParts_isPrefix_iff :
    fileParts names <+: fileParts file ↔ names <+: file := by
  constructor
  · rintro ⟨rest, hrest⟩
    obtain ⟨front, back, rfl, hfront, -⟩ := List.map_eq_append_iff.1 hrest.symm
    rw [← fileParts_injective hfront]
    exact List.prefix_append _ _
  · exact fun h => h.map _

/-- The directory above a file has its names but the last. -/
theorem dropLast_eq_iff
    (hfile : file ≠ []) :
    file.dropLast = names ↔ names <+: file ∧ file.length = names.length + 1 := by
  constructor
  · rintro rfl
    refine ⟨List.dropLast_prefix file, ?_⟩
    have hlength := List.length_pos_iff.2 hfile
    rw [List.length_dropLast]
    omega
  · rintro ⟨⟨rest, rfl⟩, hlength⟩
    have hone : rest.length = 1 := by
      rw [List.length_append] at hlength
      omega
    obtain ⟨last, rfl⟩ := List.length_eq_one_iff.1 hone
    exact List.dropLast_concat

theorem filesUnder_eq_filter
    (h : Spells directory names) :
    package.filesUnder directory = package.files.filter fun file => names <+: file := by
  refine List.filter_congr fun file _ => ?_
  rw [Bool.eq_iff_iff, List.isPrefixOf_iff_prefix, decide_eq_true_iff, h]
  exact fileParts_isPrefix_iff

theorem mem_filesDirectlyIn_iff
    (h : Spells directory names) :
    file ∈ package.filesDirectlyIn directory ↔ file ∈ package.files ∧ file.dropLast = names := by
  rw [filesDirectlyIn, List.mem_filter, beq_iff_eq, h]
  exact and_congr_right fun _ => fileParts_injective.eq_iff

/-- The files of a package that is read from a tree of named entries have plain paths. -/
theorem hasPlainFiles_of_load
    {fs : FileSystem}
    {path : String}
    (hnamed : fs.root.Named)
    (h : load fs path = .ok package) :
    package.HasPlainFiles := by
  obtain ⟨document, -, rfl⟩ := load_eq_ok_iff.1 h
  intro file hfile
  cases hnode : fs.node path with
  | error fault =>
      simp [visitsAt, hnode] at hfile
  | ok node =>
      cases node with
      | file content =>
          simp [visitsAt, hnode, visitsBelow] at hfile
      | link target =>
          simp [visitsAt, hnode, visitsBelow] at hfile
      | directory entries =>
          obtain ⟨⟨content, hcontent⟩, -⟩ := (mem_files_visitsAt hnode).1 hfile
          obtain ⟨trail, htrail, hthere⟩ := FileSystem.node_eq_ok_iff.1 hnode
          have hentries : (Node.directory entries).Named :=
            hthere ▸ hnamed.descend? (FileSystem.leads_of_trail htrail).descend?
          refine ⟨?_, Node.isEntryName_of_descend? hentries hcontent⟩
          rintro rfl
          cases hcontent

section Plain

variable (hfile : ∀ name ∈ file, Path.IsEntryName name)
include hfile

/-- The parts of a directory stand before those of a file exactly if its names do. -/
theorem parts_isPrefix_iff
    (h : Spells directory names) :
    Path.parts directory <+: Path.parts (Path.ofNames file) ↔ names <+: file := by
  rw [Path.parts_ofNames hfile, h]
  exact fileParts_isPrefix_iff

/-- The path above a file is the directory exactly if it has the names of the directory. -/
theorem parent?_eq_iff
    (hne : file ≠ [])
    (h : Spells directory names) :
    (Path.parent? (Path.ofNames file)).map Path.parts = some (Path.parts directory) ↔
      file.dropLast = names := by
  have habove : ∀ name ∈ file.dropLast, Path.IsEntryName name :=
    fun name hname => hfile name (List.dropLast_subset file hname)
  rw [Path.parent?_ofNames hne hfile, Option.map_some, Option.some_inj,
    Path.parts_ofNames habove, h]
  exact fileParts_injective.eq_iff

end Plain

/--
A package whose files have paths of plain names, and a directory whose path has plain names or none.
The files below the directory are those of the files whose parts start with the parts of the
directory; written out, the path of such a file is that of the directory, or goes on with a slash
behind it.  The files in the directory are those of the files below it with one part more, which are
the files with this path above them.  Both selections keep the order of the files, and each file is
in one directory, however that is spelled.
-/
theorem files_by_directory
    (hfiles : package.HasPlainFiles) :
    (∀ directory names, Spells directory names →
      package.filesUnder directory =
        package.files.filter (fun file =>
          Path.parts directory <+: Path.parts (Path.ofNames file)) ∧
      package.filesDirectlyIn directory =
        (package.filesUnder directory).filter (fun file =>
          (Path.parts (Path.ofNames file)).length = (Path.parts directory).length + 1) ∧
      ∀ file ∈ package.files,
        (file ∈ package.filesUnder directory ↔
          names = [] ∨ Path.ofNames file = Path.ofNames names ∨
            ∃ rest, Path.ofNames file = Path.ofNames names ++ "/" ++ rest) ∧
        (file ∈ package.filesDirectlyIn directory ↔
          (Path.parent? (Path.ofNames file)).map Path.parts = some (Path.parts directory))) ∧
    ∀ file ∈ package.files,
      ∃ directory names, Spells directory names ∧ file ∈ package.filesDirectlyIn directory ∧
        ∀ other others, Spells other others → file ∈ package.filesDirectlyIn other →
          Path.parts other = Path.parts directory := by
  refine ⟨?_, ?_⟩
  · intro directory names h
    have hunder : package.filesUnder directory =
        package.files.filter fun file =>
          Path.parts directory <+: Path.parts (Path.ofNames file) := by
      rw [filesUnder_eq_filter h]
      refine List.filter_congr fun file hfile => ?_
      rw [decide_eq_decide, parts_isPrefix_iff (hfiles file hfile).2 h]
    refine ⟨hunder, ?_, ?_⟩
    · rw [filesUnder_eq_filter h, List.filter_filter, filesDirectlyIn]
      refine List.filter_congr fun file hfile => ?_
      obtain ⟨hne, hnames⟩ := hfiles file hfile
      rw [Bool.eq_iff_iff, beq_iff_eq, Bool.and_eq_true, decide_eq_true_iff, decide_eq_true_iff,
        Path.parts_ofNames hnames, h, List.length_map, List.length_map, and_comm]
      exact fileParts_injective.eq_iff.trans (dropLast_eq_iff hne)
    · intro file hfile
      obtain ⟨hne, hnames⟩ := hfiles file hfile
      constructor
      · rw [filesUnder_eq_filter h, List.mem_filter, decide_eq_true_iff, and_iff_right hfile]
        exact Path.isPrefix_iff hnames h.isEntryName hne
      · rw [mem_filesDirectlyIn_iff h, and_iff_right hfile]
        exact (parent?_eq_iff hnames hne h).symm
  · intro file hfile
    have hnames : ∀ name ∈ file.dropLast, Path.IsEntryName name :=
      fun name hname => (hfiles file hfile).2 name (List.dropLast_subset file hname)
    have habove : Spells (Path.ofNames file.dropLast) file.dropLast := Path.parts_ofNames hnames
    refine ⟨_, _, habove, (mem_filesDirectlyIn_iff habove).2 ⟨hfile, rfl⟩, ?_⟩
    intro other others hother hin
    obtain ⟨-, rfl⟩ := (mem_filesDirectlyIn_iff hother).1 hin
    rw [hother, habove]

/-- A package with two directories whose names start in the same way. -/
def twoShelves : Package where
  root := "p"
  name := "p"
  document := none
  files := [["scripts", "lib", "a.py"], ["scripts", "run.py"], ["scripts2", "x.py"], ["x.md"]]
  topLevel := ["scripts", "scripts2", "x.md"]
  exclusions := none

/-- The selections by one directory of the package and by its root. -/
theorem files_by_directory_twoShelves :
    twoShelves.filesUnder "scripts//" = [["scripts", "lib", "a.py"], ["scripts", "run.py"]] ∧
    twoShelves.filesDirectlyIn "scripts//" = [["scripts", "run.py"]] ∧
    ["scripts2", "x.py"] ∉ twoShelves.filesUnder "scripts//" ∧
    twoShelves.filesDirectlyIn "" = [["x.md"]] ∧
    ∃ directory names, Spells directory names ∧
      ["scripts", "lib", "a.py"] ∈ twoShelves.filesDirectlyIn directory := by
  have hfiles : twoShelves.HasPlainFiles := by
    unfold HasPlainFiles
    decide
  obtain ⟨hselect, hone⟩ := files_by_directory hfiles
  obtain ⟨hunder, hin, hmem⟩ := hselect "scripts//" ["scripts"] (by decide)
  obtain ⟨-, hroot, -⟩ := hselect "" [] (by decide)
  refine ⟨hunder.trans (by decide), ?_, ?_, ?_, ?_⟩
  · rw [hin, hunder]
    decide
  · rw [(hmem ["scripts2", "x.py"] (by decide)).1]
    rintro (hnil | hsame | ⟨rest, hbelow⟩)
    · cases hnil
    · exact absurd hsame (by decide)
    · have hstart : (Path.ofNames ["scripts"] ++ "/").toList <+:
          (Path.ofNames ["scripts2", "x.py"]).toList :=
        ⟨rest.toList, by simp only [hbelow, String.toList_append]⟩
      exact absurd hstart (by decide)
  · rw [hroot]
    decide
  · obtain ⟨directory, names, hspells, hfile, -⟩ := hone ["scripts", "lib", "a.py"] (by decide)
    exact ⟨directory, names, hspells, hfile⟩

end Selection

end Package
end SkillAudit
