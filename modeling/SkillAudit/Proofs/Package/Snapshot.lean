import Mathlib.Data.List.Basic
import SkillAudit.Package.Snapshot
import SkillAudit.Proofs.FileSystem.Children

/-!
# What a package holds

The way through a package meets exactly what is reached from its root through directories, apart
from the directories of the root that are left out.  It meets it in the order of the paths, compared
name by name; so gathering the files in a set neither loses nor moves one.

The order of the paths as texts would be another one: a slash comes after a dot, but what is below
a directory comes before the entries with longer names.

* `mem_cons_visitsBelow`: what is met at a place and below it is what is reached from there.
* `pairwise_visitsBelow`: the paths that are met are in increasing order.
* `pathSet_eq_self`: the set of paths in increasing order has them in this order.
* `load_exact`: the files and the names at the root of a package that is read.
-/

namespace SkillAudit
namespace Package

section PathOrder

/-- The paths below an entry come after its own path. -/
theorem path_lt_below
    (above : List String)
    (name : String)
    (names : List String) :
    above < above ++ name :: names := by
  have hnil : ([] : List String) < name :: names :=
    List.nil_lt_cons name names
  have happend : above ++ [] < above ++ name :: names := List.append_left_lt hnil
  rwa [List.append_nil] at happend

/-- The paths at and below an entry come before those at and below an entry with a later name. -/
theorem path_lt_of_name_lt
    {name other : String}
    (h : name < other)
    (above names others : List String) :
    above ++ name :: names < above ++ other :: others :=
  List.append_left_lt (List.cons_lt_cons_iff.2 (Or.inl h))

/-- The order of the paths is not that of their texts. -/
example : ["a", "x"] < ["a.md"] ∧ Path.ofNames ["a.md"] < Path.ofNames ["a", "x"] := by
  decide

theorem insertPath_eq_append
    {path : List String}
    {paths : List (List String)}
    (h : ∀ other ∈ paths, other < path) :
    insertPath path paths = paths ++ [path] := by
  induction paths with
  | nil =>
      rfl
  | cons first rest ih =>
      obtain ⟨hfirst, hrest⟩ := List.forall_mem_cons.1 h
      have hne : path ≠ first := by
        rintro rfl
        exact List.lt_irrefl path hfirst
      have hle : ¬ path < first := List.lt_asymm hfirst
      rw [insertPath, if_neg hne, if_neg hle, ih hrest, List.cons_append]

/-- The set of paths in increasing order has them in this order. -/
theorem pathSet_eq_self
    {paths : List (List String)}
    (h : paths.Pairwise (· < ·)) :
    pathSet paths = paths := by
  -- The paths that are in the set already come before those that are still to be put in.
  suffices hfold : ∀ set : List (List String), (set ++ paths).Pairwise (· < ·) →
      paths.foldl (fun set path => insertPath path set) set = set ++ paths from
    hfold [] h
  clear h
  induction paths with
  | nil =>
      intro set _
      rw [List.foldl_nil, List.append_nil]
  | cons path rest ih =>
      intro set hset
      have hlast : ∀ other ∈ set, other < path := fun other hother =>
        (List.pairwise_append.1 hset).2.2 other hother path List.mem_cons_self
      rw [List.foldl_cons, insertPath_eq_append hlast, ih, List.append_assoc, List.singleton_append]
      rwa [List.append_assoc, List.singleton_append]

end PathOrder

section Walk

/-- The node of a visit is reached through directories from a node with the names above it. -/
def Visit.IsReached (visit : Visit) (above : List String) (node : Node) : Prop :=
  ∃ names, visit.names = above ++ names ∧ node.descend? names = some visit.node

/-- From a file or a link nothing else is reached. -/
theorem isReached_iff_eq
    {visit : Visit}
    {above : List String}
    {node : Node}
    (hnode : node.isDirectory = false) :
    visit.IsReached above node ↔ visit = ⟨above, node⟩ := by
  obtain ⟨names, target⟩ := visit
  constructor
  · rintro ⟨below, hnames, htarget⟩
    cases below with
    | nil =>
        cases htarget
        simpa using hnames
    | cons name rest =>
        cases node with
        | directory entries => cases hnode
        | file content => cases htarget
        | link path => cases htarget
  · intro h
    cases h
    exact ⟨[], (List.append_nil above).symm, rfl⟩

/-- From a directory its entries are reached, and what is reached from them. -/
theorem isReached_directory_iff
    {visit : Visit}
    {above : List String}
    {entries : List (String × Node)}
    (hnames : entries.Pairwise (·.1 < ·.1)) :
    visit.IsReached above (.directory entries)
      ↔
    visit = ⟨above, .directory entries⟩ ∨
      ∃ entry ∈ entries, visit.IsReached (above ++ [entry.1]) entry.2 := by
  obtain ⟨names, target⟩ := visit
  constructor
  · rintro ⟨below, hbelow, htarget⟩
    cases below with
    | nil =>
        cases htarget
        exact Or.inl (by simpa using hbelow)
    | cons name rest =>
        obtain ⟨child, hfind, hchild⟩ := Option.bind_eq_some_iff.1 htarget
        refine Or.inr ⟨(name, child), (Node.find?_eq_some_iff hnames).1 hfind, rest, ?_, hchild⟩
        rw [List.append_assoc, List.singleton_append]
        exact hbelow
  · rintro (h | ⟨⟨name, child⟩, hmem, rest, hbelow, hchild⟩)
    · cases h
      exact ⟨[], (List.append_nil above).symm, rfl⟩
    · refine ⟨name :: rest, ?_, ?_⟩
      · rw [hbelow, List.append_assoc, List.singleton_append]
      · exact Option.bind_eq_some_iff.2
          ⟨child, (Node.find?_eq_some_iff hnames).2 hmem, hchild⟩

/-- Only an entry of the root can be left out. -/
theorem isSkipped_eq_false
    {above : List String}
    (habove : above ≠ [])
    (name : String)
    (node : Node) :
    Visit.isSkipped ⟨above ++ [name], node⟩ = false := by
  obtain ⟨first, rest, rfl⟩ := List.exists_cons_of_ne_nil habove
  cases rest with
  | nil => rfl
  | cons second more => rfl

/-- What is met among some entries is what is met at each of them and below it, for those that are
not left out. -/
theorem mem_visitsAmong
    {visit : Visit}
    {above : List String}
    {entries : List (String × Node)} :
    visit ∈ visitsAmong above entries
      ↔
    ∃ entry ∈ entries,
      Visit.isSkipped ⟨above ++ [entry.1], entry.2⟩ = false ∧
      visit ∈ ⟨above ++ [entry.1], entry.2⟩ :: visitsBelow (above ++ [entry.1]) entry.2 := by
  induction entries with
  | nil =>
      simp [visitsAmong]
  | cons entry rest ih =>
      obtain ⟨name, node⟩ := entry
      rw [List.exists_mem_cons_iff, ← ih]
      cases hskipped : Visit.isSkipped ⟨above ++ [name], node⟩ with
      | true =>
          simp [visitsAmong, hskipped]
      | false =>
          simp [visitsAmong, hskipped, or_assoc]

/-- What is met at a place below the root and further below is what is reached from there. -/
theorem mem_cons_visitsBelow
    {visit : Visit}
    {above : List String}
    {node : Node}
    (habove : above ≠ [])
    (hnode : node.Ordered) :
    visit ∈ ⟨above, node⟩ :: visitsBelow above node ↔ visit.IsReached above node := by
  induction node using Node.induction generalizing above with
  | file content =>
      rw [visitsBelow, List.mem_singleton, isReached_iff_eq rfl]
      exact fun entries h => by cases h
  | link target =>
      rw [visitsBelow, List.mem_singleton, isReached_iff_eq rfl]
      exact fun entries h => by cases h
  | directory entries ih =>
      obtain ⟨hnames, hentries⟩ := Node.ordered_directory.1 hnode
      rw [visitsBelow, List.mem_cons, mem_visitsAmong, isReached_directory_iff hnames]
      refine or_congr_right (exists_congr fun entry => and_congr_right fun hmem => ?_)
      rw [ih entry hmem (List.concat_ne_nil entry.1 above) (hentries entry hmem)]
      exact and_iff_right (isSkipped_eq_false habove entry.1 entry.2)

/-- What is met among the entries of a directory is what is reached from those that are not left
out. -/
theorem mem_visitsAmong_iff_isReached
    {visit : Visit}
    {above : List String}
    {entries : List (String × Node)}
    (hentries : ∀ entry ∈ entries, entry.2.Ordered) :
    visit ∈ visitsAmong above entries
      ↔
    ∃ entry ∈ entries,
      Visit.isSkipped ⟨above ++ [entry.1], entry.2⟩ = false ∧
      visit.IsReached (above ++ [entry.1]) entry.2 := by
  rw [mem_visitsAmong]
  refine exists_congr fun entry => and_congr_right fun hmem => ?_
  rw [mem_cons_visitsBelow (List.concat_ne_nil entry.1 above) (hentries entry hmem)]

theorem lt_names_of_mem_visitsBelow
    {visit : Visit}
    {above : List String}
    {node : Node}
    (hnode : node.Ordered)
    (h : visit ∈ visitsBelow above node) :
    above < visit.names := by
  cases node with
  | file content => cases h
  | link target => cases h
  | directory entries =>
      obtain ⟨entry, -, -, below, hbelow, -⟩ :=
        (mem_visitsAmong_iff_isReached (Node.ordered_directory.1 hnode).2).1 h
      rw [hbelow, List.append_assoc, List.singleton_append]
      exact path_lt_below above entry.1 below

/-- The paths that are met among the entries of a directory are in increasing order, if those below
each entry are. -/
theorem pairwise_visitsAmong
    {above : List String}
    {entries : List (String × Node)}
    (hnames : entries.Pairwise (·.1 < ·.1))
    (hentries : ∀ entry ∈ entries, entry.2.Ordered)
    (hbelow : ∀ entry ∈ entries,
      (visitsBelow (above ++ [entry.1]) entry.2).Pairwise (·.names < ·.names)) :
    (visitsAmong above entries).Pairwise (·.names < ·.names) := by
  induction entries with
  | nil =>
      exact List.Pairwise.nil
  | cons entry rest ih =>
      obtain ⟨name, node⟩ := entry
      obtain ⟨hfirst, hrest⟩ := List.pairwise_cons.1 hnames
      obtain ⟨hnode, hordered⟩ := List.forall_mem_cons.1 hentries
      obtain ⟨hhere, hthere⟩ := List.forall_mem_cons.1 hbelow
      have htail := ih hrest hordered hthere
      rw [visitsAmong]
      split
      · exact htail
      · rw [← List.cons_append]
        refine List.pairwise_append.2 ⟨List.pairwise_cons.2 ⟨?_, hhere⟩, htail, ?_⟩
        · exact fun visit hvisit => lt_names_of_mem_visitsBelow hnode hvisit
        · intro visit hvisit other hother
          obtain ⟨below, hvisit, -⟩ :=
            (mem_cons_visitsBelow (List.concat_ne_nil name above) hnode).1 hvisit
          obtain ⟨entry, hentry, -, below', hother, -⟩ :=
            (mem_visitsAmong_iff_isReached hordered).1 hother
          rw [hvisit, hother, List.append_assoc, List.append_assoc]
          exact path_lt_of_name_lt (hfirst entry hentry) above below below'

/-- The paths that are met below a place are in increasing order. -/
theorem pairwise_visitsBelow
    {node : Node}
    (hnode : node.Ordered)
    (above : List String) :
    (visitsBelow above node).Pairwise (·.names < ·.names) := by
  induction node using Node.induction generalizing above with
  | file content => exact List.Pairwise.nil
  | link target => exact List.Pairwise.nil
  | directory entries ih =>
      obtain ⟨hnames, hentries⟩ := Node.ordered_directory.1 hnode
      exact pairwise_visitsAmong hnames hentries fun entry hmem =>
        ih entry hmem (hentries entry hmem) (above ++ [entry.1])

end Walk

section Snapshot

/-- A place is in a directory of the root that is left out, or is this directory. -/
def IsLeftOut (entries : List (String × Node)) (names : List String) : Prop :=
  ∃ name inner,
    names.head? = some name ∧
    (name, .directory inner) ∈ entries ∧
    name ∈ Contract.skippedDirectories

/-- An entry of the root is left out with what is below it if its visit is skipped. -/
theorem isLeftOut_iff_isSkipped
    {entries : List (String × Node)}
    {name : String}
    {node : Node}
    (hnames : entries.Pairwise (·.1 < ·.1))
    (hmem : (name, node) ∈ entries)
    (below : List String) :
    IsLeftOut entries (name :: below) ↔ Visit.isSkipped ⟨[name], node⟩ = true := by
  have hfind := (Node.find?_eq_some_iff hnames).2 hmem
  constructor
  · rintro ⟨other, inner, hhead, hother, hskipped⟩
    cases hhead
    rw [(Node.find?_eq_some_iff hnames).2 hother] at hfind
    cases hfind
    exact List.contains_iff_mem.2 hskipped
  · intro h
    cases node with
    | file content => cases h
    | link target => cases h
    | directory inner => exact ⟨name, inner, rfl, hmem, List.contains_iff_mem.1 h⟩

/-- What is met in a package is what is reached in it, but for what is left out. -/
theorem mem_visitsBelow_root
    {visit : Visit}
    {entries : List (String × Node)}
    (hroot : (Node.directory entries).Ordered) :
    visit ∈ visitsBelow [] (.directory entries)
      ↔
    visit.names ≠ [] ∧
      (Node.directory entries).descend? visit.names = some visit.node ∧
      ¬ IsLeftOut entries visit.names := by
  obtain ⟨names, target⟩ := visit
  obtain ⟨hnames, hentries⟩ := Node.ordered_directory.1 hroot
  rw [visitsBelow, mem_visitsAmong_iff_isReached hentries]
  constructor
  · rintro ⟨⟨name, node⟩, hmem, hkept, below, hbelow, htarget⟩
    obtain rfl : names = name :: below := hbelow
    refine ⟨List.cons_ne_nil name below, ?_, ?_⟩
    · exact Option.bind_eq_some_iff.2 ⟨node, (Node.find?_eq_some_iff hnames).2 hmem, htarget⟩
    · rw [isLeftOut_iff_isSkipped hnames hmem]
      exact Bool.eq_false_iff.1 hkept
  · rintro ⟨hne, htarget, hkept⟩
    cases names with
    | nil => exact absurd rfl hne
    | cons name below =>
        obtain ⟨node, hfind, hbelow⟩ := Option.bind_eq_some_iff.1 htarget
        have hmem := (Node.find?_eq_some_iff hnames).1 hfind
        rw [isLeftOut_iff_isSkipped hnames hmem] at hkept
        exact ⟨(name, node), hmem, Bool.eq_false_iff.2 hkept, below, rfl, hbelow⟩

theorem mem_filterMap_file?
    {visits : List Visit}
    {file : List String} :
    file ∈ visits.filterMap Visit.file? ↔ ∃ content, ⟨file, .file content⟩ ∈ visits := by
  rw [List.mem_filterMap]
  constructor
  · rintro ⟨⟨names, node⟩, hmem, hfile⟩
    cases node with
    | file content =>
        cases hfile
        exact ⟨content, hmem⟩
    | link target => cases hfile
    | directory entries => cases hfile
  · rintro ⟨content, hmem⟩
    exact ⟨_, hmem, rfl⟩

theorem rootName?_eq_some_iff
    {visit : Visit}
    {name : String} :
    visit.rootName? = some name ↔ visit.names = [name] := by
  obtain ⟨names, node⟩ := visit
  cases names with
  | nil => simp [Visit.rootName?]
  | cons first rest =>
      cases rest with
      | nil => simp [Visit.rootName?]
      | cons second more => simp [Visit.rootName?]

theorem names_of_file?_eq_some
    {visit : Visit}
    {file : List String}
    (h : visit.file? = some file) :
    visit.names = file := by
  obtain ⟨names, node⟩ := visit
  cases node with
  | file content => exact Option.some.inj h
  | link target => cases h
  | directory entries => cases h

/-- A document that can be read is read, and a missing one is no fault. -/
theorem readDocument_of_readable
    {fs : FileSystem}
    {path : String}
    (h : ∀ file, fs.node path = .ok (.file file) → file.readable = true) :
    ∃ document, readDocument fs path = .ok document := by
  unfold readDocument FileSystem.isFile FileSystem.readBytes
  cases hnode : fs.node path with
  | error fault => exact ⟨none, rfl⟩
  | ok node =>
      cases node with
      | link target => exact ⟨none, rfl⟩
      | directory entries => exact ⟨none, rfl⟩
      | file content =>
          simp [h content hnode]

/-- The paths that are met from a path on are in increasing order. -/
theorem pairwise_visitsAt
    (fs : FileSystem)
    (path : String) :
    (visitsAt fs path).Pairwise (·.names < ·.names) := by
  unfold visitsAt
  cases hnode : fs.node path with
  | error fault =>
      exact List.Pairwise.nil
  | ok node =>
      exact pairwise_visitsBelow (FileSystem.ordered_of_node hnode) []

theorem pairwise_files_visitsAt
    (fs : FileSystem)
    (path : String) :
    ((visitsAt fs path).filterMap Visit.file?).Pairwise (· < ·) := by
  refine (pairwise_visitsAt fs path).filterMap Visit.file? ?_
  intro visit other hlt file hfile file' hfile'
  rw [← names_of_file?_eq_some hfile, ← names_of_file?_eq_some hfile']
  exact hlt

theorem pairwise_rootNames_visitsAt
    (fs : FileSystem)
    (path : String) :
    ((visitsAt fs path).filterMap Visit.rootName?).Pairwise (· < ·) := by
  refine (pairwise_visitsAt fs path).filterMap Visit.rootName? ?_
  intro visit other hlt name hname name' hname'
  rw [rootName?_eq_some_iff.1 hname, rootName?_eq_some_iff.1 hname'] at hlt
  rcases List.cons_lt_cons_iff.1 hlt with hlt | ⟨-, hlt⟩
  · exact hlt
  · exact absurd hlt (List.lt_irrefl [])

variable {fs : FileSystem} {path : String} {entries : List (String × Node)}

theorem visitsAt_of_directory
    (hroot : fs.node path = .ok (.directory entries)) :
    visitsAt fs path = visitsBelow [] (.directory entries) := by
  rw [visitsAt, hroot]

/-- The files that are met are those that are reached and not left out. -/
theorem mem_files_visitsAt
    (hroot : fs.node path = .ok (.directory entries))
    {file : List String} :
    file ∈ (visitsAt fs path).filterMap Visit.file?
      ↔
    (∃ content, (Node.directory entries).descend? file = some (.file content)) ∧
      ¬ IsLeftOut entries file := by
  rw [mem_filterMap_file?, visitsAt_of_directory hroot]
  simp only [mem_visitsBelow_root (FileSystem.ordered_of_node hroot)]
  constructor
  · rintro ⟨content, -, hcontent, hkept⟩
    exact ⟨⟨content, hcontent⟩, hkept⟩
  · rintro ⟨⟨content, hcontent⟩, hkept⟩
    refine ⟨content, ?_, hcontent, hkept⟩
    rintro rfl
    cases hcontent

/-- The names of the root that are met are those of its entries that are not left out. -/
theorem mem_rootNames_visitsAt
    (hroot : fs.node path = .ok (.directory entries))
    {name : String} :
    name ∈ (visitsAt fs path).filterMap Visit.rootName?
      ↔
    (∃ node, (name, node) ∈ entries) ∧ ¬ IsLeftOut entries [name] := by
  have hordered := FileSystem.ordered_of_node hroot
  have hentry : ∀ node, (Node.directory entries).descend? [name] = some node ↔
      (name, node) ∈ entries := by
    intro node
    rw [Node.descend?_singleton, Node.find?_eq_some_iff (Node.ordered_directory.1 hordered).1]
  rw [visitsAt_of_directory hroot, List.mem_filterMap]
  constructor
  · rintro ⟨⟨names, node⟩, hvisit, hname⟩
    obtain rfl : names = [name] := rootName?_eq_some_iff.1 hname
    obtain ⟨-, hnode, hkept⟩ := (mem_visitsBelow_root hordered).1 hvisit
    exact ⟨⟨node, (hentry node).1 hnode⟩, hkept⟩
  · rintro ⟨⟨node, hnode⟩, hkept⟩
    exact ⟨⟨[name], node⟩,
      (mem_visitsBelow_root hordered).2 ⟨List.cons_ne_nil _ _, (hentry node).2 hnode, hkept⟩, rfl⟩

/-- A directory with an entry document and nothing else, read as a package. -/
theorem load_of_entry_only
    {trail : FileSystem.Trail}
    {bytes : List UInt8}
    (htrail : fs.trail path = .ok trail)
    (hnode : FileSystem.nodeAt fs.root trail =
      .directory [(Contract.entryFile, .file { bytes })])
    (hentry : FileSystem.Fits (Path.join path Contract.entryFile))
    (hexclusions : FileSystem.Fits (Path.join path Contract.exclusionFile)) :
    load fs path = .ok {
      root := path
      name := nameOf path
      document := some (Document.ofText (Text.Utf8.decodeLenient bytes))
      files := [[Contract.entryFile]]
      topLevel := [Contract.entryFile]
      exclusions := none } := by
  have hfile : fs.node (Path.join path Contract.entryFile) = .ok (.file { bytes }) :=
    FileSystem.node_eq_ok_iff.2 ⟨_,
      FileSystem.trail_join htrail hnode (by decide) (by decide) hentry rfl (fun _ h => nomatch h),
      rfl⟩
  have habsent : fs.trail (Path.join path Contract.exclusionFile) = .error .notFound :=
    FileSystem.trail_join_of_absent htrail hnode (by decide) (by decide) hexclusions rfl
  have hdocument : readDocument fs (Path.join path Contract.entryFile) =
      .ok (some (Document.ofText (Text.Utf8.decodeLenient bytes))) := by
    simp only [readDocument, FileSystem.isFile, FileSystem.readBytes, hfile, if_true]
  have hexclusions : readExclusions fs (Path.join path Contract.exclusionFile) = none := by
    simp only [readExclusions, FileSystem.isFile, FileSystem.node, habsent, Except.map,
      Bool.false_eq_true, if_false]
  have hvisits : visitsAt fs path = [⟨[Contract.entryFile], .file { bytes }⟩] := by
    simp only [visitsAt, FileSystem.node_eq_ok_iff.2 ⟨trail, htrail, hnode⟩, visitsBelow,
      visitsAmong, Visit.isSkipped]
    rfl
  rw [load, hdocument, hexclusions, hvisits]
  rfl

/--
A directory with a readable entry document, or without one, is read.  The files of the package are
the regular files that are reached from the directory through directories and are not left out, in
the order in which the way through the package meets them, which is the increasing order of their
paths.  The names at the root are those of the entries of the directory that are not left out, in
increasing order.
-/
theorem load_exact
    (hroot : fs.node path = .ok (.directory entries))
    (hentry : ∀ file, fs.node (Path.join path Contract.entryFile) = .ok (.file file) →
      file.readable = true) :
    ∃ package, load fs path = .ok package ∧
      (∀ file, file ∈ package.files ↔
        (∃ content, (Node.directory entries).descend? file = some (.file content)) ∧
          ¬ IsLeftOut entries file) ∧
      (∀ name, name ∈ package.topLevel ↔
        (∃ node, (name, node) ∈ entries) ∧ ¬ IsLeftOut entries [name]) ∧
      package.files = (visitsAt fs path).filterMap Visit.file? ∧
      package.files.Pairwise (· < ·) ∧
      package.topLevel.Pairwise (· < ·) := by
  obtain ⟨document, hdocument⟩ := readDocument_of_readable hentry
  have hfiles := pairwise_files_visitsAt fs path
  have hload :
      load fs path = .ok {
        root := path
        name := nameOf path
        document
        files := (visitsAt fs path).filterMap Visit.file?
        topLevel := (visitsAt fs path).filterMap Visit.rootName?
        exclusions := readExclusions fs (Path.join path Contract.exclusionFile) } := by
    have hset := pathSet_eq_self hfiles
    simp only [load, hdocument, hset]
    rfl
  exact ⟨_, hload, fun file => mem_files_visitsAt hroot, fun name => mem_rootNames_visitsAt hroot,
    rfl, hfiles, pairwise_rootNames_visitsAt fs path⟩

/-- The entries of a package with a directory that is left out, and with a link, a file and a
directory further below that have names of such directories. -/
def mixedEntries : List (String × Node) :=
  [(".git", .directory [("config", .file { bytes := [] })]),
    (".venv", .link "a"),
    ("SKILL.md", .file { bytes := [45] }),
    ("a", .directory [(".git", .directory [("y", .file { bytes := [] })]),
      ("x", .file { bytes := [] })]),
    ("a.md", .file { bytes := [] }),
    ("node_modules", .file { bytes := [] })]

/-- The file system whose root directory is this package. -/
def mixedSystem : FileSystem where
  root := .directory mixedEntries
  workingDirectory := []
  ordered := by
    simp only [mixedEntries, Node.Ordered, Node.OrderedEntries]
    decide

/-- The package is read without the one directory that is left out. -/
theorem load_mixed_package :
    ∃ package, load mixedSystem "/" = .ok package ∧
      package.files =
        [["SKILL.md"], ["a", ".git", "y"], ["a", "x"], ["a.md"], ["node_modules"]] ∧
      ".git" ∉ package.topLevel ∧
      ".venv" ∈ package.topLevel := by
  have hsize :
      "/".utf8ByteSize = 1 ∧ "/SKILL.md".utf8ByteSize = 9 ∧ "SKILL.md".utf8ByteSize = 8 := by
    decide
  have hroot : mixedSystem.node "/" = .ok (.directory mixedEntries) := by
    have hsteps : FileSystem.stepsOf "/" = ["."] := by
      decide
    have habsolute : Path.isAbsolute "/" = true := by
      decide
    simp [FileSystem.node, FileSystem.trail, FileSystem.land, FileSystem.pathLimit,
      FileSystem.follow, FileSystem.nodeAt, mixedSystem, hsteps, habsolute, hsize, Except.map]
  have hentry :
      mixedSystem.node (Path.join "/" Contract.entryFile) = .ok (.file { bytes := [45] }) := by
    have hjoin : Path.join "/" Contract.entryFile = "/SKILL.md" := by
      decide
    have hsteps : FileSystem.stepsOf "/SKILL.md" = ["SKILL.md"] := by
      decide
    have habsolute : Path.isAbsolute "/SKILL.md" = true := by
      decide
    simp [FileSystem.node, FileSystem.trail, FileSystem.land, FileSystem.pathLimit,
      FileSystem.nameLimit, FileSystem.follow, FileSystem.nodeAt, mixedSystem, mixedEntries,
      Node.find?, hjoin, hsteps, habsolute, hsize, Except.map]
  have hreadable : ∀ file,
      mixedSystem.node (Path.join "/" Contract.entryFile) = .ok (.file file) →
      file.readable = true := by
    intro file hfile
    rw [hentry] at hfile
    cases hfile
    rfl
  obtain ⟨package, hload, -, htop, hwalk, -, -⟩ := load_exact hroot hreadable
  refine ⟨package, hload, ?_, ?_, ?_⟩
  · rw [hwalk, visitsAt_of_directory hroot]
    decide
  · rw [htop]
    rintro ⟨-, hkept⟩
    exact hkept ⟨".git", _, rfl, List.mem_cons_self, by decide⟩
  · rw [htop]
    refine ⟨⟨.link "a", by simp [mixedEntries]⟩, ?_⟩
    rintro ⟨name, inner, hname, hmem, -⟩
    cases hname
    simp [mixedEntries] at hmem

end Snapshot

end Package
end SkillAudit
