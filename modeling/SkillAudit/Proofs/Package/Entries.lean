import SkillAudit.Proofs.Package.Snapshot

/-!
# A package and the entries of its root

The documents of a package are looked for by their paths, with links followed; its names and files
are met on the way through it, where no link is followed.  Both see the same entries of the root: a
document that is there stands under a name of the root, be it a file or a link to one.

* `load_eq_ok_iff`: what a package that is read consists of.
* `node_of_readDocument`, `node_of_readExclusions`: the documents are texts of files.
* `mem_topLevel_of_node`: what is found under a name is an entry of the root.
* `exists_cons_of_mem_files`: the path of a file starts with the name of an entry.
-/

namespace SkillAudit

theorem Path.ofNames_cons_cons
    (name next : String)
    (more : List String) :
    ofNames (name :: next :: more) = name ++ "/" ++ ofNames (next :: more) := by
  rw [← String.toList_inj]
  simp [ofNames]

/-- A path of names starts with the first of them. -/
theorem Path.isAbsolute_ofNames
    {name : String}
    (hname : IsEntryName name)
    (below : List String) :
    isAbsolute (ofNames (name :: below)) = false := by
  have hfirst := hname.isAbsolute_eq_false
  cases below with
  | nil =>
      rwa [ofNames, String.intercalate_singleton]
  | cons next more =>
      rw [ofNames_cons_cons, String.append_assoc, isAbsolute_append hname.ne_empty, hfirst]

theorem FileSystem.isFile_iff
    {fs : FileSystem}
    {path : String} :
    fs.isFile path = true ↔ ∃ file, fs.node path = .ok (.file file) := by
  unfold isFile
  split
  · next file hnode => simp [hnode]
  · next hother => simpa using hother

namespace Package

section Entries

variable {fs : FileSystem}
variable {path : String}
variable {package : Package}

/-- A package that is read is its document with what is met on the way through it. -/
theorem load_eq_ok_iff :
    load fs path = .ok package ↔
      ∃ document, readDocument fs (Path.join path Contract.entryFile) = .ok document ∧
        package = {
          root := path
          name := nameOf path
          document
          files := (visitsAt fs path).filterMap Visit.file?
          topLevel := (visitsAt fs path).filterMap Visit.rootName?
          exclusions := readExclusions fs (Path.join path Contract.exclusionFile) } := by
  have hset := pathSet_eq_self (pairwise_files_visitsAt fs path)
  rw [load]
  cases readDocument fs (Path.join path Contract.entryFile) with
  | error error => simp [bind, Except.bind]
  | ok document => simp [bind, Except.bind, pure, Except.pure, hset, eq_comm]

/-- A document that was read is the text of a file. -/
theorem node_of_readDocument
    {document : Document}
    (h : readDocument fs path = .ok (some document)) :
    ∃ file bytes, fs.node path = .ok (.file file) ∧
      document = Document.ofText (Text.Utf8.decodeLenient bytes) := by
  cases hfile : fs.isFile path with
  | false =>
      rw [readDocument, hfile] at h
      cases h
  | true =>
      obtain ⟨file, hnode⟩ := FileSystem.isFile_iff.1 hfile
      rw [readDocument, hfile, if_pos rfl] at h
      split at h
      · next bytes _ =>
          cases h
          exact ⟨file, bytes, hnode, rfl⟩
      · cases h

theorem node_of_readExclusions
    {text : String}
    (h : readExclusions fs path = some text) :
    ∃ file, fs.node path = .ok (.file file) := by
  cases hfile : fs.isFile path with
  | false =>
      rw [readExclusions, hfile] at h
      cases h
  | true =>
      exact FileSystem.isFile_iff.1 hfile

variable {entries : List (String × Node)}

/-- What is found under a name in the root is there because of an entry of the root; unless the name
is one under which directories are left out, the entry is met. -/
theorem mem_topLevel_of_node
    {name : String}
    {node : Node}
    (hroot : fs.node path = .ok (.directory entries))
    (hload : load fs path = .ok package)
    (hname : Path.IsEntryName name)
    (hkept : name ∉ Contract.skippedDirectories)
    (h : fs.node (Path.join path name) = .ok node) :
    name ∈ package.topLevel := by
  obtain ⟨document, -, rfl⟩ := load_eq_ok_iff.1 hload
  refine (mem_rootNames_visitsAt hroot).2 ⟨?_, ?_⟩
  · exact FileSystem.exists_entry_of_node_join hroot hname h
  · rintro ⟨other, inner, hhead, -, hskipped⟩
    obtain rfl : name = other := Option.some.inj hhead
    exact hkept hskipped

/-- The name of an entry document is a name of the root. -/
theorem entryFile_mem_topLevel
    (hroot : fs.node path = .ok (.directory entries))
    (hload : load fs path = .ok package)
    (hdocument : package.document.isSome = true) :
    Contract.entryFile ∈ package.topLevel := by
  obtain ⟨document, hread, hpackage⟩ := load_eq_ok_iff.1 hload
  rw [hpackage, Option.isSome_iff_exists] at hdocument
  obtain ⟨found, hfound⟩ := hdocument
  obtain rfl : document = some found := hfound
  obtain ⟨file, -, hnode, -⟩ := node_of_readDocument hread
  exact mem_topLevel_of_node hroot hload (by decide) (by decide) hnode

/-- The name of an exclusion file is a name of the root. -/
theorem exclusionFile_mem_topLevel
    (hroot : fs.node path = .ok (.directory entries))
    (hload : load fs path = .ok package)
    (hexclusions : package.exclusions.isSome = true) :
    Contract.exclusionFile ∈ package.topLevel := by
  obtain ⟨document, -, hpackage⟩ := load_eq_ok_iff.1 hload
  rw [hpackage, Option.isSome_iff_exists] at hexclusions
  obtain ⟨text, htext⟩ := hexclusions
  obtain ⟨file, hnode⟩ := node_of_readExclusions htext
  exact mem_topLevel_of_node hroot hload (by decide) (by decide) hnode

/-- A file of a package is reached by a name of the root. -/
theorem exists_cons_of_mem_files
    {file : List String}
    (hroot : fs.node path = .ok (.directory entries))
    (hload : load fs path = .ok package)
    (hfile : file ∈ package.files) :
    ∃ entry ∈ entries, ∃ below, file = entry.1 :: below := by
  obtain ⟨document, -, rfl⟩ := load_eq_ok_iff.1 hload
  obtain ⟨⟨content, hcontent⟩, -⟩ := (mem_files_visitsAt hroot).1 hfile
  cases file with
  | nil =>
      cases hcontent
  | cons name below =>
      obtain ⟨node, hfind, -⟩ := Option.bind_eq_some_iff.1 hcontent
      exact ⟨(name, node), Node.mem_of_find? hfind, below, rfl⟩

end Entries

end Package
end SkillAudit
