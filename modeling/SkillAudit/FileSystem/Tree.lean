/-!
# File trees

A tree of directories, regular files and symbolic links as a plain value.  The entries of a
directory stand in increasing order of their names, and insertion keeps them so.

A name is a Unicode text here.  On a system where a name is any bytes, an entry whose name is no
UTF-8 has no place in such a tree; nothing is lost, therefore, where a name is shown.  Only files
have permissions, and there are no devices.
-/

namespace SkillAudit

/-- A regular file. -/
structure File where
  bytes : List UInt8
  /-- The permission bits. -/
  mode : Nat := 0o644
  readable : Bool := true
  deriving DecidableEq, Repr

/-- Whether one of the execute bits is set. -/
def File.isExecutable (file : File) : Bool :=
  file.mode &&& 0o111 != 0

/-- An entry of a file tree. -/
inductive Node where
  | file (content : File)
  | link (target : String)
  | directory (entries : List (String × Node))

namespace Node

/-- The directory without entries. -/
def empty : Node :=
  .directory []

/-- Whether the entry is a directory; a link is none. -/
def isDirectory : Node → Bool
  | .directory _ => true
  | _ => false

/-- The named entry of a list of entries. -/
def find? (name : String) : List (String × Node) → Option Node
  | [] => none
  | (key, node) :: rest => if key = name then some node else find? name rest

/-- Put an entry in its place by name; an entry of that name is replaced. -/
def insertEntry (name : String) (node : Node) : List (String × Node) → List (String × Node)
  | [] => [(name, node)]
  | (key, old) :: rest =>
      if key = name then (name, node) :: rest
      else if name < key then (name, node) :: (key, old) :: rest
      else (key, old) :: insertEntry name node rest

/-- Take the entry of a name away. -/
def eraseEntry (name : String) (entries : List (String × Node)) : List (String × Node) :=
  entries.filter (·.1 != name)

/-- The node reached through directories by these names. -/
def descend? (node : Node) : List String → Option Node
  | [] => some node
  | name :: rest =>
      match node with
      | .directory entries => (find? name entries).bind (descend? · rest)
      | _ => none

/-- Change the entries of the directory reached by these names; elsewhere nothing changes. -/
def updateDirectory
    (change : List (String × Node) → List (String × Node)) :
    List String → Node → Node
  | [], .directory entries => .directory (change entries)
  | name :: rest, .directory entries =>
      match find? name entries with
      | some child =>
          .directory (insertEntry name (updateDirectory change rest child) entries)
      | none => .directory entries
  | _, node => node

mutual

/-- The entries of every directory stand in increasing order of their names. -/
def Ordered : Node → Prop
  | .directory entries => entries.Pairwise (·.1 < ·.1) ∧ OrderedEntries entries
  | _ => True

/-- Every one of the entries is ordered. -/
def OrderedEntries : List (String × Node) → Prop
  | [] => True
  | (_, node) :: rest => Ordered node ∧ OrderedEntries rest

end

/-- What holds of files and links, and of a directory if it holds of its entries, holds of trees. -/
theorem induction
    {motive : Node → Prop}
    (file : ∀ content, motive (.file content))
    (link : ∀ target, motive (.link target))
    (directory : ∀ entries, (∀ entry ∈ entries, motive entry.2) → motive (.directory entries))
    (node : Node) :
    motive node :=
  @Node.rec motive (fun entries => ∀ entry ∈ entries, motive entry.2) (fun entry => motive entry.2)
    file link directory
    (fun _ h => absurd h List.not_mem_nil)
    (fun _ _ hfirst hrest => List.forall_mem_cons.2 ⟨hfirst, hrest⟩)
    (fun _ _ h => h)
    node

/-- An inserted entry is found under its name. -/
@[simp] theorem find?_insertEntry_self
    (name : String)
    (node : Node)
    (entries : List (String × Node)) :
    find? name (insertEntry name node entries) = some node := by
  induction entries with
  | nil =>
      simp [insertEntry, find?]
  | cons entry rest ih =>
      obtain ⟨key, old⟩ := entry
      unfold insertEntry
      split
      · simp [find?]
      · next hne =>
          split
          · simp [find?]
          · simp [find?, hne, ih]

/-- The entries are ordered if each of them is. -/
theorem orderedEntries_iff
    {entries : List (String × Node)} :
    OrderedEntries entries ↔ ∀ entry ∈ entries, entry.2.Ordered := by
  induction entries with
  | nil =>
      simp [OrderedEntries]
  | cons entry rest ih =>
      simp [OrderedEntries, ih]

/-- A directory is ordered if its entries stand in order and are ordered. -/
theorem ordered_directory
    {entries : List (String × Node)} :
    (directory entries).Ordered ↔
      entries.Pairwise (·.1 < ·.1) ∧ ∀ entry ∈ entries, entry.2.Ordered := by
  rw [Ordered, orderedEntries_iff]

/-- The directory without entries is ordered. -/
theorem ordered_empty : empty.Ordered := by
  simp [empty, ordered_directory]

/-- A named entry is one of the entries. -/
theorem mem_of_find?
    {name : String}
    {node : Node}
    {entries : List (String × Node)}
    (h : find? name entries = some node) :
    (name, node) ∈ entries := by
  induction entries with
  | nil =>
      simp [find?] at h
  | cons entry rest ih =>
      obtain ⟨key, old⟩ := entry
      unfold find? at h
      split at h
      · next hkey =>
          cases h
          rw [hkey]
          exact List.mem_cons_self
      · exact List.mem_cons_of_mem _ (ih h)

/-- When the names are in order, what is found under a name is the one entry of that name. -/
theorem find?_eq_some_iff
    {name : String}
    {node : Node}
    {entries : List (String × Node)}
    (hnames : entries.Pairwise (·.1 < ·.1)) :
    find? name entries = some node ↔ (name, node) ∈ entries := by
  refine ⟨mem_of_find?, ?_⟩
  intro hmem
  induction entries with
  | nil =>
      cases hmem
  | cons entry rest ih =>
      obtain ⟨key, old⟩ := entry
      obtain ⟨hfirst, hrest⟩ := List.pairwise_cons.1 hnames
      rcases List.mem_cons.1 hmem with heq | hmem
      · cases heq
        simp [find?]
      · have hne : key ≠ name := String.ne_of_lt (hfirst _ hmem)
        simp [find?, hne, ih hrest hmem]

/-- One name leads from a directory to the entry of that name. -/
theorem descend?_singleton
    (name : String)
    (entries : List (String × Node)) :
    (directory entries).descend? [name] = find? name entries := by
  simp [descend?]

/-- Insertion brings in one entry and no other. -/
theorem eq_or_mem_of_mem_insertEntry
    {name : String}
    {node : Node}
    {entries : List (String × Node)}
    {entry : String × Node}
    (h : entry ∈ insertEntry name node entries) :
    entry = (name, node) ∨ entry ∈ entries := by
  induction entries with
  | nil =>
      exact Or.inl (by simpa [insertEntry] using h)
  | cons first rest ih =>
      obtain ⟨key, old⟩ := first
      unfold insertEntry at h
      split at h
      · rcases List.mem_cons.1 h with h | h
        · exact Or.inl h
        · exact Or.inr (List.mem_cons_of_mem _ h)
      · split at h
        · exact List.mem_cons.1 h
        · rcases List.mem_cons.1 h with rfl | h
          · exact Or.inr List.mem_cons_self
          · exact (ih h).imp id (List.mem_cons_of_mem _)

/-- Insertion keeps the entries in order. -/
theorem pairwise_insertEntry
    (name : String)
    (node : Node)
    {entries : List (String × Node)}
    (h : entries.Pairwise (·.1 < ·.1)) :
    (insertEntry name node entries).Pairwise (·.1 < ·.1) := by
  induction entries with
  | nil =>
      simp [insertEntry]
  | cons first rest ih =>
      obtain ⟨key, old⟩ := first
      obtain ⟨hfirst, hrest⟩ := List.pairwise_cons.1 h
      unfold insertEntry
      split
      · next hkey =>
          subst hkey
          exact List.pairwise_cons.2 ⟨hfirst, hrest⟩
      · next hne =>
          split
          · next hlt =>
              refine List.pairwise_cons.2 ⟨?_, h⟩
              intro entry hentry
              rcases List.mem_cons.1 hentry with rfl | hentry
              · exact hlt
              · exact String.lt_trans hlt (hfirst entry hentry)
          · next hle =>
              have hlt : key < name :=
                Decidable.byContradiction fun hnot =>
                  hne (String.le_antisymm (String.not_lt.1 hle) (String.not_lt.1 hnot))
              refine List.pairwise_cons.2 ⟨?_, ih hrest⟩
              intro entry hentry
              rcases eq_or_mem_of_mem_insertEntry hentry with rfl | hentry
              · exact hlt
              · exact hfirst entry hentry

/-- An ordered directory stays ordered when an ordered node is put in. -/
theorem Ordered.insertEntry
    (name : String)
    {node : Node}
    {entries : List (String × Node)}
    (hnode : node.Ordered)
    (h : (directory entries).Ordered) :
    (directory (insertEntry name node entries)).Ordered := by
  obtain ⟨hnames, hentries⟩ := ordered_directory.1 h
  refine ordered_directory.2 ⟨pairwise_insertEntry name node hnames, ?_⟩
  intro entry hentry
  rcases eq_or_mem_of_mem_insertEntry hentry with rfl | hentry
  · exact hnode
  · exact hentries entry hentry

/-- An ordered directory stays ordered when an entry is taken away. -/
theorem Ordered.eraseEntry
    (name : String)
    {entries : List (String × Node)}
    (h : (directory entries).Ordered) :
    (directory (eraseEntry name entries)).Ordered := by
  obtain ⟨hnames, hentries⟩ := ordered_directory.1 h
  refine ordered_directory.2 ⟨hnames.sublist List.filter_sublist, ?_⟩
  intro entry hentry
  exact hentries entry (List.mem_filter.1 hentry).1

/-- A tree stays ordered when one of its directories is changed into an ordered one. -/
theorem Ordered.updateDirectory
    {change : List (String × Node) → List (String × Node)}
    (hchange : ∀ entries, (directory entries).Ordered → (directory (change entries)).Ordered)
    (names : List String)
    {node : Node}
    (h : node.Ordered) :
    (node.updateDirectory change names).Ordered := by
  induction names generalizing node with
  | nil =>
      cases node with
      | file content => exact h
      | link target => exact h
      | directory entries => exact hchange entries h
  | cons name rest ih =>
      cases node with
      | file content => exact h
      | link target => exact h
      | directory entries =>
          unfold Node.updateDirectory
          split
          · next child hfind =>
              have hchild := (ordered_directory.1 h).2 _ (mem_of_find? hfind)
              exact Ordered.insertEntry name (ih hchild) h
          · exact h

end Node
end SkillAudit
