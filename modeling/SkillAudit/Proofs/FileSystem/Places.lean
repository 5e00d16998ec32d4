import SkillAudit.Proofs.FileSystem.Writing

/-!
# Places and their spellings

A place is given by its names from the root down.  Whatever path leads to a place, it leads there by
the same trail; so a name after it leads to the same entry, as long as the path is not too long and
the links on the way are not too many.  In a tree whose names are names of entries, the path of
every node below a place is spelled with the names on the way to it.

* `trail_of_canonical`: the trail to a place is fixed.
* `follow_add_links`, `follow_congr`: how many links may be passed matters only where they are too
  many.
* `land_join_congr`: an entry of a place is found by any spelling of the place.
* `parts_spelled`: the parts of a path below a spelling start with those of the spelling.
* `node_spelled`: such a path leads to the node.
-/

namespace SkillAudit

namespace Node

mutual

/-- Every entry at any depth has a name that an entry can have. -/
def Named : Node → Prop
  | .directory entries => NamedEntries entries
  | _ => True

/-- Every one of the entries has a name that an entry can have, and is named. -/
def NamedEntries : List (String × Node) → Prop
  | [] => True
  | (name, node) :: rest =>
      (Path.IsEntryName name ∧ name.utf8ByteSize ≤ FileSystem.nameLimit ∧ Named node) ∧
        NamedEntries rest

end

section Named

variable {name : String}
variable {names : List String}
variable {node found : Node}
variable {entries : List (String × Node)}

theorem named_of_find?
    (hnamed : (directory entries).Named)
    (hentry : find? name entries = some node) :
    Path.IsEntryName name ∧ name.utf8ByteSize ≤ FileSystem.nameLimit ∧ node.Named := by
  rw [Named] at hnamed
  have hmem := mem_of_find? hentry
  clear hentry
  induction entries with
  | nil =>
      cases hmem
  | cons entry rest ih =>
      rcases List.mem_cons.1 hmem with rfl | hmem
      · exact hnamed.1
      · exact ih hnamed.2 hmem

/-- The names that lead somewhere in a named tree are names of entries. -/
theorem isEntryName_of_descend?
    (hnamed : node.Named)
    (h : node.descend? names = some found) :
    ∀ name ∈ names, Path.IsEntryName name := by
  induction names generalizing node with
  | nil =>
      exact List.forall_mem_nil _
  | cons name rest ih =>
      cases node with
      | file content => cases h
      | link target => cases h
      | directory entries =>
          obtain ⟨child, hchild, hrest⟩ := Option.bind_eq_some_iff.1 h
          obtain ⟨hname, -, hbelow⟩ := named_of_find? hnamed hchild
          exact List.forall_mem_cons.2 ⟨hname, ih hbelow hrest⟩

/-- What stands in a named tree is named. -/
theorem Named.descend?
    (hnamed : node.Named)
    (h : node.descend? names = some found) :
    found.Named := by
  induction names generalizing node with
  | nil =>
      exact Option.some.inj h ▸ hnamed
  | cons name rest ih =>
      cases node with
      | file content => cases h
      | link target => cases h
      | directory entries =>
          obtain ⟨child, hchild, hrest⟩ := Option.bind_eq_some_iff.1 h
          exact ih (named_of_find? hnamed hchild).2.2 hrest

end Named

end Node

namespace Path

section Spelled

variable {base name : String}
variable {names : List String}

/-- Empty pieces are no parts. -/
theorem filterMap_partOf?_filter
    (list : List String) :
    (list.filter (· != "")).filterMap partOf? = list.filterMap partOf? := by
  induction list with
  | nil =>
      rfl
  | cons piece rest ih =>
      by_cases hpiece : piece = ""
      · simp [hpiece, partOf?, ih]
      · rw [List.filter_cons_of_pos (by simpa using hpiece), List.filterMap_cons,
          List.filterMap_cons, ih]

/-- The first piece of a path is that of its directory. -/
theorem head?_pieces_join
    (hbase : base ≠ "")
    (hname : IsEntryName name) :
    (pieces (join base name)).head? = (pieces base).head? := by
  obtain ⟨front, hjoin, hfront⟩ := exists_join_eq_append_slash hbase
  have hhead (back : List String) : (pieces front ++ back).head? = (pieces front).head? :=
    List.head?_append_of_ne_nil _ (pieces_ne_nil front)
  rw [hjoin name hname, pieces_append_slash, hhead]
  rcases hfront with hfront | hfront
  · rw [hfront, pieces_concat_slash, hhead]
  · rw [hfront]

/-- A name in a directory is one part more. -/
theorem parts_join
    (hbase : base ≠ "")
    (hname : IsEntryName name) :
    parts (join base name) = parts base ++ [.name name] := by
  have hlast : [name].filterMap partOf? = [.name name] := by
    simp [partOf?, hname.ne_empty, hname.ne_here, hname.ne_up]
  have hinner : (pieces (join base name)).filterMap partOf? =
      (pieces base).filterMap partOf? ++ [.name name] := by
    rw [← filterMap_partOf?_filter, filter_pieces_join hbase hname, List.filterMap_append,
      filterMap_partOf?_filter, hlast]
  simp only [parts, hinner, isAbsolute_join hbase hname, head?_pieces_join hbase hname]
  split_ifs <;> rfl

/-- The path of what is reached by some names from a directory that is spelled in this way. -/
def spelled (path : String) (names : List String) : String :=
  names.foldl join path

/-- The parts of the path are those of the directory as it is spelled, and the names. -/
theorem parts_spelled
    (hbase : base ≠ "")
    (hnames : ∀ name ∈ names, IsEntryName name) :
    parts (spelled base names) = parts base ++ names.map .name := by
  induction names generalizing base with
  | nil =>
      exact (List.append_nil _).symm
  | cons name rest ih =>
      obtain ⟨hname, hrest⟩ := List.forall_mem_cons.1 hnames
      rw [spelled, List.foldl_cons, ← spelled, ih (join_ne_empty hbase hname) hrest,
        parts_join hbase hname, List.append_assoc, List.map_cons, List.singleton_append]

theorem spelled_ne_empty
    (hbase : base ≠ "")
    (hnames : ∀ name ∈ names, IsEntryName name) :
    spelled base names ≠ "" := by
  induction names generalizing base with
  | nil =>
      exact hbase
  | cons name rest ih =>
      obtain ⟨hname, hrest⟩ := List.forall_mem_cons.1 hnames
      exact ih (join_ne_empty hbase hname) hrest

/-- A name is put after its directory, with at most a slash between them. -/
theorem exists_join_eq
    (base : String)
    (hname : IsEntryName name) :
    ∃ slash, (slash = "" ∨ slash = "/") ∧ join base name = base ++ slash ++ name := by
  unfold join
  rw [hname.isAbsolute_eq_false, if_neg Bool.false_ne_true]
  split
  · exact ⟨"", Or.inl rfl, by rw [String.append_empty]⟩
  · exact ⟨"/", Or.inr rfl, rfl⟩

/-- The directory of a path that can be handed over can be handed over. -/
theorem fits_of_join
    (hname : IsEntryName name)
    (h : FileSystem.Fits (join base name)) :
    FileSystem.Fits base := by
  obtain ⟨slash, -, hjoin⟩ := exists_join_eq base hname
  rw [hjoin] at h
  constructor
  · intro hend
    refine h.no_end ?_
    rw [String.toList_append, String.toList_append]
    exact List.mem_append_left _ (List.mem_append_left _ hend)
  · have hshort := h.short
    rw [String.utf8ByteSize_append, String.utf8ByteSize_append] at hshort
    omega

theorem fits_of_spelled
    (hnames : ∀ name ∈ names, IsEntryName name)
    (h : FileSystem.Fits (spelled base names)) :
    FileSystem.Fits base := by
  induction names generalizing base with
  | nil =>
      exact h
  | cons name rest ih =>
      obtain ⟨hname, hrest⟩ := List.forall_mem_cons.1 hnames
      exact fits_of_join hname (ih hrest h)

/-- A path can be handed over if no name in it has a character that ends it and all of them, each
with a slash before it, are short enough. -/
theorem fits_spelled
    {size : Nat}
    (hnames : ∀ name ∈ names, IsEntryName name)
    (hend : ∀ text ∈ base :: names, '\x00' ∉ text.toList)
    (hsizes : ∀ name ∈ names, name.utf8ByteSize ≤ size)
    (hshort : base.utf8ByteSize + names.length * (size + 1) ≤ FileSystem.pathLimit) :
    FileSystem.Fits (spelled base names) := by
  induction names generalizing base with
  | nil =>
      exact ⟨hend base List.mem_cons_self, Nat.le_of_add_right_le hshort⟩
  | cons name rest ih =>
      obtain ⟨hname, hrest⟩ := List.forall_mem_cons.1 hnames
      obtain ⟨hsize, hsizes⟩ := List.forall_mem_cons.1 hsizes
      obtain ⟨slash, hslash, hjoin⟩ := exists_join_eq base hname
      have hslashEnd : '\x00' ∉ slash.toList ∧ slash.utf8ByteSize ≤ 1 := by
        rcases hslash with rfl | rfl <;> decide
      simp only [List.forall_mem_cons] at hend
      refine ih hrest (List.forall_mem_cons.2 ⟨?_, hend.2.2⟩) hsizes ?_
      · rw [hjoin]
        simp [hend.1, hslashEnd.1, hend.2.1]
      · rw [List.length_cons, Nat.add_mul, Nat.one_mul] at hshort
        rw [hjoin, String.utf8ByteSize_append, String.utf8ByteSize_append]
        omega

end Spelled

end Path

namespace FileSystem

section Trails

variable {root : Node}

/-- A trail is the one through its names. -/
theorem Trail.Leads.trailOf_names
    {trail : Trail}
    (h : Trail.Leads root trail) :
    trailOf root trail.names = trail := by
  induction h with
  | start =>
      rfl
  | @step trail entries name node hdirectory hentry _ ih =>
      have hlast : FileSystem.enter root trail name = (name, node) :: trail := by
        rw [FileSystem.enter, hdirectory]
        dsimp only
        rw [hentry]
      rw [trailOf] at ih
      rw [Trail.names_cons, trailOf, List.foldl_append, ih, List.foldl_cons, List.foldl_nil, hlast]

variable {fs : FileSystem}
variable {path : String}
variable {place : List String}

/-- A path to a place leads there by the trail through the names of the place. -/
theorem trail_of_canonical
    (h : fs.canonical path = .ok place) :
    fs.trail path = .ok (trailOf fs.root place) ∧
      fs.root.descend? place = some (nodeAt fs.root (trailOf fs.root place)) := by
  unfold canonical at h
  cases htrail : fs.trail path with
  | error fault =>
      rw [htrail] at h
      cases h
  | ok trail =>
      rw [htrail] at h
      obtain rfl : trail.names = place := Except.ok.inj h
      have hleads := leads_of_trail htrail
      rw [hleads.trailOf_names]
      exact ⟨rfl, hleads.descend?⟩

end Trails

section Links

variable {root : Node}
variable {followLast : Bool}
variable {links : Nat}
variable {trail : Trail}
variable {steps : List String}

/-- More links change nothing unless there were too many. -/
theorem follow_add_links
    (h : follow root followLast links trail steps ≠ .error .tooManyLinks)
    (more : Nat) :
    follow root followLast (links + more) trail steps =
      follow root followLast links trail steps := by
  fun_induction follow root followLast links trail steps with
  | case1 links trail =>
      rw [follow]
  | case2 links trail rest entries hdirectory ih =>
      rw [← ih h, follow]
      simp only [hdirectory, if_true]
  | case3 links trail rest entries hdirectory hdot ih =>
      rw [← ih h, follow]
      simp only [hdirectory, hdot, if_false, if_true]
  | case4 links trail name rest entries hdirectory hdot hup hlong =>
      rw [follow]
      simp only [hdirectory, hdot, hup, hlong, if_false, if_true]
  | case5 links trail name rest entries hdirectory hdot hup hshort hentry hrest
  | case6 links trail name rest entries hdirectory hdot hup hshort hentry hrest =>
      rw [follow]
      simp only [hdirectory, hdot, hup, hshort, hentry, hrest, if_false, if_true,
        Bool.false_eq_true]
  | case7 links trail name rest entries hdirectory hdot hup hshort target hentry hlast =>
      rw [follow]
      simp only [hdirectory, hdot, hup, hshort, hentry, hlast, if_false, if_true]
  | case8 =>
      exact absurd rfl h
  | case9 trail name rest entries hdirectory hdot hup hshort target hentry hlast links ih =>
      simp only [dite_eq_ite] at ih
      rw [← ih h, Nat.succ_add, follow]
      simp only [hdirectory, hdot, hup, hshort, hentry, hlast, if_false, Bool.false_eq_true]
  | case10 links trail name rest entries hdirectory hdot hup hshort node hlink hentry ih =>
      rw [← ih h, follow]
      simp only [hdirectory, hdot, hup, hshort, hentry, if_false]
  | case11 links trail name rest hother =>
      rw [follow]
      split
      · next entries hdirectory => exact absurd hdirectory (hother entries)
      · rfl

/-- Where links are never too many, it does not matter how many may be passed. -/
theorem follow_congr
    {others : Nat}
    (h : follow root followLast links trail steps ≠ .error .tooManyLinks)
    (hothers : follow root followLast others trail steps ≠ .error .tooManyLinks) :
    follow root followLast links trail steps = follow root followLast others trail steps := by
  rcases Nat.le_total links others with hle | hle
  · rw [← follow_add_links h (others - links), Nat.add_sub_cancel' hle]
  · rw [← follow_add_links hothers (links - others), Nat.add_sub_cancel' hle]

end Links

section Spellings

/-- The names to follow below a directory come after those for the directory. -/
theorem stepsOf_spelled
    {base : String}
    {names : List String}
    (hbase : base ≠ "")
    (hslash : Path.endsWithSlash base = false)
    (hnames : ∀ name ∈ names, Path.IsEntryName name) :
    stepsOf (Path.spelled base names) = stepsOf base ++ names := by
  induction names generalizing base with
  | nil =>
      exact (List.append_nil _).symm
  | cons name rest ih =>
      obtain ⟨hname, hrest⟩ := List.forall_mem_cons.1 hnames
      have hjoin : stepsOf (Path.join base name) = stepsOf base ++ [name] := by
        simp [stepsOf, Path.filter_pieces_join hbase hname, Path.endsWithSlash_join hbase hname,
          hslash]
      rw [Path.spelled, List.foldl_cons, ← Path.spelled,
        ih (Path.join_ne_empty hbase hname) (Path.endsWithSlash_join hbase hname) hrest, hjoin,
        List.append_assoc, List.singleton_append]

variable {fs : FileSystem}
variable {path other name : String}

/-- The limits of the system do not stand in the way of a path: it can be handed over, and the links
on its way are not too many. -/
structure IsWithinLimits (fs : FileSystem) (path : String) : Prop where
  fits : Fits path
  links : fs.land path true ≠ .error .tooManyLinks

/-- A name leads to the same entry after any path to its directory. -/
theorem land_join_congr
    {trail : Trail}
    (htrail : fs.trail path = .ok trail)
    (hother : fs.trail other = .ok trail)
    (hname : Path.IsEntryName name)
    (hpath : fs.IsWithinLimits (Path.join path name))
    (hspelling : fs.IsWithinLimits (Path.join other name)) :
    fs.land (Path.join path name) true = fs.land (Path.join other name) true := by
  obtain ⟨links, hland⟩ := land_join htrail hname hpath.fits
  obtain ⟨others, hlanding⟩ := land_join hother hname hspelling.fits
  have hlinks := hpath.links
  have hmore := hspelling.links
  rw [hland] at hlinks
  rw [hlanding] at hmore
  rw [hland, hlanding]
  exact follow_congr hlinks hmore

/-- An entry that is no link, or that is missing, is not beyond the limit of links. -/
theorem isWithinLimits_join
    {trail : Trail}
    {entries : List (String × Node)}
    (htrail : fs.trail path = .ok trail)
    (hdirectory : nodeAt fs.root trail = .directory entries)
    (hname : Path.IsEntryName name)
    (hfits : Fits (Path.join path name))
    (hentry : ∀ target, Node.find? name entries ≠ some (.link target)) :
    fs.IsWithinLimits (Path.join path name) := by
  obtain ⟨links, hland⟩ := land_join htrail hname hfits
  refine ⟨hfits, ?_⟩
  rw [hland]
  cases hnode : Node.find? name entries with
  | none =>
      rw [follow_absent hname hdirectory hnode]
      split <;> exact fun h => nomatch h
  | some node =>
      have hlink : ∀ target, node ≠ .link target := by
        rintro target rfl
        exact hentry target hnode
      rw [follow_entry hname hdirectory hnode hlink]
      split <;> exact fun h => nomatch h

/-- In a named tree, the path of a node below a place leads to it, unless it is a link. -/
theorem node_spelled
    {trail : Trail}
    {names : List String}
    {node : Node}
    (htrail : fs.trail path = .ok trail)
    (hnamed : (nodeAt fs.root trail).Named)
    (hnode : (nodeAt fs.root trail).descend? names = some node)
    (hlink : ∀ target, node ≠ .link target)
    (hfits : Fits (Path.spelled path names)) :
    fs.node (Path.spelled path names) = .ok node := by
  induction names generalizing path trail with
  | nil =>
      exact node_eq_ok_iff.2 ⟨trail, htrail, Option.some.inj hnode⟩
  | cons name rest ih =>
      cases hreached : nodeAt fs.root trail with
      | file content =>
          rw [hreached] at hnode
          cases hnode
      | link target =>
          rw [hreached] at hnode
          cases hnode
      | directory entries =>
          rw [hreached] at hnode hnamed
          obtain ⟨child, hchild, hrest⟩ := Option.bind_eq_some_iff.1 hnode
          obtain ⟨hname, hshort, hbelow⟩ := Node.named_of_find? hnamed hchild
          have hnames := Node.isEntryName_of_descend? hbelow hrest
          -- A link on the way would end it, and the last node is none.
          have hchildLink : ∀ target, child ≠ .link target := by
            rintro target rfl
            cases rest with
            | nil => exact hlink target (Option.some.inj hrest).symm
            | cons next more => cases hrest
          exact ih (trail_join htrail hreached hname hshort (Path.fits_of_spelled hnames hfits)
            hchild hchildLink) hbelow hrest hfits

end Spellings

end FileSystem
end SkillAudit
