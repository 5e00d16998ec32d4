import Mathlib.Data.List.Basic
import SkillAudit.FileSystem.Resolution
import SkillAudit.Proofs.Text.LineCuts

/-!
# The entries of a directory by their paths

The path of an entry is that of the directory with the name of the entry after it.  It leads where
the path of the directory leads, whatever links that passes, and then one name further.  An entry
that is no link is what is reached; a link is followed to what may stand anywhere.

* `follow_append`: the names after those of a path are followed from where the path leads.
* `land_join`: where the path of an entry leads.
* `trail_join`, `trail_join_of_absent`: it leads to the entry, if there is one and it is no link.
* `trail_name`, `trail_name_of_absent`: the same of a name alone, in the working directory.
* `eq_of_node_join`: what it names is the entry, unless that is a link.
* `exists_entry_of_node_join`: what it names is there because of an entry.
-/

namespace SkillAudit

namespace Path

/-- A name that an entry of a directory can have. -/
structure IsEntryName (name : String) : Prop where
  ne_empty : name ≠ ""
  ne_here : name ≠ "."
  ne_up : name ≠ ".."
  no_slash : '/' ∉ name.toList

instance (name : String) : Decidable (IsEntryName name) :=
  decidable_of_iff (name ≠ "" ∧ name ≠ "." ∧ name ≠ ".." ∧ '/' ∉ name.toList)
    ⟨fun ⟨h₁, h₂, h₃, h₄⟩ => ⟨h₁, h₂, h₃, h₄⟩, fun ⟨h₁, h₂, h₃, h₄⟩ => ⟨h₁, h₂, h₃, h₄⟩⟩

section Join

variable {base name other : String}

/-- A path without a slash does not start at the root directory. -/
theorem isAbsolute_of_not_mem
    (h : '/' ∉ base.toList) :
    isAbsolute base = false := by
  rw [isAbsolute, ← Bool.not_eq_true, Text.startsWith_iff]
  rintro ⟨rest, hrest⟩
  exact h (hrest ▸ List.mem_cons_self)

theorem IsEntryName.isAbsolute_eq_false
    (hname : IsEntryName name) :
    isAbsolute name = false :=
  isAbsolute_of_not_mem hname.no_slash

/-- Where a path starts is seen from its start. -/
theorem isAbsolute_append
    (hbase : base ≠ "")
    (rest : String) :
    isAbsolute (base ++ rest) = isAbsolute base := by
  obtain ⟨c, letters, hletters⟩ :=
    List.exists_cons_of_ne_nil fun hnil => hbase (String.toList_eq_nil_iff.1 hnil)
  simp only [isAbsolute, Text.startsWith, List.isPrefixOf, String.toList_append, hletters,
    List.cons_append]

theorem pieces_of_not_mem
    (h : '/' ∉ base.toList) :
    pieces base = [base] := by
  rw [pieces, Text.splitOn_of_not_mem h, List.map_singleton, String.ofList_toList]

theorem pieces_append_slash
    (front back : String) :
    pieces (front ++ "/" ++ back) = pieces front ++ pieces back := by
  have htext : (front ++ "/" ++ back).toList = front.toList ++ '/' :: back.toList := by
    simp
  rw [pieces, htext, Text.splitOn_append_cons, List.map_append]
  rfl

theorem pieces_ne_nil
    (path : String) :
    pieces path ≠ [] := by
  rw [pieces, Ne, List.map_eq_nil_iff]
  exact Text.splitOn_ne_nil '/' path.toList

/-- Behind a slash at the end there is one more piece, which is empty. -/
theorem pieces_concat_slash
    (front : String) :
    pieces (front ++ "/") = pieces front ++ [""] := by
  rw [← String.append_empty (s := front ++ "/"), pieces_append_slash]
  rfl

theorem endsWithSlash_iff :
    endsWithSlash base = true ↔ ∃ front, base = front ++ "/" := by
  rw [endsWithSlash, beq_iff_eq, List.getLast?_eq_some_iff]
  constructor
  · rintro ⟨front, hfront⟩
    exact ⟨String.ofList front, String.toList_inj.1 (by simp [hfront])⟩
  · rintro ⟨front, rfl⟩
    exact ⟨front.toList, by simp⟩

/-- A name in a directory is put after a slash; one that ends the path of the directory serves. -/
theorem exists_join_eq_append_slash
    (hbase : base ≠ "") :
    ∃ front,
      (∀ name, IsEntryName name → join base name = front ++ "/" ++ name) ∧
      (base = front ++ "/" ∨ base = front) := by
  cases hslash : endsWithSlash base with
  | true =>
      obtain ⟨front, rfl⟩ := endsWithSlash_iff.1 hslash
      refine ⟨front, fun name hname => ?_, Or.inl rfl⟩
      simp [join, hname.isAbsolute_eq_false, hslash]
  | false =>
      refine ⟨base, fun name hname => ?_, Or.inr rfl⟩
      simp [join, hname.isAbsolute_eq_false, hslash, hbase]

theorem join_ne_empty
    (hbase : base ≠ "")
    (hname : IsEntryName name) :
    join base name ≠ "" := by
  obtain ⟨front, hjoin, -⟩ := exists_join_eq_append_slash hbase
  rw [hjoin name hname, Ne, String.append_eq_empty_iff, not_and]
  exact fun _ => hname.ne_empty

/-- Two names in a directory with the same path are the same. -/
theorem join_injective
    (hbase : base ≠ "")
    (hname : IsEntryName name)
    (hother : IsEntryName other)
    (h : join base name = join base other) :
    name = other := by
  obtain ⟨front, hjoin, -⟩ := exists_join_eq_append_slash hbase
  rwa [hjoin name hname, hjoin other hother, String.append_right_inj] at h

theorem isAbsolute_join
    (hbase : base ≠ "")
    (hname : IsEntryName name) :
    isAbsolute (join base name) = isAbsolute base := by
  rw [join, hname.isAbsolute_eq_false, if_neg Bool.false_ne_true]
  split
  · exact isAbsolute_append hbase name
  · rw [String.append_assoc]
    exact isAbsolute_append hbase _

theorem endsWithSlash_join
    (hbase : base ≠ "")
    (hname : IsEntryName name) :
    endsWithSlash (join base name) = false := by
  obtain ⟨front, hjoin, -⟩ := exists_join_eq_append_slash hbase
  have hlist : name.toList ≠ [] := fun hnil => hname.ne_empty (String.toList_eq_nil_iff.1 hnil)
  rw [endsWithSlash, hjoin name hname, String.toList_append,
    List.getLast?_append_of_ne_nil _ hlist, beq_eq_false_iff_ne]
  intro hlast
  exact hname.no_slash (List.mem_of_getLast? hlast)

theorem filter_pieces_join
    (hbase : base ≠ "")
    (hname : IsEntryName name) :
    (pieces (join base name)).filter (· != "") = (pieces base).filter (· != "") ++ [name] := by
  obtain ⟨front, hjoin, hfront⟩ := exists_join_eq_append_slash hbase
  have hlast : [name].filter (· != "") = [name] := by
    simp [hname.ne_empty]
  rw [hjoin name hname, pieces_append_slash, pieces_of_not_mem hname.no_slash, List.filter_append,
    hlast]
  rcases hfront with hfront | hfront
  · simp [hfront, pieces_concat_slash]
  · rw [hfront]

end Join

end Path

namespace FileSystem

/-- The names to follow for an entry are those for the directory, without a request for a directory,
and the name of the entry. -/
theorem stepsOf_join
    {base name : String}
    (hbase : base ≠ "")
    (hname : Path.IsEntryName name) :
    ∃ names dots, (∀ dot ∈ dots, dot = ".") ∧
      stepsOf base = names ++ dots ∧
      stepsOf (Path.join base name) = names ++ [name] := by
  refine ⟨(Path.pieces base).filter (· != ""), if Path.endsWithSlash base then ["."] else [],
    ?_, rfl, ?_⟩
  · split <;> simp
  · rw [stepsOf, Path.filter_pieces_join hbase hname, Path.endsWithSlash_join hbase hname]
    exact List.append_nil _

section Following

variable {root : Node}

/-- The first step comes from the front if it is none of those behind. -/
theorem exists_cons_of_append
    {front back more : List String}
    {name : String}
    (hname : name ∉ back)
    (h : front ++ back = name :: more) :
    ∃ others, front = name :: others ∧ others ++ back = more := by
  rcases List.append_eq_cons_iff.1 h with ⟨-, rfl⟩ | ⟨others, rfl, rfl⟩
  · exact absurd List.mem_cons_self hname
  · exact ⟨others, rfl, rfl⟩

/-- The names after those of a path are followed from where the path leads, with the links that are
left. -/
theorem follow_append
    {links : Nat}
    {trail found : Trail}
    {names dots : List String}
    (hdots : ∀ dot ∈ dots, dot = ".")
    (h : follow root true links trail (names ++ dots) = .ok (.found found)) :
    ∃ left, ∀ rest, rest ≠ [] →
      follow root true links trail (names ++ rest) = follow root true left found rest := by
  generalize hsteps : names ++ dots = steps at h
  -- The names of the path itself come first.  Once they are followed only dots are left, which do
  -- not move the trail; a link puts the names of its target in front of those that are left.
  fun_induction follow root true links trail steps generalizing names dots with
  | case1 links trail =>
      cases h
      obtain ⟨rfl, -⟩ := List.append_eq_nil_iff.1 hsteps
      exact ⟨links, fun rest _ => rfl⟩
  | case2 links trail more entries hdirectory ih =>
      cases names with
      | nil =>
          rw [List.nil_append] at hsteps
          subst hsteps
          have hmore : ∀ dot ∈ more, dot = "." := fun dot hdot => hdots dot (.tail _ hdot)
          obtain ⟨left, hleft⟩ := ih hmore (List.nil_append _) h
          exact ⟨left, hleft⟩
      | cons name names =>
          obtain ⟨rfl, rfl⟩ := List.cons_eq_cons.1 hsteps
          obtain ⟨left, hleft⟩ := ih hdots rfl h
          refine ⟨left, fun rest hrest => ?_⟩
          rw [← hleft rest hrest, List.cons_append, follow]
          simp only [hdirectory, if_true]
  | case3 links trail more entries hdirectory hdot ih =>
      obtain ⟨others, rfl, hmore⟩ := exists_cons_of_append (mt (hdots _) hdot) hsteps
      obtain ⟨left, hleft⟩ := ih hdots hmore h
      refine ⟨left, fun rest hrest => ?_⟩
      rw [← hleft rest hrest, List.cons_append, follow]
      simp only [hdirectory, hdot, if_false, if_true]
  | case4 | case5 | case6 | case8 | case11 =>
      cases h
  | case7 links trail name more entries hdirectory _ _ _ target hentry hlast =>
      simp at hlast
  | case9 trail name more entries hdirectory hdot hup hshort target hentry hlast links ih =>
      obtain ⟨others, rfl, rfl⟩ := exists_cons_of_append (mt (hdots _) hdot) hsteps
      obtain ⟨left, hleft⟩ := ih hdots (List.append_assoc _ _ _) h
      refine ⟨left, fun rest hrest => ?_⟩
      rw [← hleft rest hrest, List.cons_append, follow]
      simp only [hdirectory, hdot, hup, hshort, hentry, if_false, Bool.not_true, Bool.and_false,
        Bool.false_eq_true, List.append_assoc, dite_eq_ite]
  | case10 links trail name more entries hdirectory hdot hup hshort node hlink hentry ih =>
      obtain ⟨others, rfl, hmore⟩ := exists_cons_of_append (mt (hdots _) hdot) hsteps
      obtain ⟨left, hleft⟩ := ih hdots hmore h
      refine ⟨left, fun rest hrest => ?_⟩
      rw [← hleft rest hrest, List.cons_append, follow]
      simp only [hdirectory, hdot, hup, hshort, hentry, if_false]

variable {links : Nat}
variable {trail : Trail}
variable {entries : List (String × Node)}
variable {name : String}

/-- An entry that is no link is where its name leads. -/
theorem follow_entry
    {node : Node}
    (hname : Path.IsEntryName name)
    (hdirectory : nodeAt root trail = .directory entries)
    (hentry : Node.find? name entries = some node)
    (hlink : ∀ target, node ≠ .link target) :
    follow root true links trail [name] =
      if nameLimit < name.utf8ByteSize then .error .nameTooLong
      else .ok (.found ((name, node) :: trail)) := by
  rw [follow]
  simp only [hdirectory, hname.ne_here, hname.ne_up, hentry, if_false]
  cases node with
  | link target => exact absurd rfl (hlink target)
  | file content => rw [follow]
  | directory inner => rw [follow]

theorem follow_absent
    (hname : Path.IsEntryName name)
    (hdirectory : nodeAt root trail = .directory entries)
    (hentry : Node.find? name entries = none) :
    follow root true links trail [name] =
      if nameLimit < name.utf8ByteSize then .error .nameTooLong
      else .ok (.vacant trail name) := by
  rw [follow]
  simp only [hdirectory, hname.ne_here, hname.ne_up, hentry, if_false, List.isEmpty_nil, if_true]

end Following

/-- A path can be handed over: it has no character that ends it and is not too long. -/
structure Fits (path : String) : Prop where
  no_end : '\x00' ∉ path.toList
  short : path.utf8ByteSize ≤ pathLimit

instance (path : String) : Decidable (Fits path) :=
  decidable_of_iff ('\x00' ∉ path.toList ∧ path.utf8ByteSize ≤ pathLimit)
    ⟨fun ⟨hend, hshort⟩ => ⟨hend, hshort⟩, fun ⟨hend, hshort⟩ => ⟨hend, hshort⟩⟩

section Landing

variable {fs : FileSystem}
variable {path name : String}

theorem land_of_fits
    (hpath : path ≠ "")
    (hfits : Fits path)
    (followLast : Bool) :
    fs.land path followLast =
      match fs.startOf path with
      | .ok start => follow fs.root followLast linkLimit start (stepsOf path)
      | .error fault => .error fault := by
  have hend : ¬ path.toList.contains '\x00' = true := by
    simpa using hfits.no_end
  unfold land
  exact (if_neg hend).trans ((if_neg hpath).trans (if_neg (Nat.not_lt.2 hfits.short)))

theorem fits_of_land
    {followLast : Bool}
    {landing : Landing}
    (h : fs.land path followLast = .ok landing) :
    path ≠ "" ∧ Fits path := by
  unfold land at h
  split at h
  · cases h
  · next hend =>
      split at h
      · cases h
      · next hempty =>
          split at h
          · cases h
          · next hshort =>
              exact ⟨hempty, by simpa using hend, Nat.not_lt.1 hshort⟩

theorem trail_eq_ok_iff
    {trail : Trail} :
    fs.trail path = .ok trail ↔ fs.land path true = .ok (.found trail) := by
  unfold FileSystem.trail
  split <;> simp_all

theorem trail_root
    {fs : FileSystem}
    {entries : List (String × Node)}
    (h : fs.root = .directory entries) :
    fs.trail "/" = .ok [] := by
  have hsteps : stepsOf "/" = ["."] := by
    decide
  have habsolute : Path.isAbsolute "/" = true := by
    decide
  rw [trail_eq_ok_iff, land_of_fits (by decide) (by decide), hsteps,
    startOf_of_isAbsolute habsolute, h]
  dsimp only
  rw [follow]
  simp only [nodeAt, if_true]
  rw [follow]

/-- The path of an entry leads one name further than that of the directory. -/
theorem land_join
    {trail : Trail}
    (htrail : fs.trail path = .ok trail)
    (hname : Path.IsEntryName name)
    (hfits : Fits (Path.join path name)) :
    ∃ links, fs.land (Path.join path name) true = follow fs.root true links trail [name] := by
  have hland := trail_eq_ok_iff.1 htrail
  obtain ⟨hpath, hpathFits⟩ := fits_of_land hland
  obtain ⟨names, dots, hdots, hsteps, hjoin⟩ := stepsOf_join hpath hname
  have hstart : fs.startOf (Path.join path name) = fs.startOf path := by
    rw [startOf, startOf, Path.isAbsolute_join hpath hname]
  rw [land_of_fits hpath hpathFits, hsteps] at hland
  rw [land_of_fits (Path.join_ne_empty hpath hname) hfits, hstart, hjoin]
  split at hland
  · next start _ =>
      obtain ⟨links, hlinks⟩ := follow_append hdots hland
      exact ⟨links, hlinks [name] (List.cons_ne_nil _ _)⟩
  · cases hland

theorem stepsOf_name
    (hname : Path.IsEntryName name) :
    stepsOf name = [name] := by
  have hslash : Path.endsWithSlash name = false := by
    rw [Path.endsWithSlash, beq_eq_false_iff_ne]
    intro hlast
    exact hname.no_slash (List.mem_of_getLast? hlast)
  rw [stepsOf, Path.pieces_of_not_mem hname.no_slash, hslash]
  simp [hname.ne_empty]

/-- A name alone is followed from the working directory. -/
theorem land_name
    {trail : Trail}
    (hname : Path.IsEntryName name)
    (hfits : Fits name)
    (htrail : fs.workingTrail = .ok trail) :
    fs.land name true = follow fs.root true linkLimit trail [name] := by
  have hstart : fs.startOf name = .ok trail := by
    rw [startOf, hname.isAbsolute_eq_false]
    exact htrail
  rw [land_of_fits hname.ne_empty hfits, hstart, stepsOf_name hname]

end Landing

section Entries

variable {fs : FileSystem}
variable {path name : String}
variable {entries : List (String × Node)}
variable {node : Node}

theorem node_eq_ok_iff :
    fs.node path = .ok node ↔ ∃ trail, fs.trail path = .ok trail ∧ nodeAt fs.root trail = node := by
  unfold FileSystem.node
  cases fs.trail path with
  | error fault => simp [Except.map]
  | ok trail => simp [Except.map]

variable {trail : Trail}

theorem node_of_trail
    (h : fs.trail path = .ok trail) :
    fs.node path = .ok (nodeAt fs.root trail) :=
  node_eq_ok_iff.2 ⟨trail, h, rfl⟩

theorem trail_join
    (htrail : fs.trail path = .ok trail)
    (hdirectory : nodeAt fs.root trail = .directory entries)
    (hname : Path.IsEntryName name)
    (hshort : name.utf8ByteSize ≤ nameLimit)
    (hfits : Fits (Path.join path name))
    (hentry : Node.find? name entries = some node)
    (hlink : ∀ target, node ≠ .link target) :
    fs.trail (Path.join path name) = .ok ((name, node) :: trail) := by
  obtain ⟨links, hland⟩ := land_join htrail hname hfits
  rw [trail_eq_ok_iff, hland, follow_entry hname hdirectory hentry hlink,
    if_neg (Nat.not_lt.2 hshort)]

theorem trail_join_of_absent
    (htrail : fs.trail path = .ok trail)
    (hdirectory : nodeAt fs.root trail = .directory entries)
    (hname : Path.IsEntryName name)
    (hshort : name.utf8ByteSize ≤ nameLimit)
    (hfits : Fits (Path.join path name))
    (hentry : Node.find? name entries = none) :
    fs.trail (Path.join path name) = .error .notFound := by
  obtain ⟨links, hland⟩ := land_join htrail hname hfits
  rw [FileSystem.trail, hland, follow_absent hname hdirectory hentry, if_neg (Nat.not_lt.2 hshort)]

theorem trail_name
    (htrail : fs.workingTrail = .ok trail)
    (hdirectory : nodeAt fs.root trail = .directory entries)
    (hname : Path.IsEntryName name)
    (hshort : name.utf8ByteSize ≤ nameLimit)
    (hfits : Fits name)
    (hentry : Node.find? name entries = some node)
    (hlink : ∀ target, node ≠ .link target) :
    fs.trail name = .ok ((name, node) :: trail) := by
  rw [trail_eq_ok_iff, land_name hname hfits htrail, follow_entry hname hdirectory hentry hlink,
    if_neg (Nat.not_lt.2 hshort)]

theorem trail_name_of_absent
    (htrail : fs.workingTrail = .ok trail)
    (hdirectory : nodeAt fs.root trail = .directory entries)
    (hname : Path.IsEntryName name)
    (hshort : name.utf8ByteSize ≤ nameLimit)
    (hfits : Fits name)
    (hentry : Node.find? name entries = none) :
    fs.trail name = .error .notFound := by
  rw [FileSystem.trail, land_name hname hfits htrail, follow_absent hname hdirectory hentry,
    if_neg (Nat.not_lt.2 hshort)]

/-- What the path of an entry names is the entry, unless that is a link. -/
theorem eq_of_node_join
    {other : Node}
    (hnode : fs.node path = .ok (.directory entries))
    (hname : Path.IsEntryName name)
    (hentry : (name, node) ∈ entries)
    (hlink : ∀ target, node ≠ .link target)
    (h : fs.node (Path.join path name) = .ok other) :
    other = node := by
  have hordered := (Node.ordered_directory.1 (ordered_of_node hnode)).1
  obtain ⟨trail, htrail, hdirectory⟩ := node_eq_ok_iff.1 hnode
  obtain ⟨reached, hreached, rfl⟩ := node_eq_ok_iff.1 h
  have hland := trail_eq_ok_iff.1 hreached
  obtain ⟨links, hlinks⟩ := land_join htrail hname (fits_of_land hland).2
  rw [hlinks, follow_entry hname hdirectory ((Node.find?_eq_some_iff hordered).2 hentry) hlink]
    at hland
  split at hland
  · cases hland
  · cases hland
    rfl

/-- A name under which something is found in a directory is that of one of its entries, which may be
a link. -/
theorem exists_entry_of_node_join
    {other : Node}
    (hnode : fs.node path = .ok (.directory entries))
    (hname : Path.IsEntryName name)
    (h : fs.node (Path.join path name) = .ok other) :
    ∃ node, (name, node) ∈ entries := by
  obtain ⟨trail, htrail, hdirectory⟩ := node_eq_ok_iff.1 hnode
  obtain ⟨reached, hreached, -⟩ := node_eq_ok_iff.1 h
  have hland := trail_eq_ok_iff.1 hreached
  obtain ⟨links, hlinks⟩ := land_join htrail hname (fits_of_land hland).2
  cases hentry : Node.find? name entries with
  | some node =>
      exact ⟨node, Node.mem_of_find? hentry⟩
  | none =>
      rw [hlinks, follow_absent hname hdirectory hentry] at hland
      split at hland
      · cases hland
      · cases hland

end Entries

end FileSystem
end SkillAudit
