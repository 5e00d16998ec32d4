import SkillAudit.Proofs.FileSystem.Children

/-!
# What the path of a file ends in

A path that ends with a slash, a dot or two dots asks for a directory: it leads to one or nowhere,
whatever links it passes on its way.  So the path of a regular file has a name behind its last
slash.

* `lastPiece_join`: a path in a directory ends as it does alone.
* `exists_directory_of_follow`: where a path leads whose last step is a dot or two.
* `isEntryName_lastPiece`: the path of a file ends in a name.
-/

namespace SkillAudit

namespace Path

section LastPiece

variable {path : String}

/-- What stands behind the last slash of a path; it may be empty or a dot. -/
def lastPiece (path : String) : String :=
  (pieces path).getLastD ""

theorem pieces_eq_append_lastPiece
    (path : String) :
    pieces path = (pieces path).dropLast ++ [lastPiece path] := by
  rw [lastPiece, List.getLastD_eq_getLast?, List.getLast?_eq_some_getLast (pieces_ne_nil path),
    Option.getD_some, List.dropLast_append_getLast]

theorem lastPiece_of_not_mem
    (h : '/' ∉ path.toList) :
    lastPiece path = path := by
  rw [lastPiece, pieces_of_not_mem h]
  rfl

theorem lastPiece_append_slash
    (front back : String) :
    lastPiece (front ++ "/" ++ back) = lastPiece back := by
  rw [lastPiece, pieces_append_slash, pieces_eq_append_lastPiece back, ← List.append_assoc,
    List.getLastD_eq_getLast?, List.getLast?_concat, Option.getD_some]

theorem no_slash_lastPiece
    (path : String) :
    '/' ∉ (lastPiece path).toList := by
  have hmem : lastPiece path ∈ pieces path := by
    rw [pieces_eq_append_lastPiece path]
    exact List.mem_append_right _ List.mem_cons_self
  obtain ⟨text, htext, hpiece⟩ := List.mem_map.1 hmem
  rw [← hpiece, String.toList_ofList]
  exact Text.not_mem_of_mem_splitOn htext

/-- A path with nothing behind its last slash ends with that slash. -/
theorem endsWithSlash_of_lastPiece
    (hpath : path ≠ "")
    (h : lastPiece path = "") :
    endsWithSlash path = true := by
  by_cases hslash : '/' ∈ path.toList.reverse
  · obtain ⟨back, front, hcut, hback⟩ := List.eq_append_cons_of_mem hslash
    have htext : path = String.ofList front.reverse ++ "/" ++ String.ofList back.reverse := by
      rw [← String.toList_inj, ← List.reverse_reverse path.toList, hcut]
      simp
    have hlast : lastPiece (String.ofList back.reverse) = String.ofList back.reverse :=
      lastPiece_of_not_mem (by simpa using hback)
    rw [htext, lastPiece_append_slash, hlast] at h
    exact endsWithSlash_iff.2 ⟨String.ofList front.reverse, by rw [htext, h, String.append_empty]⟩
  · rw [List.mem_reverse] at hslash
    rw [lastPiece_of_not_mem hslash] at h
    exact absurd h hpath

/-- What is looked for in a directory is what its path ends in. -/
theorem lastPiece_join
    (base path : String) :
    lastPiece (join base path) = lastPiece path := by
  unfold join
  split
  · rfl
  · split
    · next hbase =>
        rw [Bool.or_eq_true, decide_eq_true_iff] at hbase
        rcases hbase with rfl | hbase
        · rw [String.empty_append]
        · obtain ⟨front, rfl⟩ := endsWithSlash_iff.1 hbase
          exact lastPiece_append_slash front path
    · exact lastPiece_append_slash base path

end LastPiece

end Path

namespace FileSystem

section Files

variable {root : Node}
variable {trail found : Trail}

/-- The trail to the directory above ends at a directory. -/
theorem Trail.Leads.exists_directory_tail
    {entries : List (String × Node)}
    (h : Trail.Leads root trail)
    (hdirectory : nodeAt root trail = .directory entries) :
    ∃ above, nodeAt root trail.tail = .directory above := by
  cases h with
  | start => exact ⟨entries, hdirectory⟩
  | step habove _ _ => exact ⟨_, habove⟩

/-- A path whose last step is a dot or two leads to a directory. -/
theorem exists_directory_of_follow
    {followLast : Bool}
    {links : Nat}
    {steps : List String}
    {last : String}
    (hleads : Trail.Leads root trail)
    (hlast : last = "." ∨ last = "..")
    (h : follow root followLast links trail (steps ++ [last]) = .ok (.found found)) :
    ∃ entries, nodeAt root found = .directory entries := by
  have hname {name : String} (hdot : name ≠ ".") (hup : name ≠ "..") : name ∉ [last] := by
    rw [List.mem_singleton]
    rintro rfl
    exact hlast.elim hdot hup
  generalize hall : steps ++ [last] = all at h
  -- Only a dot or two dots can be the last step, and these lead from one directory to another; any
  -- other name, and the names of a link, come before it.
  fun_induction follow root followLast links trail all generalizing steps with
  | case1 =>
      simp at hall
  | case2 links trail rest entries hdirectory ih =>
      cases steps with
      | nil =>
          obtain ⟨-, rfl⟩ := List.cons_eq_cons.1 hall
          rw [follow] at h
          cases h
          exact ⟨entries, hdirectory⟩
      | cons name others =>
          exact ih hleads (List.cons_eq_cons.1 hall).2 h
  | case3 links trail rest entries hdirectory hdot ih =>
      cases steps with
      | nil =>
          obtain ⟨-, rfl⟩ := List.cons_eq_cons.1 hall
          rw [follow] at h
          cases h
          exact hleads.exists_directory_tail hdirectory
      | cons name others =>
          exact ih hleads.tail (List.cons_eq_cons.1 hall).2 h
  | case4 | case5 | case6 | case8 | case11 =>
      cases h
  | case7 links trail name rest entries hdirectory hdot hup _ target _ hrest =>
      obtain ⟨others, -, rfl⟩ := exists_cons_of_append (hname hdot hup) hall
      simp at hrest
  | case9 trail name rest entries hdirectory hdot hup _ target _ _ links ih =>
      obtain ⟨others, -, rfl⟩ := exists_cons_of_append (hname hdot hup) hall
      refine ih ?_ (List.append_assoc _ _ _) h
      split
      · exact .start
      · exact hleads
  | case10 links trail name rest entries hdirectory hdot hup _ node _ hentry ih =>
      obtain ⟨others, -, rfl⟩ := exists_cons_of_append (hname hdot hup) hall
      exact ih (.step hdirectory hentry hleads) rfl h

/-- The last step of a path that does not end in a name is a dot or two. -/
theorem exists_stepsOf_eq_append
    {path : String}
    (hpath : path ≠ "")
    (hlast : ¬ Path.IsEntryName (Path.lastPiece path)) :
    ∃ steps last, stepsOf path = steps ++ [last] ∧ (last = "." ∨ last = "..") := by
  rw [stepsOf]
  cases hslash : Path.endsWithSlash path with
  | true =>
      exact ⟨_, ".", rfl, Or.inl rfl⟩
  | false =>
      have hne : Path.lastPiece path ≠ "" := by
        intro hempty
        rw [Path.endsWithSlash_of_lastPiece hpath hempty] at hslash
        cases hslash
      have hdots : Path.lastPiece path = "." ∨ Path.lastPiece path = ".." := by
        by_contra hother
        rw [not_or] at hother
        exact hlast ⟨hne, hother.1, hother.2, Path.no_slash_lastPiece path⟩
      refine ⟨(Path.pieces path).dropLast.filter (· != ""), _, ?_, hdots⟩
      rw [if_neg Bool.false_ne_true, List.append_nil]
      conv_lhs => rw [Path.pieces_eq_append_lastPiece path]
      rw [List.filter_append, List.filter_cons_of_pos (by simpa using hne), List.filter_nil]

variable {fs : FileSystem}
variable {path : String}

/-- A path to a regular file ends in a name. -/
theorem isEntryName_lastPiece
    {file : File}
    (h : fs.node path = .ok (.file file)) :
    Path.IsEntryName (Path.lastPiece path) := by
  by_contra hlast
  obtain ⟨trail, htrail, hfile⟩ := node_eq_ok_iff.1 h
  have hland := trail_eq_ok_iff.1 htrail
  obtain ⟨hpath, hfits⟩ := fits_of_land hland
  obtain ⟨steps, last, hsteps, hdots⟩ := exists_stepsOf_eq_append hpath hlast
  rw [land_of_fits hpath hfits, hsteps] at hland
  split at hland
  · next start hstart =>
      obtain ⟨entries, hdirectory⟩ :=
        exists_directory_of_follow (leads_startOf hstart) hdots hland
      rw [hdirectory] at hfile
      cases hfile
  · cases hland

end Files

end FileSystem
end SkillAudit
