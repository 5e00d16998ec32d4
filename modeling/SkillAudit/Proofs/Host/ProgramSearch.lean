import SkillAudit.Host.Lookup
import SkillAudit.Proofs.FileSystem.Endings
import SkillAudit.Proofs.FileSystem.Places

/-!
# Finding programs

A command with a slash in it is a path to a program; any other command is looked for in the
directories of the search path.  The two are told apart by the number of parts, which is not the
same as a slash: a slash at the end, or one with dots alone behind it, makes no second part.  But a
path that is written so asks for a directory, and so no program is found by it in either way.

* `one_lt_length_parts_iff`: a path that ends in a name has several parts exactly if it has a slash.
* `isExecutable_iff`: the files that count as programs.
* `searchDirectories_eq_iff`: a search path is taken apart at its colons.
* `hasProgram_iff_slash`: when a command is found.
* `program_found_exactly`: the same, with what follows for single commands and longer search paths.
-/

namespace SkillAudit

namespace Path

section Parts

variable {path : String}

/-- Without a slash there is at most one part. -/
theorem length_parts_of_not_mem
    (h : '/' ∉ path.toList) :
    (parts path).length ≤ 1 := by
  rw [parts, pieces_of_not_mem h, isAbsolute_of_not_mem h]
  by_cases hdot : path = "."
  · rw [hdot]
    decide
  · have hhead : [path].head? ≠ some "." := fun hsame => hdot (Option.some.inj hsame)
    simp only [Bool.false_eq_true, if_false, hhead]
    exact List.length_filterMap_le _ _

/-- What stands before the first slash is one part, and if it is nothing the slash is one. -/
theorem exists_parts_eq_cons
    {first : String}
    (h : '/' ∉ first.toList)
    (rest : String) :
    ∃ part, parts (first ++ "/" ++ rest) = part :: (pieces rest).filterMap partOf? := by
  have hpieces : pieces (first ++ "/" ++ rest) = first :: pieces rest := by
    rw [pieces_append_slash, pieces_of_not_mem h, List.singleton_append]
  unfold parts
  rw [hpieces]
  by_cases hempty : first = ""
  · refine ⟨.root, ?_⟩
    have habsolute : isAbsolute (first ++ "/" ++ rest) = true := by
      rw [isAbsolute, Text.startsWith_iff, hempty]
      exact ⟨rest.toList, by simp⟩
    rw [habsolute]
    simp [hempty, partOf?]
  · have habsolute : isAbsolute (first ++ "/" ++ rest) = false := by
      rw [String.append_assoc, isAbsolute_append hempty, isAbsolute_of_not_mem h]
    rw [habsolute]
    by_cases hdot : first = "."
    · exact ⟨.here, by simp [hdot, partOf?]⟩
    · by_cases hup : first = ".."
      · exact ⟨.up, by simp [hup, partOf?]⟩
      · exact ⟨.name first, by simp [hempty, hdot, hup, partOf?]⟩

/-- A path that ends in a name has several parts exactly if there is a slash in it. -/
theorem one_lt_length_parts_iff
    (hlast : IsEntryName (lastPiece path)) :
    1 < (parts path).length ↔ '/' ∈ path.toList := by
  constructor
  · intro hlength
    by_contra hslash
    have := length_parts_of_not_mem hslash
    omega
  · intro hslash
    obtain ⟨first, rest, hcut, hfirst⟩ := List.eq_append_cons_of_mem hslash
    have htext : path = String.ofList first ++ "/" ++ String.ofList rest := by
      rw [← String.toList_inj, hcut]
      simp
    obtain ⟨part, hparts⟩ :=
      exists_parts_eq_cons (by rwa [String.toList_ofList]) (String.ofList rest)
    rw [htext, lastPiece_append_slash] at hlast
    have hname : .name (lastPiece (String.ofList rest)) ∈
        (pieces (String.ofList rest)).filterMap partOf? := by
      rw [pieces_eq_append_lastPiece, List.filterMap_append]
      simp [partOf?, hlast.ne_empty, hlast.ne_here, hlast.ne_up]
    have hsome := List.length_pos_of_mem hname
    rw [htext, hparts, List.length_cons]
    omega

end Parts

end Path

namespace FileSystem

section Programs

variable {fs : FileSystem}
variable {path : String}

/-- The path names a regular file, links followed, that its owner, its group or the others may
execute. -/
def IsProgram (fs : FileSystem) (path : String) : Prop :=
  ∃ file, fs.node path = .ok (.file file) ∧ ∃ bit ∈ [0, 3, 6], file.mode.testBit bit = true

theorem isExecutable_iff_testBit
    (file : File) :
    file.isExecutable = true ↔ ∃ bit ∈ [0, 3, 6], file.mode.testBit bit = true := by
  rw [File.isExecutable, bne_iff_ne]
  constructor
  · intro hne
    obtain ⟨bit, hbit⟩ := Nat.exists_testBit_of_ne_zero hne
    rw [Nat.testBit_and, Bool.and_eq_true] at hbit
    have hsmall : bit < 7 := by
      by_contra hlarge
      have hzero : Nat.testBit 0o111 bit = false :=
        Nat.testBit_lt_two_pow <|
          lt_of_lt_of_le (by decide) (Nat.pow_le_pow_right (by decide) (Nat.not_lt.1 hlarge))
      rw [hzero] at hbit
      cases hbit.2
    have hmask : ∀ place < 7, Nat.testBit 0o111 place = true → place ∈ [0, 3, 6] := by
      decide
    exact ⟨bit, hmask bit hsmall hbit.2, hbit.1⟩
  · rintro ⟨bit, hmem, hbit⟩ hzero
    have hboth := Nat.testBit_and file.mode 0o111 bit
    have hmask : ∀ place ∈ [0, 3, 6], Nat.testBit 0o111 place = true := by
      decide
    rw [hzero, hbit, hmask bit hmem] at hboth
    simp at hboth

theorem isExecutable_iff :
    fs.isExecutable path = true ↔ fs.IsProgram path := by
  unfold isExecutable IsProgram
  split
  · next file hnode =>
      simp [hnode, isExecutable_iff_testBit]
  · next hother =>
      constructor
      · intro h
        cases h
      · rintro ⟨file, hfile, -⟩
        exact absurd hfile (hother file)

theorem IsProgram.isEntryName
    (h : fs.IsProgram path) :
    Path.IsEntryName (Path.lastPiece path) := by
  obtain ⟨file, hfile, -⟩ := h
  exact isEntryName_lastPiece hfile

end Programs

section Here

variable {root : Node}
variable {followLast : Bool}
variable {links : Nat}
variable {trail : Trail}
variable {name : String}

/-- A dot before other steps changes nothing. -/
theorem follow_here_cons
    (steps : List String) :
    follow root followLast links trail ("." :: name :: steps) =
      follow root followLast links trail (name :: steps) := by
  rw [follow]
  cases hnode : nodeAt root trail with
  | directory entries =>
      simp only [if_true]
  | file content | link target =>
      rw [follow]
      simp only [hnode]

/-- A name that is too long leads nowhere. -/
theorem short_of_follow
    {landing : Landing}
    (hname : Path.IsEntryName name)
    (h : follow root followLast links trail [name] = .ok landing) :
    name.utf8ByteSize ≤ nameLimit := by
  by_contra hlong
  rw [follow] at h
  simp only [hname.ne_here, hname.ne_up, if_false, Nat.not_le.1 hlong, if_true] at h
  split at h
  · cases h
  · cases h

variable {fs : FileSystem}

/-- A name behind a dot can be handed over if it is short enough for a name. -/
theorem fits_join_here
    (hname : Path.IsEntryName name)
    (hend : '\x00' ∉ name.toList)
    (hshort : name.utf8ByteSize ≤ nameLimit) :
    Fits (Path.join "." name) := by
  have hnames : ∀ other ∈ [name], Path.IsEntryName other := List.forall_mem_singleton.2 hname
  have hlimit : ".".utf8ByteSize + 1 * (nameLimit + 1) ≤ pathLimit := by
    decide
  refine Path.fits_spelled hnames ?_ (List.forall_mem_singleton.2 hshort) hlimit
  rw [List.forall_mem_cons, List.forall_mem_singleton]
  exact ⟨by decide, hend⟩

/-- A name in the directory that a dot stands for leads where the name alone does. -/
theorem land_join_here
    {landing : Landing}
    (hname : Path.IsEntryName name) :
    fs.land (Path.join "." name) followLast = .ok landing ↔
      fs.land name followLast = .ok landing := by
  have hnames : ∀ other ∈ [name], Path.IsEntryName other := List.forall_mem_singleton.2 hname
  have hsteps : stepsOf (Path.join "." name) = [".", name] := by
    have hhere : stepsOf "." = ["."] := by
      decide
    have hspelled : stepsOf (Path.spelled "." [name]) = stepsOf "." ++ [name] :=
      stepsOf_spelled (by decide) (by decide) hnames
    rwa [hhere] at hspelled
  have hstart : fs.startOf (Path.join "." name) = fs.startOf name := by
    have hdot : Path.isAbsolute "." = false := by
      decide
    rw [startOf, startOf, Path.isAbsolute_join (by decide) hname, hdot, hname.isAbsolute_eq_false]
  have hsame (hhere : Fits (Path.join "." name)) (halone : Fits name) :
      fs.land (Path.join "." name) followLast = fs.land name followLast := by
    rw [land_of_fits (Path.join_ne_empty (by decide) hname) hhere,
      land_of_fits hname.ne_empty halone, hstart, hsteps, stepsOf_name hname]
    simp only [follow_here_cons]
  obtain ⟨slash, -, hjoin⟩ := Path.exists_join_eq "." hname
  constructor
  · intro h
    have hhere := (fits_of_land h).2
    have halone : Fits name := by
      obtain ⟨hend, hshort⟩ := hhere
      rw [hjoin, String.toList_append, List.mem_append, not_or] at hend
      rw [hjoin, String.utf8ByteSize_append] at hshort
      exact ⟨hend.2, le_trans (Nat.le_add_left _ _) hshort⟩
    rwa [← hsame hhere halone]
  · intro h
    have halone := (fits_of_land h).2
    have hshort : name.utf8ByteSize ≤ nameLimit := by
      have hland := h
      rw [land_of_fits hname.ne_empty halone, stepsOf_name hname] at hland
      split at hland
      · exact short_of_follow hname hland
      · cases hland
    rwa [hsame (fits_join_here hname halone.no_end hshort) halone]

end Here

end FileSystem

namespace Host

/-- The search path lists these directories, with a colon between two of them; an empty text among
them stands for the working directory. -/
structure IsSearchPath (path : String) (directories : List String) : Prop where
  ne_nil : directories ≠ []
  no_colon : ∀ directory ∈ directories, ':' ∉ directory.toList
  path_eq : path = ":".intercalate directories

section Search

/-- A search path is taken apart at its colons, and in one way only. -/
theorem searchDirectories_eq_iff
    {path : String}
    {directories : List String} :
    Machine.searchDirectories path = directories ↔ IsSearchPath path directories := by
  rw [Machine.searchDirectories, Text.map_ofList_splitOn_eq_iff (by decide : ":".toList = [':'])]
  exact ⟨fun ⟨hne, hcolon, hpath⟩ => ⟨hne, hcolon, hpath⟩,
    fun ⟨hne, hcolon, hpath⟩ => ⟨hne, hcolon, hpath⟩⟩

/-- A program is in one of the directories of the search path under the name of the command. -/
def IsOnSearchPath (host : Host) (command : String) : Prop :=
  ∃ path directories, host.valueOf? "PATH" = some path ∧ IsSearchPath path directories ∧
    ∃ directory ∈ directories, host.files.IsProgram (Path.join directory command)

variable {host : Host}
variable {command : String}

/-- A command of several parts is a path, any other one is looked for. -/
theorem hasProgram_iff_parts :
    host.hasProgram command = true ↔
      if 1 < (Path.parts command).length then
        host.files.IsProgram command
      else
        host.IsOnSearchPath command := by
  unfold hasProgram
  split
  · exact FileSystem.isExecutable_iff
  · unfold Machine.searchPath? IsOnSearchPath
    cases hvalue : host.valueOf? "PATH" with
    | none =>
        simp
    | some path =>
        simp only [Option.map_some, List.any_eq_true, FileSystem.isExecutable_iff,
          Option.some.injEq]
        constructor
        · intro hfound
          exact ⟨path, _, rfl, searchDirectories_eq_iff.1 rfl, hfound⟩
        · rintro ⟨_, directories, rfl, hpath, hfound⟩
          rwa [searchDirectories_eq_iff.2 hpath]

/-- A command that is found ends in a name. -/
theorem isEntryName_of_hasProgram
    (h : host.hasProgram command = true) :
    Path.IsEntryName (Path.lastPiece command) := by
  rw [hasProgram_iff_parts] at h
  split at h
  · exact h.isEntryName
  · obtain ⟨_, _, -, -, directory, -, hprogram⟩ := h
    rw [← Path.lastPiece_join directory command]
    exact hprogram.isEntryName

theorem hasProgram_iff_slash :
    host.hasProgram command = true ↔
      '/' ∈ command.toList ∧ host.files.IsProgram command ∨
        '/' ∉ command.toList ∧ host.IsOnSearchPath command := by
  constructor
  · intro h
    have hparts := Path.one_lt_length_parts_iff (isEntryName_of_hasProgram h)
    rw [hasProgram_iff_parts] at h
    by_cases hslash : '/' ∈ command.toList
    · rw [if_pos (hparts.2 hslash)] at h
      exact Or.inl ⟨hslash, h⟩
    · rw [if_neg (mt hparts.1 hslash)] at h
      exact Or.inr ⟨hslash, h⟩
  · rw [hasProgram_iff_parts]
    rintro (⟨hslash, h⟩ | ⟨hslash, h⟩)
    · rwa [if_pos ((Path.one_lt_length_parts_iff h.isEntryName).2 hslash)]
    · rwa [if_neg (Nat.not_lt.2 (Path.length_parts_of_not_mem hslash))]

/-- An empty entry of the search path stands for the working directory, as a dot does. -/
theorem isProgram_join_empty_iff
    {fs : FileSystem}
    (hslash : '/' ∉ command.toList) :
    fs.IsProgram (Path.join "" command) ↔ fs.IsProgram (Path.join "." command) := by
  by_cases hname : Path.IsEntryName command
  · have hempty : Path.join "" command = command := by
      rw [Path.join, hname.isAbsolute_eq_false]
      simp
    have htrail (trail : FileSystem.Trail) :
        fs.trail (Path.join "" command) = .ok trail ↔
          fs.trail (Path.join "." command) = .ok trail := by
      rw [hempty, FileSystem.trail_eq_ok_iff, FileSystem.trail_eq_ok_iff,
        FileSystem.land_join_here hname]
    simp only [FileSystem.IsProgram, FileSystem.node_eq_ok_iff, htrail]
  · have hnone (directory : String) : ¬ fs.IsProgram (Path.join directory command) := by
      intro h
      have hlast := h.isEntryName
      rw [Path.lastPiece_join, Path.lastPiece_of_not_mem hslash] at hlast
      exact hname hlast
    exact iff_of_false (hnone "") (hnone ".")

/-- A command that is found is found too on a host with the same files and more directories to
search. -/
theorem hasProgram_of_subset
    {other : Host}
    {path longer : String}
    {directories others : List String}
    (hfiles : other.files = host.files)
    (hpath : host.valueOf? "PATH" = some path)
    (hlonger : other.valueOf? "PATH" = some longer)
    (hdirectories : IsSearchPath path directories)
    (hothers : IsSearchPath longer others)
    (hsubset : directories ⊆ others)
    (h : host.hasProgram command = true) :
    other.hasProgram command = true := by
  rw [hasProgram_iff_slash] at h ⊢
  rw [hfiles]
  refine h.imp id (And.imp_right ?_)
  rintro ⟨_, _, hvalue, hfound, directory, hdirectory, hprogram⟩
  obtain rfl := Option.some.inj (hpath.symm.trans hvalue)
  rw [← searchDirectories_eq_iff] at hdirectories hfound
  obtain rfl := hdirectories.symm.trans hfound
  exact ⟨longer, others, hlonger, hothers, directory, hsubset hdirectory, hfiles ▸ hprogram⟩

/--
A command with a slash in it is found exactly if it is the path of a program; any other command is
found exactly if the search path is set and there is a program of that name in one of its
directories.  Every text is a search path of some directories, and of these only, and an empty entry
stands for the working directory.  So a command that is empty, a dot or two, or ends with a slash or
with a slash and a dot is never found, and more directories to search never hide a command.
-/
theorem program_found_exactly :
    (∀ (host : Host) (command : String),
      host.hasProgram command = true ↔
        '/' ∈ command.toList ∧ host.files.IsProgram command ∨
          '/' ∉ command.toList ∧
            ∃ path directories, host.valueOf? "PATH" = some path ∧
              IsSearchPath path directories ∧
              ∃ directory ∈ directories, host.files.IsProgram (Path.join directory command)) ∧
    (∀ path, ∃ directories, IsSearchPath path directories ∧
      ∀ others, IsSearchPath path others → others = directories) ∧
    (∀ (fs : FileSystem) (command : String), '/' ∉ command.toList →
      (fs.IsProgram (Path.join "" command) ↔ fs.IsProgram (Path.join "." command))) ∧
    (∀ (host : Host), ∀ command ∈ ["", ".", ".."], host.hasProgram command = false) ∧
    (∀ (host : Host) (front : String),
      host.hasProgram (front ++ "/") = false ∧ host.hasProgram (front ++ "/.") = false) ∧
    (∀ (host other : Host) (path longer : String) (directories others : List String),
      other.files = host.files →
      host.valueOf? "PATH" = some path → other.valueOf? "PATH" = some longer →
      IsSearchPath path directories → IsSearchPath longer others → directories ⊆ others →
      ∀ command, host.hasProgram command = true → other.hasProgram command = true) := by
  have hmissing {host : Host} {command : String}
      (hlast : ¬ Path.IsEntryName (Path.lastPiece command)) : host.hasProgram command = false :=
    Bool.eq_false_iff.2 fun h => hlast (isEntryName_of_hasProgram h)
  refine ⟨fun _ _ => hasProgram_iff_slash, ?_, fun _ _ => isProgram_join_empty_iff, ?_, ?_,
    fun _ _ _ _ _ _ hfiles hpath hlonger hdirectories hothers hsubset _ =>
      hasProgram_of_subset hfiles hpath hlonger hdirectories hothers hsubset⟩
  · intro path
    refine ⟨_, searchDirectories_eq_iff.1 rfl, fun others hothers => ?_⟩
    exact (searchDirectories_eq_iff.2 hothers).symm
  · intro host command hcommand
    simp only [List.mem_cons, List.not_mem_nil, or_false] at hcommand
    rcases hcommand with rfl | rfl | rfl <;> exact hmissing (by decide)
  · intro host front
    have hempty : front ++ "/" = front ++ "/" ++ "" := String.append_empty.symm
    have hdot : front ++ "/." = front ++ "/" ++ "." := by
      rw [String.append_assoc]
      rfl
    constructor
    · refine hmissing ?_
      rw [hempty, Path.lastPiece_append_slash]
      decide
    · refine hmissing ?_
      rw [hdot, Path.lastPiece_append_slash]
      decide

/-- A directory with a program and a link to it. -/
def toolEntries : List (String × Node) :=
  [("link", .link "tool"), ("tool", .file { bytes := [], mode := 0o755 })]

/-- A host with this directory and a search path. -/
def toolHost (path : String) : Host where
  files := {
    root := .directory [("bin", .directory toolEntries)]
    workingDirectory := ["bin"]
    ordered := by
      simp only [toolEntries, Node.Ordered, Node.OrderedEntries]
      decide }
  programs := []
  environment := [("PATH", path)]

/-- The link in the directory is found on a search path with the directory in it, and on a longer
one with an empty entry; the directory itself is no program. -/
theorem program_found_tool :
    (toolHost "/bin").hasProgram "link" = true ∧
    (toolHost "/lib::/bin").hasProgram "link" = true ∧
    (toolHost "/bin").hasProgram "../bin/." = false ∧
    ((toolHost "").files.IsProgram (Path.join "" "tool") ↔
      (toolHost "").files.IsProgram (Path.join "." "tool")) := by
  obtain ⟨hfound, -, hhere, -, hends, hlonger⟩ := program_found_exactly
  have hnode : (toolHost "/bin").files.node "/bin/link" =
      .ok (.file { bytes := [], mode := 0o755 }) := by
    have hsteps : FileSystem.stepsOf "/bin/link" = ["bin", "link"] ∧
        FileSystem.stepsOf "tool" = ["tool"] := by
      decide
    have habsolute : Path.isAbsolute "/bin/link" = true ∧ Path.isAbsolute "tool" = false := by
      decide
    have hsizes : "/bin/link".utf8ByteSize = 9 ∧ "bin".utf8ByteSize = 3 ∧
        "link".utf8ByteSize = 4 ∧ "tool".utf8ByteSize = 4 := by
      decide
    simp [FileSystem.node, FileSystem.trail, FileSystem.land, FileSystem.pathLimit,
      FileSystem.nameLimit, FileSystem.linkLimit, FileSystem.follow, FileSystem.nodeAt, toolHost,
      toolEntries, Node.find?, hsteps, habsolute, hsizes, Except.map]
  have hshort : IsSearchPath "/bin" ["/bin"] :=
    searchDirectories_eq_iff.1 (by decide)
  have hlong : IsSearchPath "/lib::/bin" ["/lib", "", "/bin"] :=
    searchDirectories_eq_iff.1 (by decide)
  have hlink : (toolHost "/bin").hasProgram "link" = true := by
    refine (hfound _ _).2 (Or.inr ⟨by decide, "/bin", ["/bin"], rfl, hshort, "/bin", by decide, ?_⟩)
    exact ⟨_, hnode, 0, by decide⟩
  refine ⟨hlink, ?_, (hends _ "../bin").2, hhere _ "tool" (by decide)⟩
  exact hlonger (toolHost "/bin") (toolHost "/lib::/bin") "/bin" "/lib::/bin" _ _ rfl rfl rfl hshort
    hlong (by decide) "link" hlink

end Search

end Host
end SkillAudit
