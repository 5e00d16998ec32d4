import SkillAudit.Proofs.Command.DefaultRun
import SkillAudit.Proofs.FileSystem.Places
import SkillAudit.Proofs.Package.Entries

/-!
# A package by another spelling of its path

Two paths to one place read the same package: what is met on the way through it depends on the place
alone, and the parts of each path that is met start with those of the root as it is spelled, so that
taking these off leaves the names from the root.  The two documents are looked for by paths that are
spelled like the root; only the limits of the system can tell the spellings apart there.  A run on
the package resolves its path first, so no spelling matters to it.

* `relative?_eq`: a path that is met, seen from the root.
* `files_of_load`: the files that are read, seen from the root.
* `load_congr`: a package that is read by two spellings.
* `nameOf_absolute`: the name under which a place is reported.
* `load_beyond_limits`: spellings by which a document is missed.
-/

namespace SkillAudit

namespace Path

section Absolute

variable {base : String}
variable {names : List String}

/-- Names below a directory are put after a slash. -/
theorem spelled_cons
    {name : String}
    (hbase : base ≠ "")
    (hslash : endsWithSlash base = false)
    (hnames : ∀ other ∈ name :: names, IsEntryName other) :
    spelled base (name :: names) = base ++ "/" ++ ofNames (name :: names) := by
  induction names generalizing base name with
  | nil =>
      have hname := List.forall_mem_singleton.1 hnames
      simp [spelled, join, hname.isAbsolute_eq_false, hbase, hslash, ofNames]
  | cons next more ih =>
      obtain ⟨hname, hrest⟩ := List.forall_mem_cons.1 hnames
      have hjoin : join base name = base ++ "/" ++ name := by
        simp [join, hname.isAbsolute_eq_false, hbase, hslash]
      have hbelow := ih (join_ne_empty hbase hname) (endsWithSlash_join hbase hname) hrest
      rw [spelled, List.foldl_cons, ← spelled, hbelow, hjoin, ofNames_cons_cons]
      simp only [String.append_assoc]

/-- The path of a place is spelled from the root directory. -/
theorem absolute_eq_spelled
    (hnames : ∀ name ∈ names, IsEntryName name) :
    absolute names = spelled "/" names := by
  cases names with
  | nil =>
      rfl
  | cons name rest =>
      obtain ⟨hname, hrest⟩ := List.forall_mem_cons.1 hnames
      have hjoin : join "/" name = "/" ++ name := by
        rw [join, hname.isAbsolute_eq_false]
        rfl
      rw [spelled, List.foldl_cons, ← spelled, hjoin]
      cases rest with
      | nil =>
          simp [absolute, ofNames, spelled]
      | cons next more =>
          rw [← hjoin, spelled_cons (join_ne_empty (by decide) hname)
            (endsWithSlash_join (by decide) hname) hrest, hjoin, absolute, ofNames_cons_cons]
          simp only [String.append_assoc]

end Absolute

end Path

namespace Package

section Naming

variable {names : List String}

/-- A place is reported under its last name; the root directory has none. -/
theorem nameOf_absolute
    (hnames : ∀ name ∈ names, Path.IsEntryName name) :
    nameOf (Path.absolute names) = names.getLast?.getD "unknown" := by
  have hroot : Path.parts "/" = [.root] := by
    decide
  have hparts : Path.parts (Path.absolute names) = .root :: names.map .name := by
    rw [Path.absolute_eq_spelled hnames, Path.parts_spelled (by decide) hnames, hroot,
      List.singleton_append]
  rw [nameOf, Path.fileName?, hparts]
  rcases List.eq_nil_or_concat names with rfl | ⟨above, last, rfl⟩
  · rfl
  · rw [List.concat_eq_append, List.map_append, List.map_singleton, ← List.cons_append,
      List.getLast?_concat, List.getLast?_concat]

/-- The names of an entry as a walk from a root finds them out: the parts of its path without those
of the root, both as they are spelled. -/
def Visit.relative? (path : String) (visit : Visit) : Option (List PathPart) :=
  (Path.parts path).isPrefixOf? (Path.parts (Path.spelled path visit.names))

/-- Every path that is met starts with the root as it is spelled, and the rest are the names. -/
theorem Visit.relative?_eq
    {path : String}
    {visit : Visit}
    (hpath : path ≠ "")
    (hnames : ∀ name ∈ visit.names, Path.IsEntryName name) :
    visit.relative? path = some (fileParts visit.names) := by
  rw [Visit.relative?, Path.parts_spelled hpath hnames]
  exact List.isPrefixOf?_eq_some_iff_append_eq.2 rfl

end Naming

section Reading

variable {fs : FileSystem}
variable {path other : String}

theorem readDocument_eq
    (path : String) :
    readDocument fs path =
      match fs.node path with
      | .ok (.file file) =>
          if file.readable then
            .ok (some (Document.ofText (Text.Utf8.decodeLenient file.bytes)))
          else
            .error (.unreadable path IoFault.permissionDenied.message)
      | _ => .ok none := by
  unfold readDocument FileSystem.isFile FileSystem.readBytes
  cases fs.node path with
  | error fault => rfl
  | ok node =>
      cases node with
      | link target => rfl
      | directory entries => rfl
      | file file => cases hreadable : file.readable <;> simp [hreadable]

/-- What is met depends on the node at the path alone. -/
theorem visitsAt_congr
    (h : fs.node path = fs.node other) :
    visitsAt fs path = visitsAt fs other := by
  rw [visitsAt, visitsAt, h]

/-- A document at two paths to one node is read by both or by neither. -/
theorem readDocument_congr
    (h : fs.node path = fs.node other) :
    (readDocument fs path).toOption = (readDocument fs other).toOption := by
  rw [readDocument_eq, readDocument_eq, h]
  split
  · split <;> rfl
  · rfl

theorem readExclusions_congr
    (h : fs.node path = fs.node other) :
    readExclusions fs path = readExclusions fs other := by
  unfold readExclusions FileSystem.isFile FileSystem.readBytes
  rw [h]

/-- A package that is not read has a document that may not be read. -/
theorem unreadable_of_load
    {error : RunError}
    (h : load fs path = .error error) :
    ∃ file, fs.node (Path.join path Contract.entryFile) = .ok (.file file) ∧
      file.readable = false := by
  obtain ⟨file, hnode, hlocked, -⟩ :=
    Validation.readDocument_eq_error_iff.1 (Validation.load_eq_error_iff.1 h)
  exact ⟨file, hnode, hlocked⟩

/-- A package that is read from two nodes with the same documents. -/
theorem load_congr
    (hroot : fs.node path = fs.node other)
    (hdocument : fs.node (Path.join path Contract.entryFile) =
      fs.node (Path.join other Contract.entryFile))
    (hexclusions : fs.node (Path.join path Contract.exclusionFile) =
      fs.node (Path.join other Contract.exclusionFile)) :
    (load fs other).toOption =
      (load fs path).toOption.map fun package =>
        { package with root := other, name := nameOf other } := by
  have hread := readDocument_congr hdocument
  rw [load, load]
  cases hpath : readDocument fs (Path.join path Contract.entryFile) with
  | error error =>
      rw [hpath] at hread
      cases hother : readDocument fs (Path.join other Contract.entryFile) with
      | error fault =>
          rfl
      | ok document =>
          rw [hother] at hread
          cases hread
  | ok document =>
      rw [hpath] at hread
      cases hother : readDocument fs (Path.join other Contract.entryFile) with
      | error fault =>
          rw [hother] at hread
          cases hread
      | ok found =>
          rw [hother] at hread
          obtain rfl : document = found := Option.some.inj hread
          simp only [bind, Except.bind, pure, Except.pure, Except.toOption, Option.map_some,
            visitsAt_congr hroot, readExclusions_congr hexclusions]

end Reading

section Spelling

variable {fs : FileSystem}
variable {path other : String}
variable {place : List String}

/-- What is met from a path to a place is reached from the place. -/
theorem descend?_of_mem_visitsAt
    {trail : FileSystem.Trail}
    {visit : Visit}
    (htrail : fs.trail path = .ok trail)
    (hvisit : visit ∈ visitsAt fs path) :
    (FileSystem.nodeAt fs.root trail).descend? visit.names = some visit.node := by
  have hordered := (FileSystem.leads_of_trail htrail).ordered fs.ordered
  rw [visitsAt, FileSystem.node_of_trail htrail] at hvisit
  dsimp only at hvisit
  cases hnode : FileSystem.nodeAt fs.root trail with
  | file content =>
      rw [hnode] at hvisit
      cases hvisit
  | link target =>
      rw [hnode] at hvisit
      cases hvisit
  | directory entries =>
      rw [hnode] at hvisit hordered
      obtain ⟨hnames, hentries⟩ := Node.ordered_directory.1 hordered
      obtain ⟨entry, hmem, -, hreached⟩ := (mem_visitsAmong_iff_isReached hentries).1 hvisit
      have hbelow : visit.IsReached [] (.directory entries) :=
        (isReached_directory_iff hnames).2 (Or.inr ⟨entry, hmem, hreached⟩)
      obtain ⟨names, hvisited, hfound⟩ := hbelow
      rw [List.nil_append] at hvisited
      rwa [hvisited]

/-- In a named tree, a walk finds each entry at its own path and makes it relative by the names. -/
theorem visit_spelled
    {visit : Visit}
    (hnamed : fs.root.Named)
    (hplace : fs.canonical path = .ok place)
    (hvisit : visit ∈ visitsAt fs path) :
    visit.relative? path = some (fileParts visit.names) ∧
      (FileSystem.Fits (Path.spelled path visit.names) → (∀ target, visit.node ≠ .link target) →
        fs.node (Path.spelled path visit.names) = .ok visit.node) := by
  obtain ⟨htrail, hthere⟩ := FileSystem.trail_of_canonical hplace
  have hdescend := descend?_of_mem_visitsAt htrail hvisit
  have hbelow := hnamed.descend? hthere
  have hpath := (FileSystem.fits_of_land (FileSystem.trail_eq_ok_iff.1 htrail)).1
  refine ⟨Visit.relative?_eq hpath (Node.isEntryName_of_descend? hbelow hdescend), ?_⟩
  intro hfits hlink
  exact FileSystem.node_spelled htrail hbelow hdescend hlink hfits

/-- The files of a package are the regular files that are met, each by the parts of its path without
those of the root as it is spelled. -/
theorem files_of_load
    {package : Package}
    (hnamed : fs.root.Named)
    (hplace : fs.canonical path = .ok place)
    (h : load fs path = .ok package) :
    package.files.map fileParts =
      ((visitsAt fs path).filter fun visit => visit.file?.isSome).filterMap
        (Visit.relative? path) := by
  obtain ⟨document, -, rfl⟩ := load_eq_ok_iff.1 h
  dsimp only
  rw [List.map_filterMap, List.filterMap_filter]
  refine List.filterMap_congr fun visit hvisit => ?_
  cases hfile : visit.file? with
  | none =>
      rfl
  | some file =>
      rw [(visit_spelled hnamed hplace hvisit).1, names_of_file?_eq_some hfile]
      rfl

/-- Two spellings of one place lead to one node under a name, within the limits of the system. -/
theorem node_join_congr
    {name : String}
    (hplace : fs.canonical path = .ok place)
    (hother : fs.canonical other = .ok place)
    (hname : Path.IsEntryName name)
    (hpath : fs.IsWithinLimits (Path.join path name))
    (hspelling : fs.IsWithinLimits (Path.join other name)) :
    fs.node (Path.join path name) = fs.node (Path.join other name) := by
  have hland := FileSystem.land_join_congr (FileSystem.trail_of_canonical hplace).1
    (FileSystem.trail_of_canonical hother).1 hname hpath hspelling
  rw [FileSystem.node, FileSystem.node, FileSystem.trail, FileSystem.trail, hland]

end Spelling

end Package

namespace Validation

section Spelling

variable {host : Host}
variable {path other : String}
variable {place : List String}

/-- A package is read by the path of its place. -/
theorem package_of_canonical
    {fs : FileSystem}
    (hplace : fs.canonical path = .ok place)
    (hdirectory : fs.isDirectory path = true) :
    package fs path = Package.load fs (Path.absolute place) := by
  obtain ⟨names, hnames, hload⟩ := package_of_isDirectory hdirectory
  obtain rfl : place = names := Except.ok.inj (hplace.symm.trans hnames)
  exact hload

/-- A run on a package depends on the place of the package alone. -/
theorem run_congr
    (hplace : host.files.canonical path = .ok place)
    (hother : host.files.canonical other = .ok place)
    (hdirectory : host.files.isDirectory path = true)
    (config : Config) :
    run host config path = run host config other := by
  have htrail := (FileSystem.trail_of_canonical hplace).1
  have htrailOther := (FileSystem.trail_of_canonical hother).1
  have hdirectoryOther : host.files.isDirectory other = true := by
    rwa [FileSystem.isDirectory, FileSystem.node_of_trail htrailOther,
      ← FileSystem.node_of_trail htrail]
  rw [run, run, package_of_canonical hplace hdirectory, package_of_canonical hother hdirectoryOther]

/-- A report has the name of its package. -/
theorem name_of_run
    {config : Config}
    {report : Report}
    (hnames : ∀ name ∈ place, Path.IsEntryName name)
    (hplace : host.files.canonical path = .ok place)
    (hdirectory : host.files.isDirectory path = true)
    (hrun : run host config path = .ok report) :
    report.name = place.getLast?.getD "unknown" := by
  rw [run, package_of_canonical hplace hdirectory] at hrun
  cases hload : Package.load host.files (Path.absolute place) with
  | error error =>
      rw [hload] at hrun
      cases hrun
  | ok package =>
      rw [hload] at hrun
      cases hrun
      obtain ⟨document, -, rfl⟩ := Package.load_eq_ok_iff.1 hload
      exact Package.nameOf_absolute hnames

/-- A directory without a report has a document that may not be read. -/
theorem unreadable_of_run
    {config : Config}
    {error : RunError}
    (hplace : host.files.canonical path = .ok place)
    (hdirectory : host.files.isDirectory path = true)
    (hrun : run host config path = .error error) :
    ∃ file, host.files.node (Path.join (Path.absolute place) Contract.entryFile) =
        .ok (.file file) ∧
      file.readable = false := by
  rw [run, package_of_canonical hplace hdirectory] at hrun
  cases hload : Package.load host.files (Path.absolute place) with
  | error fault =>
      exact Package.unreadable_of_load hload
  | ok package =>
      rw [hload] at hrun
      cases hrun

end Spelling

end Validation

namespace Package

/--
Two paths to one directory, in a tree whose names are names of entries.  Each path that is met on
the way through the package starts with the root as it is spelled, followed by the names from the
root, and leads to what is met.  A path reads a package, unless its entry document is a file that
may not be read; and both paths read the same package but for the spelling of its root, as long as
the limits of the system do not stand in the way of its two documents.  Nothing of this kind is
asked of the entries that are met, because the walk knows no limits.  A run gives the same report
for both, whatever the configuration, under the last name of the directory.
-/
theorem spelling_immaterial
    {host : Host}
    {path other : String}
    {place : List String}
    (hnamed : host.files.root.Named)
    (hplace : host.files.canonical path = .ok place)
    (hother : host.files.canonical other = .ok place)
    (hdirectory : host.files.isDirectory path = true) :
    (∀ spelling ∈ [path, other], ∀ visit ∈ visitsAt host.files spelling,
      visit.relative? spelling = some (fileParts visit.names) ∧
        (FileSystem.Fits (Path.spelled spelling visit.names) →
          (∀ target, visit.node ≠ .link target) →
            host.files.node (Path.spelled spelling visit.names) = .ok visit.node)) ∧
    (∀ spelling ∈ [path, other], ∀ error, load host.files spelling = .error error →
      ∃ file, host.files.node (Path.join spelling Contract.entryFile) = .ok (.file file) ∧
        file.readable = false) ∧
    ((∀ spelling ∈ [path, other], ∀ name ∈ [Contract.entryFile, Contract.exclusionFile],
        host.files.IsWithinLimits (Path.join spelling name)) →
      (load host.files other).toOption =
        (load host.files path).toOption.map fun package =>
          { package with root := other, name := nameOf other }) ∧
    ∀ config,
      Validation.run host config path = Validation.run host config other ∧
      (∀ report, Validation.run host config path = .ok report →
        report.name = place.getLast?.getD "unknown") ∧
      ∀ error, Validation.run host config path = .error error →
        ∃ file, host.files.node (Path.join (Path.absolute place) Contract.entryFile) =
            .ok (.file file) ∧
          file.readable = false := by
  obtain ⟨htrail, hthere⟩ := FileSystem.trail_of_canonical hplace
  have htrailOther := (FileSystem.trail_of_canonical hother).1
  refine ⟨?_, fun _ _ _ => unreadable_of_load, ?_, ?_⟩
  · simp only [List.forall_mem_cons]
    exact ⟨fun visit hvisit => visit_spelled hnamed hplace hvisit,
      fun visit hvisit => visit_spelled hnamed hother hvisit, List.forall_mem_nil _⟩
  · intro hlimits
    simp only [List.forall_mem_cons] at hlimits
    obtain ⟨⟨hentry, hexclusion, -⟩, ⟨hentryOther, hexclusionOther, -⟩, -⟩ := hlimits
    refine load_congr ?_ ?_ ?_
    · rw [FileSystem.node_of_trail htrail, FileSystem.node_of_trail htrailOther]
    · exact node_join_congr hplace hother (by decide) hentry hentryOther
    · exact node_join_congr hplace hother (by decide) hexclusion hexclusionOther
  · intro config
    refine ⟨Validation.run_congr hplace hother hdirectory config, fun report hrun => ?_,
      fun error hrun => Validation.unreadable_of_run hplace hdirectory hrun⟩
    exact Validation.name_of_run (Node.isEntryName_of_descend? hnamed hthere) hplace hdirectory hrun

section Shelf

open Command

theorem named_shelf : shelf.files.root.Named := by
  simp only [shelf, shelfEntries, plainNode, bareNode, Node.Named, Node.NamedEntries]
  decide

theorem trail_shelf_around : shelf.files.trail "/c/../d/." = .ok [("d", bareNode)] := by
  have hsteps : FileSystem.stepsOf "/c/../d/." = ["c", "..", "d", "."] := by
    decide
  have habsolute : Path.isAbsolute "/c/../d/." = true := by
    decide
  have hshort : ∀ name ∈ ["c", "d"], ¬ FileSystem.nameLimit < name.utf8ByteSize := by
    decide
  rw [FileSystem.trail_eq_ok_iff, FileSystem.land_of_fits (by decide) (by decide), hsteps]
  simp [FileSystem.follow, FileSystem.nodeAt, shelf, bareNode, Node.find?, habsolute, hshort]

/-- A package is the same by a way around and through a link, and is reported under its own name. -/
theorem spelling_immaterial_shelf :
    (load shelf.files "/c/z").toOption =
      (load shelf.files "/c/../d/.").toOption.map (fun package =>
        { package with root := "/c/z", name := "z" }) ∧
    (∀ config, Validation.run shelf config "/c/../d/." = Validation.run shelf config "/c/z") ∧
    ∀ config report, Validation.run shelf config "/c/../d/." = .ok report → report.name = "d" := by
  have hplace : shelf.files.canonical "/c/../d/." = .ok ["d"] := by
    rw [FileSystem.canonical, trail_shelf_around]
    rfl
  have hother : shelf.files.canonical "/c/z" = .ok ["d"] := by
    rw [FileSystem.canonical, trail_shelf_link]
    rfl
  have hdirectory : shelf.files.isDirectory "/c/../d/." = true := by
    rw [FileSystem.isDirectory, FileSystem.node_of_trail trail_shelf_around]
    rfl
  have hlimits {spelling : String}
      (htrail : shelf.files.trail spelling = .ok [("d", bareNode)])
      (hfits : ∀ name ∈ [Contract.entryFile, Contract.exclusionFile],
        FileSystem.Fits (Path.join spelling name)) :
      ∀ name ∈ [Contract.entryFile, Contract.exclusionFile],
        shelf.files.IsWithinLimits (Path.join spelling name) := by
    simp only [List.forall_mem_cons] at hfits ⊢
    obtain ⟨hentry, hexclusion, -⟩ := hfits
    refine ⟨FileSystem.isWithinLimits_join htrail rfl (by decide) hentry ?_,
      FileSystem.isWithinLimits_join htrail rfl (by decide) hexclusion ?_, List.forall_mem_nil _⟩
    all_goals
      intro target h
      cases h
  obtain ⟨-, -, hload, hrun⟩ := spelling_immaterial named_shelf hplace hother hdirectory
  have hname : nameOf "/c/z" = "z" := by
    decide
  rw [hname] at hload
  refine ⟨hload ?_, fun config => (hrun config).1, fun config => (hrun config).2.1⟩
  rw [List.forall_mem_cons, List.forall_mem_singleton]
  exact ⟨hlimits trail_shelf_around (by decide), hlimits trail_shelf_link (by decide)⟩

end Shelf

section Limits

variable {fs : FileSystem}
variable {path : String}

/-- A directory with a link to itself; its entry document is a link that passes that link. -/
def loopEntries : List (String × Node) :=
  [(Contract.entryFile, .link "l/l/l/l/l/a.md"), ("a.md", .file { bytes := [] }), ("l", .link ".")]

def loopTrail : FileSystem.Trail :=
  [("d", .directory loopEntries)]

def loopSystem : FileSystem where
  root := .directory loopTrail
  workingDirectory := []
  ordered := by
    simp only [loopTrail, loopEntries, Node.Ordered, Node.OrderedEntries]
    decide

/-- The root directory is the working directory. -/
theorem startOf_loopSystem
    (path : String) :
    loopSystem.startOf path = .ok [] := by
  have hworking : loopSystem.workingTrail = .ok [] := rfl
  rw [FileSystem.startOf, hworking, ite_self]

/-- A link that leads to where it stands uses up one of the links that a path may pass. -/
theorem follow_loop
    (links : Nat)
    (steps : List String) :
    FileSystem.follow loopSystem.root true (links + 1) loopTrail ("l" :: steps) =
      FileSystem.follow loopSystem.root true links loopTrail steps := by
  have hsteps : FileSystem.stepsOf "." = ["."] := by
    decide
  have habsolute : Path.isAbsolute "." = false := by
    decide
  have hshort : ¬ FileSystem.nameLimit < "l".utf8ByteSize := by
    decide
  have hstays : FileSystem.follow loopSystem.root true links loopTrail ("." :: steps) =
      FileSystem.follow loopSystem.root true links loopTrail steps := by
    rw [FileSystem.follow]
    simp only [FileSystem.nodeAt, loopTrail, if_true]
  rw [← hstays, FileSystem.follow]
  simp [FileSystem.nodeAt, loopTrail, loopEntries, Node.find?, Contract.entryFile, hshort, hsteps,
    habsolute]

theorem follow_loops
    (n links : Nat)
    (steps : List String) :
    FileSystem.follow loopSystem.root true (n + links) loopTrail (List.replicate n "l" ++ steps) =
      FileSystem.follow loopSystem.root true links loopTrail steps := by
  induction n with
  | zero =>
      rw [Nat.zero_add]
      rfl
  | succ n ih =>
      rw [← ih, List.replicate_succ, List.cons_append, Nat.succ_add, follow_loop]

/-- The entry document is a link that passes five others. -/
theorem follow_entryFile
    (links : Nat) :
    FileSystem.follow loopSystem.root true (links + 1) loopTrail [Contract.entryFile] =
      FileSystem.follow loopSystem.root true links loopTrail
        (List.replicate 5 "l" ++ ["a.md"]) := by
  have hsteps : FileSystem.stepsOf "l/l/l/l/l/a.md" = List.replicate 5 "l" ++ ["a.md"] := by
    decide
  have habsolute : Path.isAbsolute "l/l/l/l/l/a.md" = false := by
    decide
  have hshort : ¬ FileSystem.nameLimit < Contract.entryFile.utf8ByteSize := by
    decide
  have hentry : Node.find? Contract.entryFile loopEntries = some (.link "l/l/l/l/l/a.md") := rfl
  have hdots : Contract.entryFile ≠ "." ∧ Contract.entryFile ≠ ".." := by
    decide
  rw [FileSystem.follow]
  simp [FileSystem.nodeAt, loopTrail, hentry, hshort, hsteps, habsolute, hdots]

/-- More links than a path may pass are too many. -/
theorem follow_too_many_loops
    {n links : Nat}
    (h : links < n)
    (steps : List String) :
    FileSystem.follow loopSystem.root true links loopTrail (List.replicate n "l" ++ steps) =
      .error .tooManyLinks := by
  obtain ⟨more, rfl⟩ := Nat.exists_eq_add_of_lt h
  have hshort : ¬ FileSystem.nameLimit < "l".utf8ByteSize := by
    decide
  have hloops := follow_loops links 0 ("l" :: (List.replicate more "l" ++ steps))
  rw [Nat.add_zero] at hloops
  rw [Nat.add_assoc, List.replicate_add, List.append_assoc, List.replicate_succ, List.cons_append,
    hloops, FileSystem.follow]
  simp [FileSystem.nodeAt, loopTrail, loopEntries, Node.find?, Contract.entryFile, hshort]

/-- The directory, spelled with this many links to itself. -/
def around (n : Nat) : String :=
  Path.spelled "d" (List.replicate n "l")

theorem forall_mem_loops
    {P : String → Prop}
    {steps : List String}
    (hlink : P "l")
    (hsteps : ∀ step ∈ steps, P step)
    (n : Nat) :
    ∀ name ∈ List.replicate n "l" ++ steps, P name := by
  refine List.forall_mem_append.2 ⟨fun name hname => ?_, hsteps⟩
  rwa [List.eq_of_mem_replicate hname]

theorem spelled_around
    (n : Nat)
    (steps : List String) :
    Path.spelled (around n) steps = Path.spelled "d" (List.replicate n "l" ++ steps) := by
  rw [around, Path.spelled, Path.spelled, Path.spelled, List.foldl_append]

/-- What is below the directory by its spelling with links has as many links less to pass. -/
theorem land_around
    {n : Nat}
    {steps : List String}
    (hn : n ≤ FileSystem.linkLimit)
    (hsteps : ∀ step ∈ steps, Path.IsEntryName step)
    (hfits : FileSystem.Fits (Path.spelled (around n) steps)) :
    loopSystem.land (Path.spelled (around n) steps) true =
      FileSystem.follow loopSystem.root true (FileSystem.linkLimit - n) loopTrail steps := by
  have hnames : ∀ name ∈ List.replicate n "l" ++ steps, Path.IsEntryName name :=
    forall_mem_loops (by decide) hsteps n
  have hstart : FileSystem.stepsOf "d" = ["d"] := by
    decide
  have hshort : ¬ FileSystem.nameLimit < "d".utf8ByteSize := by
    decide
  have hbelow := follow_loops n (FileSystem.linkLimit - n) steps
  rw [Nat.add_sub_cancel' hn] at hbelow
  rw [spelled_around] at hfits ⊢
  rw [FileSystem.land_of_fits (Path.spelled_ne_empty (by decide) hnames) hfits, startOf_loopSystem,
    FileSystem.stepsOf_spelled (by decide) (by decide) hnames, hstart, ← hbelow,
    List.singleton_append]
  dsimp only
  rw [FileSystem.follow]
  simp [FileSystem.nodeAt, loopSystem, loopTrail, Node.find?, hshort]

/-- The directory, spelled with this many dots. -/
def dotted : Nat → String
  | 0 => "d"
  | n + 1 => "./" ++ dotted n

theorem utf8ByteSize_dotted
    (n : Nat) :
    (dotted n).utf8ByteSize = 2 * n + 1 := by
  induction n with
  | zero =>
      decide
  | succ n ih =>
      have hdot : "./".utf8ByteSize = 2 := by
        decide
      rw [dotted, String.utf8ByteSize_append, ih, hdot]
      omega

theorem not_mem_dotted
    (n : Nat) :
    '\x00' ∉ (dotted n).toList := by
  induction n with
  | zero =>
      decide
  | succ n ih =>
      simpa [dotted] using ih

theorem dotted_ne_empty
    (n : Nat) :
    dotted n ≠ "" := by
  intro hempty
  have hsize := utf8ByteSize_dotted n
  rw [hempty] at hsize
  exact absurd hsize (by simp)

theorem endsWithSlash_dotted
    (n : Nat) :
    Path.endsWithSlash (dotted n) = false := by
  induction n with
  | zero =>
      decide
  | succ n ih =>
      have hne : (dotted n).toList ≠ [] := fun hnil =>
        dotted_ne_empty n (String.toList_eq_nil_iff.1 hnil)
      rw [Path.endsWithSlash] at ih
      rwa [Path.endsWithSlash, dotted, String.toList_append, List.getLast?_append_of_ne_nil _ hne]

theorem stepsOf_dotted
    (n : Nat) :
    FileSystem.stepsOf (dotted n) = List.replicate n "." ++ ["d"] := by
  rw [FileSystem.stepsOf, endsWithSlash_dotted, if_neg Bool.false_ne_true, List.append_nil]
  induction n with
  | zero =>
      decide
  | succ n ih =>
      rw [List.replicate_succ, List.cons_append, ← ih]
      simp [Path.pieces, dotted, Text.splitOn]

theorem follow_dots
    {entries : List (String × Node)}
    {root : Node}
    {trail : FileSystem.Trail}
    (hdirectory : FileSystem.nodeAt root trail = .directory entries)
    (links n : Nat)
    (steps : List String) :
    FileSystem.follow root true links trail (List.replicate n "." ++ steps) =
      FileSystem.follow root true links trail steps := by
  induction n with
  | zero =>
      rfl
  | succ n ih =>
      rw [← ih, List.replicate_succ, List.cons_append, FileSystem.follow]
      simp only [hdirectory, if_true]

theorem trail_dotted
    {n : Nat}
    (hfits : FileSystem.Fits (dotted n)) :
    loopSystem.trail (dotted n) = .ok loopTrail := by
  have hshort : ¬ FileSystem.nameLimit < "d".utf8ByteSize := by
    decide
  rw [FileSystem.trail_eq_ok_iff, FileSystem.land_of_fits (dotted_ne_empty n) hfits,
    startOf_loopSystem, stepsOf_dotted]
  dsimp only
  rw [follow_dots (by rfl), FileSystem.follow]
  simp [FileSystem.nodeAt, loopSystem, loopTrail, Node.find?, hshort]
  rw [FileSystem.follow]

/-- A document whose path leads nowhere is missed. -/
theorem exists_load_of_fault
    {fault : IoFault}
    (h : fs.land (Path.join path Contract.entryFile) true = .error fault) :
    ∃ package, load fs path = .ok package ∧ package.document = none := by
  have hread : readDocument fs (Path.join path Contract.entryFile) = .ok none := by
    rw [readDocument_eq, FileSystem.node, FileSystem.trail, h]
    rfl
  exact ⟨_, load_eq_ok_iff.2 ⟨none, hread, rfl⟩, rfl⟩

/-- By its name alone, the directory is read with its document. -/
theorem exists_load_loopSystem :
    ∃ package, load loopSystem "d" = .ok package ∧ package.document.isSome = true := by
  have hentry : ∀ name ∈ [Contract.entryFile], Path.IsEntryName name := by
    decide
  have hfile : Node.find? "a.md" loopEntries = some (.file { bytes := [] }) := rfl
  have hlink : ∀ target, Node.file { bytes := [] } ≠ .link target := by
    intro target h
    cases h
  have hland := @land_around 0 [Contract.entryFile] (by decide) hentry (by decide)
  rw [Nat.sub_zero, FileSystem.linkLimit, follow_entryFile, follow_loops 5 34,
    FileSystem.follow_entry (by decide) rfl hfile hlink, if_neg (by decide)] at hland
  have hnode : loopSystem.node (Path.join "d" Contract.entryFile) = .ok (.file { bytes := [] }) :=
    FileSystem.node_of_trail (FileSystem.trail_eq_ok_iff.2 hland)
  have hread := @readDocument_eq loopSystem (Path.join "d" Contract.entryFile)
  rw [hnode] at hread
  exact ⟨_, load_eq_ok_iff.2 ⟨_, hread, rfl⟩, rfl⟩

theorem trail_around
    {n : Nat}
    (hn : n ≤ FileSystem.linkLimit)
    (hfits : FileSystem.Fits (around n)) :
    loopSystem.trail (around n) = .ok loopTrail := by
  have hland := @land_around n [] hn (List.forall_mem_nil _) hfits
  rw [FileSystem.follow] at hland
  exact FileSystem.trail_eq_ok_iff.2 hland

/-- The document has fewer than six links to pass. -/
theorem exists_load_around
    {n : Nat}
    (hn : n < FileSystem.linkLimit)
    (hlimit : FileSystem.linkLimit < n + 6)
    (hfits : FileSystem.Fits (Path.spelled (around n) [Contract.entryFile])) :
    ∃ package, load loopSystem (around n) = .ok package ∧ package.document = none := by
  have hentry : ∀ name ∈ [Contract.entryFile], Path.IsEntryName name := by
    decide
  obtain ⟨links, hleft⟩ := Nat.exists_eq_add_of_lt hn
  have hland := @land_around n [Contract.entryFile] hn.le hentry hfits
  have hsub : FileSystem.linkLimit - n = links + 1 := by
    omega
  have hfew : links < 5 := by
    omega
  rw [hsub, follow_entryFile, follow_too_many_loops hfew] at hland
  exact exists_load_of_fault hland

/-- The path of the document is too long, though that of the directory need not be. -/
theorem exists_load_dotted
    {n : Nat}
    (hn : FileSystem.pathLimit < 2 * n + 10) :
    ∃ package, load loopSystem (dotted n) = .ok package ∧ package.document = none := by
  have hsize : (Path.join (dotted n) Contract.entryFile).utf8ByteSize = 2 * n + 10 := by
    have hjoin : Path.join (dotted n) Contract.entryFile =
        dotted n ++ "/" ++ Contract.entryFile := by
      have hrelative : Path.isAbsolute Contract.entryFile = false := by
        decide
      simp [Path.join, hrelative, endsWithSlash_dotted, dotted_ne_empty]
    have hname : "/".utf8ByteSize = 1 ∧ Contract.entryFile.utf8ByteSize = 8 := by
      decide
    rw [hjoin, String.utf8ByteSize_append, String.utf8ByteSize_append, utf8ByteSize_dotted, hname.1,
      hname.2]
  cases hland : loopSystem.land (Path.join (dotted n) Contract.entryFile) true with
  | error fault =>
      exact exists_load_of_fault hland
  | ok landing =>
      have hshort := (FileSystem.fits_of_land hland).2.short
      omega

/-- Two spellings of a directory by which its entry document is missed: one passes so many links
that those of the document are too many, the other is so long that the path of the document is too
long. -/
theorem load_beyond_limits :
    loopSystem.canonical "d" = .ok ["d"] ∧
    loopSystem.isDirectory "d" = true ∧
    (∃ package, load loopSystem "d" = .ok package ∧ package.document.isSome = true) ∧
    ∀ spelling ∈ [around 36, dotted 2046],
      loopSystem.canonical spelling = .ok ["d"] ∧
      ∃ package, load loopSystem spelling = .ok package ∧ package.document = none := by
  have hplace {spelling : String} (h : loopSystem.trail spelling = .ok loopTrail) :
      loopSystem.canonical spelling = .ok ["d"] := by
    rw [FileSystem.canonical, h]
    rfl
  have hname : loopSystem.trail "d" = .ok loopTrail := @trail_dotted 0 (by decide)
  have hdots : FileSystem.Fits (dotted 2046) :=
    ⟨not_mem_dotted 2046, by rw [utf8ByteSize_dotted]; decide⟩
  have hlinks : FileSystem.Fits (Path.spelled (around 36) [Contract.entryFile]) := by
    rw [spelled_around]
    refine Path.fits_spelled (forall_mem_loops (by decide) (by decide) 36) ?_
      (forall_mem_loops (by decide) (List.forall_mem_singleton.2 (Nat.le_refl 8)) 36) ?_
    · exact List.forall_mem_cons.2 ⟨by decide, forall_mem_loops (by decide) (by decide) 36⟩
    · have hbase : "d".utf8ByteSize = 1 := by
        decide
      simp [hbase, FileSystem.pathLimit]
  refine ⟨hplace hname, ?_, exists_load_loopSystem, ?_⟩
  · rw [FileSystem.isDirectory, FileSystem.node_of_trail hname]
    rfl
  · rw [List.forall_mem_cons, List.forall_mem_singleton]
    have hentry : ∀ name ∈ [Contract.entryFile], Path.IsEntryName name := by
      decide
    have htrail := @trail_around 36 (by decide) (Path.fits_of_spelled hentry hlinks)
    exact ⟨⟨hplace htrail, exists_load_around (by decide) (by decide) hlinks⟩,
      hplace (trail_dotted hdots), exists_load_dotted (by decide)⟩

end Limits

end Package
end SkillAudit
