import SkillAudit.FileSystem.Update
import SkillAudit.Proofs.FileSystem.Children

/-!
# Reading what was written

A file is written under one name of one directory.  Whatever stood in the tree before is of the same
kind after it, and a link leads to the same target; so the path that led to the name leads there
again, now to a file with the bytes that were written.

* `find?_insertEntry_of_ne`: the other entries of a directory stay.
* `descend?_put`, `descend?_put_self`: what stands at a place after a file was put under a name.
* `follow_written`: a path is followed in both trees side by side.
* `node_of_write`: a file that was written is found by its path.
* `write_error_congr`: whether a file can be written does not depend on what is written.
-/

namespace SkillAudit

namespace Node

section Descending

theorem find?_insertEntry_of_ne
    {name other : String}
    (hne : other ≠ name)
    (node : Node)
    (entries : List (String × Node)) :
    find? other (insertEntry name node entries) = find? other entries := by
  induction entries with
  | nil =>
      simp [insertEntry, find?, Ne.symm hne]
  | cons entry rest ih =>
      obtain ⟨key, old⟩ := entry
      unfold insertEntry
      split
      · next hkey =>
          have hkey' : key ≠ other := fun h => hne (h.symm.trans hkey)
          simp [find?, hkey', Ne.symm hne]
      · split
        · simp [find?, Ne.symm hne]
        · simp [find?, ih]

theorem descend?_append
    (node : Node)
    (names more : List String) :
    node.descend? (names ++ more) = (node.descend? names).bind (descend? · more) := by
  induction names generalizing node with
  | nil =>
      rfl
  | cons name rest ih =>
      cases node with
      | file content => rfl
      | link target => rfl
      | directory entries =>
          simp only [List.cons_append, descend?]
          cases find? name entries with
          | none => rfl
          | some child => exact ih child

/-- Two nodes of one kind: two files, two directories, or two links with one target. -/
inductive SameKind : Node → Node → Prop
  | file (content other : File) : SameKind (.file content) (.file other)
  | link (target : String) : SameKind (.link target) (.link target)
  | directory (entries others : List (String × Node)) :
      SameKind (.directory entries) (.directory others)

theorem SameKind.refl
    (node : Node) :
    SameKind node node := by
  cases node with
  | file content => exact .file content content
  | link target => exact .link target
  | directory entries => exact .directory entries entries

/-- After a file is put under a name, every place at which there was a node has a node of the same
kind; under the name there was a file or nothing. -/
theorem descend?_put
    {name : String}
    {content : File}
    {names places : List String}
    {root node : Node}
    {entries : List (String × Node)}
    (hdirectory : root.descend? names = some (.directory entries))
    (hfree : ∀ old, find? name entries = some old → ∃ file, old = .file file)
    (hnode : root.descend? places = some node) :
    ∃ new, (root.updateDirectory (insertEntry name (.file content)) names).descend? places =
      some new ∧ SameKind node new := by
  induction names generalizing root places with
  | nil =>
      obtain rfl : root = .directory entries := Option.some.inj hdirectory
      cases places with
      | nil =>
          rw [← Option.some.inj hnode]
          exact ⟨_, rfl, .directory _ _⟩
      | cons place below =>
          obtain ⟨child, hchild, hbelow⟩ := Option.bind_eq_some_iff.1 hnode
          rw [updateDirectory]
          simp only [descend?]
          by_cases hplace : place = name
          · subst hplace
            obtain ⟨file, rfl⟩ := hfree child hchild
            rw [find?_insertEntry_self, Option.bind_some]
            cases below with
            | nil =>
                rw [← Option.some.inj hbelow]
                exact ⟨_, rfl, .file _ _⟩
            | cons next more =>
                cases hbelow
          · rw [find?_insertEntry_of_ne hplace, hchild, Option.bind_some]
            exact ⟨node, hbelow, .refl node⟩
  | cons first rest ih =>
      cases root with
      | file file => cases hdirectory
      | link target => cases hdirectory
      | directory outer =>
          obtain ⟨inner, hinner, hrest⟩ := Option.bind_eq_some_iff.1 hdirectory
          simp only [updateDirectory, hinner]
          cases places with
          | nil =>
              rw [← Option.some.inj hnode]
              exact ⟨_, rfl, .directory _ _⟩
          | cons place below =>
              obtain ⟨child, hchild, hbelow⟩ := Option.bind_eq_some_iff.1 hnode
              simp only [descend?]
              by_cases hplace : place = first
              · subst hplace
                obtain rfl : inner = child := Option.some.inj (hinner.symm.trans hchild)
                rw [find?_insertEntry_self, Option.bind_some]
                exact ih hrest hbelow
              · rw [find?_insertEntry_of_ne hplace, hchild, Option.bind_some]
                exact ⟨node, hbelow, .refl node⟩

/-- The file that is put under a name is there. -/
theorem descend?_put_self
    {name : String}
    {new : Node}
    {names : List String}
    {root : Node}
    {entries : List (String × Node)}
    (hdirectory : root.descend? names = some (.directory entries)) :
    (root.updateDirectory (insertEntry name new) names).descend? (names ++ [name]) = some new := by
  induction names generalizing root with
  | nil =>
      obtain rfl : root = .directory entries := Option.some.inj hdirectory
      rw [updateDirectory, List.nil_append, descend?_singleton, find?_insertEntry_self]
  | cons first rest ih =>
      cases root with
      | file file => cases hdirectory
      | link target => cases hdirectory
      | directory outer =>
          obtain ⟨inner, hinner, hrest⟩ := Option.bind_eq_some_iff.1 hdirectory
          simp only [updateDirectory, hinner, List.cons_append, descend?, find?_insertEntry_self,
            Option.bind_some]
          exact ih hrest

end Descending

end Node

namespace FileSystem

section Following

theorem Trail.names_cons
    (name : String)
    (node : Node)
    (trail : Trail) :
    Trail.names ((name, node) :: trail) = trail.names ++ [name] := by
  simp [Trail.names]

theorem Trail.names_tail
    (trail : Trail) :
    Trail.names trail.tail = trail.names.dropLast := by
  cases trail with
  | nil => rfl
  | cons step rest => simp [Trail.names]

/-- A trail leads to the node that its names lead to. -/
theorem Trail.Leads.descend?
    {root : Node}
    {trail : Trail}
    (h : Trail.Leads root trail) :
    root.descend? trail.names = some (nodeAt root trail) := by
  induction h with
  | start => rfl
  | @step trail entries name node hdirectory hentry _ ih =>
      rw [Trail.names_cons, Node.descend?_append, ih, Option.bind_some, hdirectory,
        Node.descend?_singleton, hentry]
      rfl

/-- One name further stands the entry of that name. -/
theorem Trail.Leads.descend?_concat
    {root : Node}
    {trail : Trail}
    {entries : List (String × Node)}
    (h : Trail.Leads root trail)
    (hdirectory : nodeAt root trail = .directory entries)
    (name : String) :
    root.descend? (trail.names ++ [name]) = Node.find? name entries := by
  rw [Node.descend?_append, h.descend?, Option.bind_some, hdirectory, Node.descend?_singleton]

/-- One tree comes from another by a file that is put in its place: every place has a node of the
same kind as before. -/
structure Written (before after : Node) (place : List String) (content : File) : Prop where
  same : ∀ places node, before.descend? places = some node →
    ∃ new, after.descend? places = some new ∧ Node.SameKind node new
  here : after.descend? place = some (.file content)

/-- The names of a landing from the root down. -/
def Landing.place : Landing → List String
  | .found trail => trail.names
  | .vacant directory name => directory.names ++ [name]

variable {before after : Node}
variable {content : File}

/-- Two trails with the same names, one in each tree. -/
structure Trail.Pair (before after : Node) (trail other : Trail) : Prop where
  leads : Trail.Leads before trail
  other_leads : Trail.Leads after other
  names : other.names = trail.names

/-- Two trails with the same names lead to nodes of one kind. -/
theorem Trail.Pair.sameKind
    {place : List String}
    {trail other : Trail}
    (hpair : Trail.Pair before after trail other)
    (hwritten : Written before after place content) :
    Node.SameKind (nodeAt before trail) (nodeAt after other) := by
  obtain ⟨new, hnew, hkind⟩ := hwritten.same _ _ hpair.leads.descend?
  rw [← hpair.names, hpair.other_leads.descend?] at hnew
  rwa [Option.some.inj hnew]

theorem Trail.Pair.tail
    {trail other : Trail}
    (hpair : Trail.Pair before after trail other) :
    Trail.Pair before after trail.tail other.tail where
  leads := hpair.leads.tail
  other_leads := hpair.other_leads.tail
  names := by rw [Trail.names_tail, Trail.names_tail, hpair.names]

theorem Trail.Pair.step
    {trail other : Trail}
    {entries others : List (String × Node)}
    {name : String}
    {node new : Node}
    (hpair : Trail.Pair before after trail other)
    (hdirectory : nodeAt before trail = .directory entries)
    (hother : nodeAt after other = .directory others)
    (hentry : Node.find? name entries = some node)
    (hnew : Node.find? name others = some new) :
    Trail.Pair before after ((name, node) :: trail) ((name, new) :: other) where
  leads := .step hdirectory hentry hpair.leads
  other_leads := .step hother hnew hpair.other_leads
  names := by rw [Trail.names_cons, Trail.names_cons, hpair.names]

/-- Where the one trail leads to a directory, the other does, too, and each entry of the one has an
entry of the same kind in the other. -/
theorem Trail.Pair.directory
    {place : List String}
    {trail other : Trail}
    {entries : List (String × Node)}
    (hpair : Trail.Pair before after trail other)
    (hwritten : Written before after place content)
    (hdirectory : nodeAt before trail = .directory entries) :
    ∃ others, nodeAt after other = .directory others ∧
      ∀ name node, Node.find? name entries = some node →
        ∃ new, Node.find? name others = some new ∧ Node.SameKind node new := by
  have hkind := hpair.sameKind hwritten
  rw [hdirectory] at hkind
  generalize hreached : nodeAt after other = reached at hkind
  cases hkind with
  | directory _ others =>
      refine ⟨others, rfl, ?_⟩
      intro name node hentry
      rw [← hpair.leads.descend?_concat hdirectory] at hentry
      obtain ⟨new, hnew, hsame⟩ := hwritten.same _ _ hentry
      rw [← hpair.names, hpair.other_leads.descend?_concat hreached] at hnew
      exact ⟨new, hnew, hsame⟩

/-- A path that leads to the place of the file leads there in the changed tree, and the file is
there. -/
theorem follow_written
    {links : Nat}
    {trail other : Trail}
    {steps : List String}
    {landing : Landing}
    (hwritten : Written before after landing.place content)
    (hpair : Trail.Pair before after trail other)
    (h : follow before true links trail steps = .ok landing) :
    ∃ found, follow after true links other steps = .ok (.found found) ∧
      nodeAt after found = .file content := by
  fun_induction follow before true links trail steps generalizing other with
  | case1 links trail =>
      cases h
      refine ⟨other, by rw [follow], ?_⟩
      have hplace := hwritten.here
      rw [Landing.place, ← hpair.names, hpair.other_leads.descend?] at hplace
      exact Option.some.inj hplace
  | case2 links trail rest entries hdirectory ih =>
      obtain ⟨others, hother, -⟩ := hpair.directory hwritten hdirectory
      rw [follow]
      simp only [hother, if_true]
      exact ih hpair h
  | case3 links trail rest entries hdirectory hdot ih =>
      obtain ⟨others, hother, -⟩ := hpair.directory hwritten hdirectory
      rw [follow]
      simp only [hother, hdot, if_false, if_true]
      exact ih hpair.tail h
  | case4 | case6 | case8 | case11 =>
      cases h
  | case5 links trail name rest entries hdirectory hdot hup hshort hentry hrest =>
      -- The path ended at a free name: now the file has that name.
      cases h
      obtain ⟨others, hother, -⟩ := hpair.directory hwritten hdirectory
      obtain rfl : rest = [] := List.isEmpty_iff.1 hrest
      have hnew := hwritten.here
      rw [Landing.place, ← hpair.names, hpair.other_leads.descend?_concat hother] at hnew
      refine ⟨(name, .file content) :: other, ?_, rfl⟩
      rw [follow]
      simp only [hother, hdot, hup, hshort, hnew, if_false]
      rw [follow]
  | case7 links trail name rest entries hdirectory _ _ _ target hentry hlast =>
      simp at hlast
  | case9 trail name rest entries hdirectory hdot hup hshort target hentry hlast links ih =>
      obtain ⟨others, hother, hentries⟩ := hpair.directory hwritten hdirectory
      obtain ⟨new, hnew, hkind⟩ := hentries name _ hentry
      cases hkind
      rw [follow]
      simp only [hother, hdot, hup, hshort, hnew, if_false, Bool.not_true, Bool.and_false,
        Bool.false_eq_true]
      refine ih ?_ h
      split
      · exact ⟨.start, .start, rfl⟩
      · exact hpair
  | case10 links trail name rest entries hdirectory hdot hup hshort node hlink hentry ih =>
      obtain ⟨others, hother, hentries⟩ := hpair.directory hwritten hdirectory
      obtain ⟨new, hnew, hkind⟩ := hentries name node hentry
      obtain ⟨found, hfound, hfile⟩ := ih (hpair.step hdirectory hother hentry hnew) h
      refine ⟨found, ?_, hfile⟩
      rw [← hfound, follow]
      simp only [hother, hdot, hup, hshort, hnew, if_false]
      cases hkind with
      | file => rfl
      | link target => exact absurd rfl (hlink target)
      | directory => rfl

/-- A trail through names that lead somewhere has these names. -/
theorem names_trailOf
    {root node : Node}
    {names : List String}
    (h : root.descend? names = some node) :
    Trail.names (trailOf root names) = names := by
  suffices hfold :
      ∀ trail, (nodeAt root trail).descend? names = some node →
        Trail.names (names.foldl (enter root) trail) = trail.names ++ names from
    hfold [] h
  clear h
  induction names with
  | nil =>
      exact fun trail _ => (List.append_nil _).symm
  | cons name rest ih =>
      intro trail h
      cases hreached : nodeAt root trail with
      | file file =>
          rw [hreached] at h
          cases h
      | link target =>
          rw [hreached] at h
          cases h
      | directory entries =>
          rw [hreached] at h
          obtain ⟨child, hchild, hrest⟩ := Option.bind_eq_some_iff.1 h
          have henter : enter root trail name = (name, child) :: trail := by
            rw [enter, hreached]
            dsimp only
            rw [hchild]
          rw [List.foldl_cons, henter, ih ((name, child) :: trail) hrest, Trail.names_cons,
            List.append_assoc, List.singleton_append]

end Following

section Writing

variable {fs changed : FileSystem}
variable {path : String}
variable {content : File}

/-- A path starts at the same place before and after a file was written. -/
theorem startOf_written
    {place : List String}
    {start : Trail}
    (hwritten : Written fs.root changed.root place content)
    (hworking : changed.workingDirectory = fs.workingDirectory)
    (h : fs.startOf path = .ok start) :
    ∃ other, changed.startOf path = .ok other ∧
      Trail.Pair fs.root changed.root start other := by
  unfold startOf at h ⊢
  split at h
  · next habsolute =>
      cases h
      exact ⟨[], if_pos habsolute, .start, .start, rfl⟩
  · next hrelative =>
      rw [if_neg hrelative]
      unfold workingTrail at h ⊢
      split at h
      · next entries hthere =>
          cases h
          obtain ⟨new, hnew, hkind⟩ := hwritten.same _ _ hthere
          cases hkind with
          | directory _ others =>
              rw [hworking, hnew]
              refine ⟨_, rfl, leads_trailOf _ _, leads_trailOf _ _, ?_⟩
              rw [names_trailOf hthere, names_trailOf hnew]
      · cases h

/-- A path that leads somewhere is followed from where it starts. -/
theorem exists_follow_of_land
    {followLast : Bool}
    {landing : Landing}
    (h : fs.land path followLast = .ok landing) :
    ∃ start, fs.startOf path = .ok start ∧
      follow fs.root followLast linkLimit start (stepsOf path) = .ok landing := by
  obtain ⟨hpath, hfits⟩ := fits_of_land h
  rw [land_of_fits hpath hfits] at h
  split at h
  · next start hstart => exact ⟨start, hstart, h⟩
  · cases h

/-- A path that leads to the place of a written file names that file. -/
theorem node_of_written
    {landing : Landing}
    (hwritten : Written fs.root changed.root landing.place content)
    (hworking : changed.workingDirectory = fs.workingDirectory)
    (h : fs.land path true = .ok landing) :
    changed.node path = .ok (.file content) := by
  obtain ⟨hpath, hfits⟩ := fits_of_land h
  obtain ⟨start, hstart, hfollow⟩ := exists_follow_of_land h
  obtain ⟨other, hother, hpair⟩ := startOf_written hwritten hworking hstart
  obtain ⟨found, hfound, hfile⟩ := follow_written hwritten hpair hfollow
  refine node_eq_ok_iff.2 ⟨found, trail_eq_ok_iff.2 ?_, hfile⟩
  rw [land_of_fits hpath hfits, hother]
  exact hfound

/-- A free name is free in a directory. -/
theorem directory_of_vacant
    {root : Node}
    {links : Nat}
    {trail directory : Trail}
    {steps : List String}
    {name : String}
    (h : follow root true links trail steps = .ok (.vacant directory name)) :
    ∃ entries, nodeAt root directory = .directory entries ∧ Node.find? name entries = none := by
  fun_induction follow root true links trail steps with
  | case1 | case4 | case6 | case7 | case8 | case11 =>
      cases h
  | case2 | case3 | case9 | case10 =>
      rename_i ih
      exact ih h
  | case5 links trail name rest entries hdirectory _ _ _ hentry _ =>
      cases h
      exact ⟨entries, hdirectory, hentry⟩

/-- What is put under a name of a directory, in the place of a file or of nothing, is written. -/
theorem written_put
    {directory : Trail}
    {entries : List (String × Node)}
    {name : String}
    (hleads : Trail.Leads fs.root directory)
    (hdirectory : nodeAt fs.root directory = .directory entries)
    (hfree : ∀ old, Node.find? name entries = some old → ∃ file, old = .file file) :
    Written fs.root (fs.put directory name (.file content) trivial).root
      (directory.names ++ [name]) content where
  same _ _ hnode := Node.descend?_put (hdirectory ▸ hleads.descend?) hfree hnode
  here := Node.descend?_put_self (hdirectory ▸ hleads.descend?)

/-- No file is written at a path that asks for a directory. -/
theorem not_endsWithSlash_of_write
    {bytes : List UInt8}
    (h : fs.write path bytes = .ok changed) :
    Path.endsWithSlash path = false := by
  cases hslash : Path.endsWithSlash path with
  | false => rfl
  | true =>
      rw [write, if_pos hslash] at h
      split at h
      · cases h
      · cases h
      · next above _ _ =>
          cases htrail : fs.trail above with
          | error fault =>
              rw [htrail] at h
              cases h
          | ok trail =>
              rw [htrail] at h
              cases h

/-- A file that was written is found by its path, with the bytes that were written. -/
theorem node_of_write
    {bytes : List UInt8}
    (h : fs.write path bytes = .ok changed) :
    ∃ content, changed.node path = .ok (.file content) ∧ content.bytes = bytes := by
  have hslash := not_endsWithSlash_of_write h
  rw [write, if_neg (by rw [hslash]; decide)] at h
  cases hland : fs.land path true with
  | error fault =>
      rw [hland] at h
      cases h
  | ok landing =>
      rw [hland] at h
      have hleads := leads_land hland
      cases landing with
      | vacant directory name =>
          cases h
          obtain ⟨start, -, hfollow⟩ := exists_follow_of_land hland
          obtain ⟨entries, hdirectory, hnone⟩ := directory_of_vacant hfollow
          refine ⟨_, node_of_written (written_put hleads hdirectory ?_) ?_ hland, rfl⟩
          · intro old hold
            rw [hnone] at hold
            cases hold
          · rfl
      | found trail =>
          cases hleads with
          | start => cases h
          | @step directory entries name node hdirectory hentry htrail =>
              cases node with
              | link target => cases h
              | directory inner => cases h
              | file file =>
                  cases h
                  refine ⟨{ file with bytes }, node_of_written ?_ ?_ hland, rfl⟩
                  · rw [Landing.place, Trail.names_cons]
                    refine written_put htrail hdirectory fun old hold => ⟨file, ?_⟩
                    exact Option.some.inj (hold.symm.trans hentry)
                  · rfl

/-- Whether a file can be written does not depend on what is written, and neither does the fault. -/
theorem write_error_congr
    {bytes : List UInt8}
    {fault : IoFault}
    (h : fs.write path bytes = .error fault)
    (others : List UInt8) :
    fs.write path others = .error fault := by
  unfold write at h ⊢
  split at h
  · next hslash =>
      rw [if_pos hslash]
      exact h
  · next hslash =>
      rw [if_neg hslash]
      cases hland : fs.land path true with
      | error _ =>
          rw [hland] at h
          exact h
      | ok landing =>
          rw [hland] at h
          cases landing with
          | vacant directory name => cases h
          | found trail =>
              rcases trail with _ | ⟨⟨name, _ | _ | _⟩, directory⟩
              · exact h
              · cases h
              · exact h
              · exact h

end Writing

end FileSystem

end SkillAudit
