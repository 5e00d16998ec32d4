import SkillAudit.FileSystem.Fault
import SkillAudit.FileSystem.Tree
import SkillAudit.Path
import SkillAudit.Text.Utf8

/-!
# Resolving paths

A path is followed name by name from the root or from the working directory; from a working
directory that was removed it leads nowhere.  Links on the way are followed, at most forty of them;
the last one only on request.  What is reached is known by the names from the root down to it, so
two spellings of one place resolve to equal names.

* `leads_land`: a path leads from the root through directories, whatever links it passes.
* `ordered_of_node`: what a path names is ordered.
-/

namespace SkillAudit

/-- A file tree with a working directory, given by its names from the root. -/
structure FileSystem where
  root : Node
  workingDirectory : List String
  /-- The entries of each directory have different names and stand in their order. -/
  ordered : root.Ordered

namespace FileSystem

/-- The way to a place: the nodes passed with their names, the last one first. -/
abbrev Trail := List (String × Node)

/-- The names of a trail from the root down. -/
def Trail.names (trail : Trail) : List String :=
  (trail.map (·.1)).reverse

/-- Where a path leads: to a node, or to a free name in a directory. -/
inductive Landing where
  | found (trail : Trail)
  | vacant (directory : Trail) (name : String)

/-- The trail of a landing. -/
def Landing.trail : Landing → Trail
  | .found trail => trail
  | .vacant directory _ => directory

/-- How many links one path may pass. -/
def linkLimit : Nat := 40

/-- How many bytes a name may have. -/
def nameLimit : Nat := 255

/-- How many bytes a path may have. -/
def pathLimit : Nat := 4095

/-- The names to follow; a slash at the end asks for a directory. -/
def stepsOf (path : String) : List String :=
  (Path.pieces path).filter (· != "") ++ if Path.endsWithSlash path then ["."] else []

/-- The node at the end of a trail. -/
def nodeAt (root : Node) : Trail → Node
  | [] => root
  | (_, node) :: _ => node

/-- Follow the names from the end of a trail. -/
def follow (root : Node) (followLast : Bool) :
    (links : Nat) → Trail → List String → Except IoFault Landing
  | _, trail, [] => .ok (.found trail)
  | links, trail, name :: rest =>
      match nodeAt root trail with
      | .directory entries =>
          if name = "." then
            follow root followLast links trail rest
          else if name = ".." then
            follow root followLast links trail.tail rest
          else if nameLimit < name.utf8ByteSize then
            .error .nameTooLong
          else
            match Node.find? name entries with
            | none =>
                if rest.isEmpty then .ok (.vacant trail name) else .error .notFound
            | some (.link target) =>
                if rest.isEmpty && !followLast then
                  .ok (.found ((name, .link target) :: trail))
                else
                  match links with
                  | 0 => .error .tooManyLinks
                  | links + 1 =>
                      follow root followLast links
                        (if Path.isAbsolute target then [] else trail)
                        (stepsOf target ++ rest)
            | some node => follow root followLast links ((name, node) :: trail) rest
      | _ => .error .notADirectory
  termination_by links _ steps => (links, steps.length)

/-- Go one name further along a trail, if the node at its end is a directory with that name. -/
def enter (root : Node) (trail : Trail) (name : String) : Trail :=
  match nodeAt root trail with
  | .directory entries =>
      match Node.find? name entries with
      | some child => (name, child) :: trail
      | none => trail
  | _ => trail

/-- The trail that leads through these names. -/
def trailOf (root : Node) (names : List String) : Trail :=
  names.foldl (enter root) []

/-- The trail to the working directory, as long as it is there. -/
def workingTrail (fs : FileSystem) : Except IoFault Trail :=
  match fs.root.descend? fs.workingDirectory with
  | some (.directory _) => .ok (trailOf fs.root fs.workingDirectory)
  | _ => .error .notFound

/-- Where the names of a path start: at the root, or in the working directory. -/
def startOf (fs : FileSystem) (path : String) : Except IoFault Trail :=
  if Path.isAbsolute path then .ok [] else fs.workingTrail

@[simp] theorem startOf_of_isAbsolute
    {fs : FileSystem}
    {path : String}
    (h : Path.isAbsolute path = true) :
    fs.startOf path = .ok [] :=
  if_pos h

/-- Where a path leads, with the links on the way followed. -/
def land (fs : FileSystem) (path : String) (followLast : Bool) : Except IoFault Landing :=
  if path.toList.contains '\x00' then .error .nulInName
  else if path = "" then .error .notFound
  else if pathLimit < path.utf8ByteSize then .error .nameTooLong
  else
    match fs.startOf path with
    | .ok start => follow fs.root followLast linkLimit start (stepsOf path)
    | .error fault => .error fault

/-- The trail to the place that a path names. -/
def trail (fs : FileSystem) (path : String) : Except IoFault Trail :=
  match fs.land path true with
  | .ok (.found found) => .ok found
  | .ok (.vacant _ _) => .error .notFound
  | .error fault => .error fault

/-- The node that a path names. -/
def node (fs : FileSystem) (path : String) : Except IoFault Node :=
  (fs.trail path).map (nodeAt fs.root)

/-- The names from the root down to the place that a path names.  There is no limit on the path that
they make: what can be reached can be resolved, also where the resolved path is longer than any that
can be handed over. -/
def canonical (fs : FileSystem) (path : String) : Except IoFault (List String) :=
  (fs.trail path).map Trail.names

/-- Whether the path names something, links followed. -/
def pathExists (fs : FileSystem) (path : String) : Bool :=
  (fs.trail path).toBool

/-- Whether the path names a regular file, links followed. -/
def isFile (fs : FileSystem) (path : String) : Bool :=
  match fs.node path with
  | .ok (.file _) => true
  | _ => false

/-- Whether the path names a directory, links followed. -/
def isDirectory (fs : FileSystem) (path : String) : Bool :=
  match fs.node path with
  | .ok (.directory _) => true
  | _ => false

/-- Whether the path names a regular file with an execute bit, links followed. -/
def isExecutable (fs : FileSystem) (path : String) : Bool :=
  match fs.node path with
  | .ok (.file file) => file.isExecutable
  | _ => false

/-- The bytes of the file that a path names. -/
def readBytes (fs : FileSystem) (path : String) : Except IoFault (List UInt8) :=
  match fs.node path with
  | .ok (.file file) => if file.readable then .ok file.bytes else .error .permissionDenied
  | .ok _ => .error .isADirectory
  | .error fault => .error fault

/-- The text of the file that a path names; bytes that are no text are a fault. -/
def readText (fs : FileSystem) (path : String) : Except IoFault String :=
  match fs.readBytes path with
  | .ok bytes =>
      match Text.Utf8.decode? bytes with
      | some text => .ok text
      | none => .error .notText
  | .error fault => .error fault

/-- The trail leads from the root through directories, each node under its name in the one
before it. -/
inductive Trail.Leads (root : Node) : Trail → Prop
  | start : Leads root []
  | step
      {trail : Trail}
      {entries : List (String × Node)}
      {name : String}
      {node : Node}
      (hdirectory : nodeAt root trail = .directory entries)
      (hentry : Node.find? name entries = some node)
      (htrail : Leads root trail) :
      Leads root ((name, node) :: trail)

/-- The trail to the directory above leads there too. -/
theorem Trail.Leads.tail
    {root : Node}
    {trail : Trail}
    (h : Trail.Leads root trail) :
    Trail.Leads root trail.tail := by
  cases h with
  | start => exact .start
  | step _ _ htrail => exact htrail

/-- What is reached from an ordered root is ordered. -/
theorem Trail.Leads.ordered
    {root : Node}
    (hroot : root.Ordered)
    {trail : Trail}
    (h : Trail.Leads root trail) :
    (nodeAt root trail).Ordered := by
  induction h with
  | start => exact hroot
  | step hdirectory hentry htrail ih =>
      rw [hdirectory] at ih
      exact (Node.ordered_directory.1 ih).2 _ (Node.mem_of_find? hentry)

/-- Following names from a trail gives a trail again. -/
theorem leads_follow
    {root : Node}
    {followLast : Bool}
    {links : Nat}
    {trail : Trail}
    {steps : List String}
    {landing : Landing}
    (htrail : Trail.Leads root trail)
    (h : follow root followLast links trail steps = .ok landing) :
    Trail.Leads root landing.trail := by
  fun_induction follow root followLast links trail steps with
  | case1 links trail =>
      cases h
      exact htrail
  | case2 links trail rest entries hdirectory ih =>
      exact ih htrail h
  | case3 links trail rest entries hdirectory hdot ih =>
      exact ih htrail.tail h
  | case4 | case6 | case8 | case11 =>
      cases h
  | case5 =>
      cases h
      exact htrail
  | case7 links trail name rest entries hdirectory _ _ _ target hentry _ =>
      cases h
      exact .step hdirectory hentry htrail
  | case9 trail name rest entries hdirectory _ _ _ target hentry _ links ih =>
      refine ih ?_ h
      split
      · exact .start
      · exact htrail
  | case10 links trail name rest entries hdirectory _ _ _ node _ hentry ih =>
      exact ih (.step hdirectory hentry htrail) h

/-- Going one name further gives a trail again. -/
theorem Trail.Leads.enter
    {root : Node}
    {trail : Trail}
    (h : Trail.Leads root trail)
    (name : String) :
    Trail.Leads root (enter root trail name) := by
  unfold FileSystem.enter
  split
  · next hdirectory =>
      split
      · next hentry =>
          exact .step hdirectory hentry h
      · exact h
  · exact h

/-- The trail through names leads through the directories of these names. -/
theorem leads_trailOf
    (root : Node)
    (names : List String) :
    Trail.Leads root (trailOf root names) := by
  suffices hfold :
      ∀ trail, Trail.Leads root trail → Trail.Leads root (names.foldl (enter root) trail) from
    hfold [] .start
  induction names with
  | nil =>
      exact fun _ h => h
  | cons name rest ih =>
      exact fun trail h => ih (FileSystem.enter root trail name) (h.enter name)

theorem leads_startOf
    {fs : FileSystem}
    {path : String}
    {start : Trail}
    (h : fs.startOf path = .ok start) :
    Trail.Leads fs.root start := by
  unfold startOf workingTrail at h
  split at h
  · cases h
    exact .start
  · split at h
    · cases h
      exact leads_trailOf _ _
    · cases h

/-- A path leads from the root through directories. -/
theorem leads_land
    {fs : FileSystem}
    {path : String}
    {followLast : Bool}
    {landing : Landing}
    (h : fs.land path followLast = .ok landing) :
    Trail.Leads fs.root landing.trail := by
  unfold land at h
  split at h
  · cases h
  · split at h
    · cases h
    · split at h
      · cases h
      · split at h
        · next hstart =>
            exact leads_follow (leads_startOf hstart) h
        · cases h

/-- The trail to what a path names leads there from the root through directories. -/
theorem leads_of_trail
    {fs : FileSystem}
    {path : String}
    {trail : Trail}
    (h : fs.trail path = .ok trail) :
    Trail.Leads fs.root trail := by
  unfold FileSystem.trail at h
  split at h
  · next found hland =>
      cases h
      exact leads_land hland
  · cases h
  · cases h

/-- What a path names is ordered. -/
theorem ordered_of_node
    {fs : FileSystem}
    {path : String}
    {node : Node}
    (h : fs.node path = .ok node) :
    node.Ordered := by
  unfold FileSystem.node at h
  cases htrail : fs.trail path with
  | error fault =>
      rw [htrail] at h
      cases h
  | ok trail =>
      rw [htrail] at h
      cases h
      exact (leads_of_trail htrail).ordered fs.ordered

/-- The node at the end of a trail that is found is ordered. -/
theorem ordered_of_land
    {fs : FileSystem}
    {path name : String}
    {followLast : Bool}
    {node : Node}
    {directory : Trail}
    (h : fs.land path followLast = .ok (.found ((name, node) :: directory))) :
    node.Ordered :=
  (leads_land h).ordered fs.ordered

end FileSystem
end SkillAudit
