import SkillAudit.Shell.Session
import SkillAudit.Text.Numeral

/-!
# Redirections

Where a descriptor leads after a redirection.  A few paths stand for the open descriptors
themselves, and one stands for a place where everything vanishes.
-/

namespace SkillAudit
namespace Shell

/-- The descriptor for which a path stands. -/
def standingDescriptor? (path : String) : Option Nat :=
  match path with
  | "/dev/stdin" => some 0
  | "/dev/stdout" => some 1
  | "/dev/stderr" => some 2
  | _ =>
      match List.isPrefixOf? "/dev/fd/".toList path.toList with
      | some digits => (String.ofList digits).toNat?
      | none => none

/-- What a redirection does with a file. -/
inductive Access where
  | reads
  | writes (appends clobbers : Bool)
  | both
  deriving DecidableEq, Repr

/-- How a fault of a redirection is told. -/
def Access.complaint (access : Access) (path : List Char) (fault : IoFault) : String :=
  let shown := Text.shown path
  match access, fault with
  | .reads, .notFound | .reads, .notADirectory => "cannot open " ++ shown ++ ": No such file"
  | .reads, _ => "cannot open " ++ shown ++ ": " ++ fault.reason
  | _, .notFound | _, .notADirectory =>
      "cannot create " ++ shown ++ ": Directory nonexistent"
  | _, _ => "cannot create " ++ shown ++ ": " ++ fault.reason

namespace Session

/-- The channel for the file that a path names, which is there. -/
def fileChannel (files : FileSystem) (path : String) (appends : Bool) : Except IoFault Channel :=
  match files.canonical path with
  | .error fault => .error fault
  | .ok names =>
      if names = ["dev", "null"] then .ok .nowhere
      else if files.isFile path then
        .ok (.file ("/" ++ Path.ofNames names) 0 appends)
      else
        .ok .nowhere

/-- Whether a path leads to a file that keeps what is written to it. -/
def isPlainFile (files : FileSystem) (path : String) : Bool :=
  files.isFile path && (files.canonical path).toOption != some ["dev", "null"]

/-- The files with an empty file at a path, which keeps its permissions if it was there before. -/
def makeEmpty (session : Session) (path : String) : Except IoFault FileSystem := do
  let files ← session.files.write path []
  if session.files.isFile path then return files
  else files.setMode path (0o666 - (0o666 &&& session.mask))

/-- Open a file for a descriptor. -/
def openFile (session : Session) (descriptor : Nat) (access : Access) (path : List Char) :
    Except IoFault Session := do
  let shown := Text.shown path
  let connect (files : FileSystem) (appends : Bool) : Except IoFault Session := do
    return (session.withFiles files).wireTo descriptor (← fileChannel files shown appends)
  match standingDescriptor? shown with
  | some other =>
      match session.wiring.lookup other with
      | some id => return session.wire descriptor id
      | none => .error .notFound
  | none =>
      match access with
      | .reads =>
          match session.files.node shown with
          | .ok (.file file) =>
              if file.readable then connect session.files false else .error .permissionDenied
          | .ok _ => connect session.files false
          | .error fault => .error fault
      | .writes appends clobbers =>
          if session.files.isDirectory shown then
            .error .isADirectory
          else if !clobbers && session.hasOption 'C' && isPlainFile session.files shown then
            .error .alreadyExists
          else if appends && session.files.isFile shown then
            connect session.files true
          else
            connect (← session.makeEmpty shown) appends
      | .both =>
          if session.files.isFile shown then connect session.files false
          else connect (← session.makeEmpty shown) false

/-- Whether a word names an open descriptor or says that there is to be none. -/
def namesDescriptor (word : List Char) : Bool :=
  match word with
  | [c] => c = '-' || c.isDigit
  | _ => false

/-- Let a descriptor lead to where another one leads, which a word names, or nowhere at all. -/
def duplicate (session : Session) (descriptor : Nat) (word : List Char) :
    Except String Session :=
  if word = ['-'] then
    .ok (session.unwire descriptor)
  else
    match session.wiring.lookup (Text.Numeral.value 10 word) with
    | some id => .ok (session.wire descriptor id)
    | none => .error (Text.shown word ++ ": Bad file descriptor")

/-- The session with the descriptors of some redirections as they were before.  The channels that
were opened since then are forgotten, unless a descriptor still leads to them. -/
def rewire (session before : Session) (redirections : List Redirection) : Session :=
  let descriptorOf : Redirection → Nat
    | .duplicate descriptor _ | .readFrom descriptor _ | .writeTo descriptor _ _ _
    | .readAndWrite descriptor _ | .content descriptor _ => descriptor
  let changed := redirections.map descriptorOf
  let kept := session.wiring.filter fun wire => !changed.contains wire.1
  let restored := before.wiring.filter fun wire => changed.contains wire.1
  let wiring := restored ++ kept
  { session with
    wiring
    channels := session.channels.filter fun channel =>
      channel.1 < before.nextChannel || wiring.any (·.2 = channel.1) }

end Session
end Shell
end SkillAudit
