import SkillAudit.FileSystem.Update
import SkillAudit.Machine
import SkillAudit.Shell.Word
import SkillAudit.Text.Bytes
import SkillAudit.Text.Numeral

/-!
# Shell sessions

The state of a shell while it runs a script: the machine, the variables and functions, what is done
on signals, and where its descriptors lead.  A descriptor leads to a channel, which several
descriptors may share, so that what one of them reads or writes moves the others too.
-/

namespace SkillAudit
namespace Shell

/-- Whether and how a script goes on. -/
inductive Flow where
  | running
  /-- Something went wrong that ends the script unless it happened inside a plain command. -/
  | failing
  | exited
  /-- A signal ended the process. -/
  | killed (signal : Nat)
  /-- So many loops are to be left. -/
  | leaving (loops : Nat)
  /-- So many loops are to be left but one, which goes on with its next round. -/
  | skipping (loops : Nat)
  | returning
  deriving DecidableEq, Repr

/-- A variable; it may be marked before it has a value. -/
structure Binding where
  value? : Option (List Char)
  exported : Bool := false
  readOnly : Bool := false

/-- Where a descriptor leads. -/
inductive Channel where
  | nowhere
  /-- A text that is read; a file is told apart, because its readers know where they are in it. -/
  | source (text : List Char) (isFile : Bool)
  /-- What was written, the last character first. -/
  | gathered (backwards : List Char)
  /-- An open file and the place in it that is read or written next. -/
  | file (path : String) (place : Nat) (appends : Bool)

/-- A shell while it runs a script. -/
structure Session where
  machine : Machine
  /-- The number of the process. -/
  process : Nat := 1000
  /-- The number of the next process. -/
  nextProcess : Nat := 1001
  /-- Whether this is a part of its process, to which no signals are sent. -/
  isInner : Bool := false
  /-- The signals that were sent and not yet taken, with the processes to which they were sent. -/
  pending : List (Nat × String) := []
  script : List Char
  arguments : List (List Char) := []
  bindings : List (String × Binding) := []
  functions : List (String × Command) := []
  /-- The variables that each running function covered, with what they were before. -/
  frames : List (List (String × Option Binding)) := []
  /-- What is done on signals and, under the name `EXIT`, at the end. -/
  traps : List (String × List Char) := []
  options : List Char := []
  /-- The number of loops around the current command. -/
  loops : Nat := 0
  line : Nat := 1
  /-- The line up to which the script was read. -/
  readUpTo : Nat := 1
  /-- The command that is named in messages. -/
  speaker? : Option (List Char) := none
  status : Nat := 0
  /-- The status of the last command whose output was taken. -/
  printedStatus : Nat := 0
  /-- The permission bits that new files do not get. -/
  mask : Nat := 0o022
  /-- The working directory as it was asked for. -/
  place : List Char := []
  lastJob? : Option Nat := none
  jobs : List (Nat × Nat) := []
  /-- The number of the next argument that is looked at for options. -/
  optionNext : Nat := 1
  /-- The place of the next option letter in the argument before it. -/
  optionPlace : Nat := 0
  channels : List (Nat × Channel) := []
  /-- The channels of the open descriptors. -/
  wiring : List (Nat × Nat) := []
  flow : Flow := .running

namespace Session

/-- Whether the script goes on with its next command. -/
def runs (session : Session) : Bool :=
  session.flow = .running

/-- The session with a status. -/
def withStatus (session : Session) (status : Nat) : Session :=
  { session with status }

/-- The session after a command that ended with success. -/
def succeeded (session : Session) : Session :=
  session.withStatus 0

/-- The files of the machine. -/
def files (session : Session) : FileSystem :=
  session.machine.files

/-- The session with other files. -/
def withFiles (session : Session) (files : FileSystem) : Session :=
  { session with machine := { session.machine with files } }

/-- Whether an option of the shell is on. -/
def hasOption (session : Session) (letter : Char) : Bool :=
  session.options.contains letter

/-! ## Variables -/

/-- The value of a variable. -/
def bound? (session : Session) (name : String) : Option (List Char) :=
  (session.bindings.lookup name).bind (·.value?)

/-- Put a binding in the place of the one before it, or at the end. -/
def putBinding (name : String) (binding : Binding) :
    List (String × Binding) → List (String × Binding)
  | [] => [(name, binding)]
  | (key, old) :: rest =>
      if key = name then (name, binding) :: rest else (key, old) :: putBinding name binding rest

/-- The session with a binding. -/
def bind (session : Session) (name : String) (binding : Binding) : Session :=
  { session with bindings := putBinding name binding session.bindings }

/-- The session without a binding. -/
def unbind (session : Session) (name : String) : Session :=
  { session with bindings := session.bindings.filter (·.1 != name) }

/-- Set a variable whatever is known of it. -/
def set (session : Session) (name : String) (value : List Char) : Session :=
  let old := (session.bindings.lookup name).getD { value? := none }
  let exported := old.exported || session.hasOption 'a'
  let session :=
    if name = "OPTIND" then
      { session with optionNext := max 1 (Text.Numeral.value 10 value), optionPlace := 0 }
    else
      session
  session.bind name { old with value? := some value, exported }

/-- The session with other arguments, in which no options were looked for yet. -/
def withArguments (session : Session) (arguments : List (List Char)) : Session :=
  { session with arguments, optionNext := 1, optionPlace := 0 }

/-- Whether a variable may not be changed. -/
def isReadOnly (session : Session) (name : String) : Bool :=
  match session.bindings.lookup name with
  | some binding => binding.readOnly
  | none => false

/-- The characters that separate fields. -/
def separators (session : Session) : List Char :=
  (session.bound? "IFS").getD [' ', '\t', '\n']

/-- What stands between the arguments when they are one text. -/
def joiner (session : Session) : List Char :=
  session.separators.take 1

/-- A number as text. -/
def ofNat (n : Nat) : List Char :=
  (toString n).toList

/-- The value of a parameter, unless it is not set. -/
def value? (session : Session) (name : String) : Option (List Char) :=
  match name with
  | "#" => some (ofNat session.arguments.length)
  | "?" => some (ofNat session.status)
  | "$" => some (ofNat session.process)
  | "!" => session.lastJob?.map ofNat
  | "0" => some session.script
  | "-" => some session.options
  | "@" | "*" =>
      if session.arguments.isEmpty then none
      else some (session.joiner.intercalate session.arguments)
  | _ =>
      match name.toNat? with
      | some 0 => some session.script
      | some n => session.arguments[n - 1]?
      | none => session.bound? name

/-- The value of a parameter, empty when it is not set. -/
def value (session : Session) (name : String) : List Char :=
  (session.value? name).getD []

/-- The bucket of a variable among those that are handed on. -/
def bucket (name : String) : Nat :=
  let codes := name.toList.map Char.toNat
  (codes.foldl (· + ·) (codes.headD 0 * 16)) % 39

/-- The variables that are handed on to programs, in the order in which they are told. -/
def environment (session : Session) : List (String × List Char) :=
  let handed := session.bindings.filterMap fun (name, binding) =>
    if binding.exported then binding.value?.map fun value => (name, value) else none
  (List.range 39).flatMap fun n => handed.filter fun entry => bucket entry.1 = n

/-- The directories in which programs are looked for. -/
def searchDirectories (session : Session) : List String :=
  match session.bound? "PATH" with
  | some path => Machine.searchDirectories (Text.shown path)
  | none => []

/-! ## Channels -/

/-- The channel to which a descriptor leads. -/
def channel? (session : Session) (descriptor : Nat) : Option (Nat × Channel) := do
  let id ← session.wiring.lookup descriptor
  let channel ← session.channels.lookup id
  return (id, channel)

/-- The session with a channel changed. -/
def setChannel (session : Session) (id : Nat) (channel : Channel) : Session :=
  { session with
    channels := session.channels.map fun entry => if entry.1 = id then (id, channel) else entry }

/-- The number of the next channel; the channels stand in the order of their numbers, the last one
first. -/
def nextChannel (session : Session) : Nat :=
  match session.channels with
  | (id, _) :: _ => id + 1
  | [] => 0

/-- The session with a new channel, and the number of it. -/
def addChannel (session : Session) (channel : Channel) : Session × Nat :=
  let id := session.nextChannel
  ({ session with channels := (id, channel) :: session.channels }, id)

/-- The session with a descriptor closed. -/
def unwire (session : Session) (descriptor : Nat) : Session :=
  { session with wiring := session.wiring.filter (·.1 != descriptor) }

/-- The session with a descriptor that leads to a channel. -/
def wire (session : Session) (descriptor id : Nat) : Session :=
  let session := session.unwire descriptor
  { session with wiring := (descriptor, id) :: session.wiring }

/-- The session with a descriptor that leads to a new channel. -/
def wireTo (session : Session) (descriptor : Nat) (channel : Channel) : Session :=
  let (session, id) := session.addChannel channel
  session.wire descriptor id

/-- What was written to a channel. -/
def gatheredIn (session : Session) (id : Nat) : List Char :=
  match session.channels.lookup id with
  | some (.gathered backwards) => backwards.reverse
  | _ => []

/-- The bytes of a file after a text was written at a place of it. -/
def overwritten (bytes : List UInt8) (place : Nat) (text : List UInt8) : List UInt8 :=
  bytes.take place ++ List.replicate (place - bytes.length) 0 ++ text ++
    bytes.drop (place + text.length)

/-- Write a text to a descriptor; what is closed or only read takes none. -/
def print (session : Session) (descriptor : Nat) (text : List Char) : Session :=
  match session.channel? descriptor with
  | some (id, .gathered backwards) =>
      session.setChannel id (.gathered (text.reverseAux backwards))
  | some (id, .file path place appends) =>
      match session.files.readBytes path with
      | .error _ => session
      | .ok bytes =>
          let place := if appends then bytes.length else place
          let written := overwritten bytes place (Text.toBytes text)
          let session := session.setChannel id (.file path (place + text.length) appends)
          match session.files.write path written with
          | .ok files => session.withFiles files
          | .error _ => session
  | _ => session

/-- Whether a descriptor is open. -/
def isOpen (session : Session) (descriptor : Nat) : Bool :=
  (session.channel? descriptor).isSome

/-- What can be read from a descriptor. -/
def input (session : Session) (descriptor : Nat) : List Char :=
  match session.channel? descriptor with
  | some (_, .source text _) => text
  | some (_, .file path place _) =>
      match session.files.readBytes path with
      | .ok bytes => Text.ofBytes (bytes.drop place)
      | .error _ => []
  | _ => []

/-- Whether what a descriptor reads is a file. -/
def readsFile (session : Session) (descriptor : Nat) : Bool :=
  match session.channel? descriptor with
  | some (_, .source _ isFile) => isFile
  | some (_, .file _ _ _) => true
  | _ => false

/-- The session after all but a rest was read from a descriptor. -/
def withInputLeft (session : Session) (descriptor : Nat) (rest : List Char) : Session :=
  match session.channel? descriptor with
  | some (id, .source _ isFile) => session.setChannel id (.source rest isFile)
  | some (id, .file path place appends) =>
      let read := (session.input descriptor).length - rest.length
      session.setChannel id (.file path (place + read) appends)
  | _ => session

/-! ## Messages -/

/-- Print a message about the script on standard error. -/
def complain (session : Session) (text : String) : Session :=
  let speaker :=
    match session.speaker? with
    | some name => name ++ [':', ' ']
    | none => []
  session.print 2 <|
    session.script ++ Text.bytesOf ": " ++ ofNat session.line ++ Text.bytesOf ": " ++ speaker ++
      Text.bytesOf text ++ ['\n']

/-- Fail with a message. -/
def fail (session : Session) (text : String) : Session :=
  { session.complain text with status := 2, flow := .failing }

/-- Fail at the line up to which the script was read. -/
def failReading (session : Session) (text : String) : Session :=
  { session with line := session.readUpTo }.fail ("Syntax error: " ++ text)

/-- Set a variable, which fails for one that may not be changed. -/
def assign (session : Session) (name : String) (value : List Char) : Session :=
  if session.isReadOnly name then session.fail (name ++ ": is read only")
  else session.set name value

/-! ## Beginning and end -/

/-- The working directory of the machine. -/
def workingPlace (files : FileSystem) : List Char :=
  Text.bytesOf ("/" ++ Path.ofNames files.workingDirectory)

/-- The variables of a new shell. -/
def firstBindings
    (parent : Nat)
    (environment : List (String × List Char))
    (place : List Char) :
    List (String × Binding) :=
  let plain (name text : String) : String × Binding := (name, { value? := some text.toList })
  let first : List (String × Binding) :=
    [plain "IFS" " \t\n", plain "OPTIND" "1",
      plain "PATH" "/usr/local/sbin:/usr/local/bin:/usr/sbin:/usr/bin:/sbin:/bin",
      ("PPID", { value? := some (ofNat parent) }), plain "PS1" "# ", plain "PS2" "> ",
      plain "PS4" "+ "]
  let given := environment.filter fun (name, _) =>
    isName name.toList && name != "IFS" && name != "OPTIND" && name != "PPID" && name != "PWD"
  let bindings := given.foldl
    (fun bindings (name, value) =>
      putBinding name { value? := some value, exported := true } bindings) first
  putBinding "PWD" { value? := some place, exported := true } bindings

/-- A new shell that reads from nowhere and whose output is gathered: standard output in the first
channel and standard error in the second. -/
def fresh (machine : Machine) (name : List Char) : Session :=
  let environment := machine.environment.map fun (name, value) => (name, Text.bytesOf value)
  let place := workingPlace machine.files
  { machine
    script := name
    place
    bindings := firstBindings 999 environment place
    channels := [(2, .gathered []), (1, .gathered []), (0, .nowhere)]
    wiring := [(0, 0), (1, 1), (2, 2)] }

/-- A session inside another one: what it changes is its own, but for files and channels.  Signals
that are not ignored are as at the start. -/
def inner (session : Session) : Session :=
  { session with
    isInner := true
    traps := session.traps.filter (·.2.isEmpty)
    jobs := []
    flow := .running }

/-- What a session inside another one leaves to it: the files, what was written and read, and the
signals that were sent. -/
def inherit (outer inside : Session) : Session :=
  let files :=
    { inside.files with workingDirectory := outer.files.workingDirectory }
  { outer.withFiles files with
    channels := inside.channels.filter (·.1 < outer.nextChannel)
    nextProcess := inside.nextProcess
    pending := inside.pending
    status := inside.status }

/-- The outer session after a part of the same process was run to its end. -/
def resume (outer inside : Session) : Session :=
  let outer := outer.inherit inside
  match inside.flow with
  | .killed signal => { outer with flow := .killed signal }
  | _ => outer

/-- A new shell that is started from a session with variables of its own; it has the same
channels. -/
def child
    (session : Session)
    (environment : List (String × List Char))
    (name : List Char) :
    Session :=
  { session with
    process := session.nextProcess
    nextProcess := session.nextProcess + 1
    isInner := false
    script := name
    arguments := []
    place := workingPlace session.files
    bindings := firstBindings session.process environment (workingPlace session.files)
    functions := []
    frames := []
    traps := session.traps.filter (·.2.isEmpty)
    options := []
    loops := 0
    line := 1
    readUpTo := 1
    speaker? := none
    status := 0
    printedStatus := 0
    lastJob? := none
    jobs := []
    optionNext := 1
    optionPlace := 0
    flow := .running }

end Session
end Shell
end SkillAudit
