import SkillAudit.Machine.Start
import SkillAudit.Program.Condition
import SkillAudit.Program.Files
import SkillAudit.Program.Printing
import SkillAudit.Shell.Input
import SkillAudit.Shell.Setting

/-!
# Commands of the shell itself

The commands that need no other command to run.  Each takes its arguments and gives the session
after it.  A command that fails with a message ends the script when it is one of the special ones.
-/

namespace SkillAudit
namespace Shell

/-- The commands whose mistakes end a script. -/
def specialNames : List String :=
  [".", ":", "break", "continue", "eval", "exec", "exit", "export", "local", "readonly", "return",
    "set", "shift", "times", "trap", "unset"]

/-- The other commands of the shell itself. -/
def plainNames : List String :=
  ["[", "alias", "bg", "cd", "chdir", "command", "echo", "false", "fc", "fg", "getopts", "hash",
    "jobs", "kill", "printf", "pwd", "read", "test", "true", "type", "ulimit", "umask", "unalias",
    "wait"]

/-- The commands whose words set variables, so that values in them are not split. -/
def settingNames : List String :=
  ["alias", "export", "local", "readonly"]

/-- The number that a word is. -/
def amount? (word : List Char) : Option Nat :=
  if word.isEmpty || !word.all Char.isDigit then none
  else
    let n := Text.Numeral.value 10 word
    if n < Nat.pow 2 31 then some n else none

/-- Go on with the number in the first argument, if there is one, or fail. -/
def withAmount
    (session : Session)
    (arguments : List (List Char))
    (act : Option Nat → Session) :
    Session :=
  match arguments with
  | [] => act none
  | word :: _ =>
      match amount? word with
      | some n => act (some n)
      | none => session.fail ("Illegal number: " ++ Text.shown word)

/-- Print arguments that are joined with blanks. -/
def echoCommand (session : Session) (arguments : List (List Char)) : Session :=
  let (ended, words) :=
    match arguments with
    | ['-', 'n'] :: rest => (false, rest)
    | _ => (true, arguments)
  session.succeeded.print 1 (Program.joinedLine true false ended words)

/-- Print arguments by a format. -/
def printfCommand (session : Session) (arguments : List (List Char)) : Session :=
  let result := Program.printfResult arguments
  let session := result.complaints.foldl Session.complain session
  (session.withStatus result.status).print 1 result.text

/-- Tell by the status whether a condition holds. -/
def testCommand (name : String) (session : Session) (arguments : List (List Char)) : Session :=
  match Program.conditionResult session.files name.toList arguments with
  | .ok true => session.withStatus 0
  | .ok false => session.withStatus 1
  | .error fault => session.fail fault.reason

/-- Leave loops, or go on with a round of one. -/
def leaveLoops
    (flow : Nat → Flow)
    (session : Session)
    (arguments : List (List Char)) :
    Session :=
  withAmount session arguments fun n =>
    match n.getD 1 with
    | 0 => session.fail "Illegal number: 0"
    | n =>
        let n := min n session.loops
        if n = 0 then session.succeeded else { session with status := 0, flow := flow n }

/-- Drop arguments of the script. -/
def shiftCommand (session : Session) (arguments : List (List Char)) : Session :=
  withAmount session arguments fun n =>
    let n := n.getD 1
    if session.arguments.length < n then session.fail "can't shift that many"
    else session.succeeded.withArguments (session.arguments.drop n)

/-- Wait for commands that were started in the background. -/
def waitCommand (session : Session) (arguments : List (List Char)) : Session :=
  arguments.foldl
    (fun session word =>
      if !session.runs then
        session
      else if word.head? = some '%' then
        session.fail ("No such job: " ++ Text.shown word)
      else
        withAmount session [word] fun n =>
          session.withStatus ((session.jobs.lookup (n.getD 0)).getD 127))
    session.succeeded

/-- Show or set the bits that new files do not get. -/
def maskCommand (session : Session) (arguments : List (List Char)) : Session :=
  withFlags session "S" arguments fun flags words =>
    match words with
    | [] =>
        let given := 0o777 - session.mask
        let letters (n : Nat) : String :=
          (if n / 4 % 2 = 1 then "r" else "") ++ (if n / 2 % 2 = 1 then "w" else "") ++
            (if n % 2 = 1 then "x" else "")
        let digits := Text.Numeral.inRadix 8 session.mask
        session.succeeded.print 1 <|
          if flags.isEmpty then List.replicate (4 - digits.length) '0' ++ digits ++ ['\n']
          else
            Text.bytesOf <|
              "u=" ++ letters (given / 64) ++ ",g=" ++ letters (given / 8) ++ ",o=" ++
                letters given ++ "\n"
    | word :: _ =>
        if word.all Char.isDigit then
          if word.all (Text.Numeral.isDigitOf 8) then
            { session.succeeded with mask := Text.Numeral.value 8 word % 0o1000 }
          else
            session.fail ("Illegal number: " ++ Text.shown word)
        else
          match Program.readMode (0o777 - session.mask) word with
          | some given => { session.succeeded with mask := 0o777 - given }
          | none => session.fail ("Illegal mode: " ++ Text.shown word)

/-- Show a limit, of which there is none, or set one. -/
def limitCommand (session : Session) (arguments : List (List Char)) : Session :=
  withFlags session "HSatfdscmlpnvwr" arguments fun _ words =>
    if words.isEmpty then session.succeeded.print 1 (Text.bytesOf "unlimited\n")
    else session.succeeded

/-! ## Telling what a name is -/

/-- The path on which a program of this name is found. -/
def programPath? (session : Session) (name : List Char) : Option String :=
  (Machine.candidates session.searchDirectories (Text.shown name)).find? session.files.isExecutable

/-- What a name is, in words. -/
def description? (session : Session) (name : List Char) : Option String :=
  let text := Text.shown name
  if reservedWords.contains text then some (text ++ " is a shell keyword")
  else if specialNames.contains text then some (text ++ " is a special shell builtin")
  else if session.functions.any (·.1 = text) then some (text ++ " is a shell function")
  else if plainNames.contains text then some (text ++ " is a shell builtin")
  else (programPath? session name).map fun path => text ++ " is " ++ path

/-- How a name would be called. -/
def callName? (session : Session) (name : List Char) : Option String :=
  let text := Text.shown name
  if reservedWords.contains text || specialNames.contains text ||
      session.functions.any (·.1 = text) || plainNames.contains text then
    some text
  else
    programPath? session name

/-- Tell what names are. -/
def describeNames (session : Session) (names : List (List Char)) : Session :=
  names.foldl
    (fun session name =>
      match description? session name with
      | some text => session.print 1 (Text.bytesOf (text ++ "\n"))
      | none => (session.print 1 (name ++ Text.bytesOf ": not found\n")).withStatus 127)
    session.succeeded

/-- Tell how a name would be called. -/
def tellCallName (session : Session) (names : List (List Char)) : Session :=
  match names with
  | [] => session.succeeded
  | name :: _ =>
      match callName? session name with
      | some text => session.succeeded.print 1 (Text.bytesOf (text ++ "\n"))
      | none => session.withStatus 127

/-- Look programs up. -/
def hashCommand (session : Session) (arguments : List (List Char)) : Session :=
  withFlags session "rv" arguments fun _ words =>
    words.foldl
      (fun session name =>
        if (callName? session name).isSome then session
        else (session.complain (Text.shown name ++ ": not found")).withStatus 1)
      session.succeeded

/-! ## The table -/

/-- The command of the shell itself that has a name and runs no other command. -/
def builtin? (name : String) : Option (Session → List (List Char) → Session) :=
  match name with
  | ":" | "true" | "alias" | "unalias" | "jobs" => some fun session _ => session.succeeded
  | "false" => some fun session _ => session.withStatus 1
  | "echo" => some echoCommand
  | "printf" => some printfCommand
  | "test" | "[" => some (testCommand name)
  | "exit" => some fun session arguments =>
      withAmount session arguments fun n =>
        { session with status := n.getD session.status % 256, flow := .exited }
  | "return" => some fun session arguments =>
      withAmount session arguments fun n =>
        { session with status := n.getD session.status % 256, flow := .returning }
  | "break" => some (leaveLoops .leaving)
  | "continue" => some (leaveLoops .skipping)
  | "shift" => some shiftCommand
  | "set" => some setCommand
  | "export" => some exportCommand
  | "readonly" => some readOnlyCommand
  | "local" => some localCommand
  | "unset" => some unsetCommand
  | "read" => some readInput
  | "getopts" => some optionsCommand
  | "kill" => some killCommand
  | "trap" => some trapCommand
  | "cd" | "chdir" => some changeDirectory
  | "pwd" => some showPlace
  | "wait" => some waitCommand
  | "umask" => some maskCommand
  | "ulimit" => some limitCommand
  | "times" => some fun session _ =>
      session.succeeded.print 1 <| Text.bytesOf
        "0m0.000000s 0m0.000000s\n0m0.000000s 0m0.000000s\n"
  | "fg" | "bg" => some fun session _ => session.fail "No current job"
  | "type" => some describeNames
  | "hash" => some hashCommand
  | _ => none

/-- Run one of these commands; it fails when it has something to print and standard output is
closed. -/
def runBuiltin
    (name : String)
    (act : Session → List (List Char) → Session)
    (session : Session)
    (arguments : List (List Char)) :
    Session :=
  if session.isOpen 1 then
    act session arguments
  else
    let (ready, id) := session.addChannel (.gathered [])
    let after := act (ready.wire 1 id) arguments
    let closed := after.unwire 1
    if (after.gatheredIn id).isEmpty then closed
    else (closed.complain (name ++ ": I/O error")).withStatus (after.status ||| 1)

end Shell
end SkillAudit
