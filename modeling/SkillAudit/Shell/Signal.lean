import SkillAudit.Shell.Session
import SkillAudit.Text.Numeral

/-!
# Signals

The signals by number and name, what they do to a process that takes no notice of them, and the
command that sends them.
-/

namespace SkillAudit
namespace Shell
namespace Signal

/-- The names of the signals in the order of their numbers; the first one stands for the end of a
script. -/
def names : List String :=
  ["EXIT", "HUP", "INT", "QUIT", "ILL", "TRAP", "ABRT", "BUS", "FPE", "KILL", "USR1", "SEGV",
    "USR2", "PIPE", "ALRM", "TERM", "16", "CHLD", "CONT", "STOP", "TSTP", "TTIN", "TTOU", "URG",
    "XCPU", "XFSZ", "VTALRM", "PROF", "WINCH", "IO", "PWR", "SYS"]

/-- The signals that a process does not notice. -/
def harmless : List String :=
  ["CHLD", "CONT", "STOP", "TSTP", "TTIN", "TTOU", "URG", "WINCH"]

/-- The number of a name. -/
def number? (name : String) : Option Nat :=
  names.findIdx? (· = name)

/-- The name of a number. -/
def name? (n : Nat) : Option String :=
  names[n]?

/-- The signal that a word names, by its name or by its number. -/
def ofWord? (word : List Char) : Option String :=
  if !word.isEmpty && word.all Char.isDigit then
    name? (Text.Numeral.value 10 word)
  else
    let name := String.ofList (word.map Char.toUpper)
    if names.contains name then some name else none

/-- How a shell tells that a command ended by a signal; nothing for the usual ones. -/
def description? : Nat → Option String
  | 1 => some "Hangup"
  | 3 => some "Quit"
  | 4 => some "Illegal instruction"
  | 5 => some "Trace/breakpoint trap"
  | 6 => some "Aborted"
  | 7 => some "Bus error"
  | 8 => some "Floating point exception"
  | 9 => some "Killed"
  | 10 => some "User defined signal 1"
  | 11 => some "Segmentation fault"
  | 12 => some "User defined signal 2"
  | 14 => some "Alarm clock"
  | 15 => some "Terminated"
  | 24 => some "CPU time limit exceeded"
  | 25 => some "File size limit exceeded"
  | 26 => some "Virtual timer expired"
  | 27 => some "Profiling timer expired"
  | 29 => some "I/O possible"
  | 30 => some "Power failure"
  | 31 => some "Bad system call"
  | _ => none

end Signal

/-- How the command that sends signals is called. -/
def killUsage : String :=
  "Usage: kill [-s sigspec | -signum | -sigspec] [pid | job]... or\nkill -l [exitstatus]"

/-- Send a signal to processes. -/
def sendSignal (session : Session) (signal : String) (targets : List (List Char)) : Session :=
  targets.foldl
    (fun session target =>
      if !session.runs then
        session
      else
        match Text.Numeral.cutSigned Text.Numeral.cutDecimal target with
        | (some n, []) =>
            let isHere :=
              n = 0 || (999 ≤ n && n < session.nextProcess &&
                !session.jobs.any fun job => (job.1 : Int) = n)
            if !isHere then
              (session.complain "No such process\n").withStatus 1
            else if signal = "EXIT" then
              session
            else
              let process := if n = 0 then session.process else n.toNat
              { session with pending := session.pending ++ [(process, signal)] }
        | _ => session.fail ("Illegal number: " ++ Text.shown target))
    session.succeeded

/-- Tell the names of signals. -/
def tellSignals (session : Session) (arguments : List (List Char)) : Session :=
  match arguments with
  | [] =>
      session.succeeded.print 1 <| Text.bytesOf <|
        String.join (("0" :: Signal.names.tail).map (· ++ "\n"))
  | word :: _ =>
      if word.isEmpty || !word.all Char.isDigit then
        session.fail ("Illegal number: " ++ Text.shown word)
      else
        let n := Text.Numeral.value 10 word
        let n := if 128 ≤ n then n - 128 else n
        match Signal.name? n with
        | some name =>
            if n = 0 then
              session.fail ("invalid signal number or exit status: " ++ Text.shown word)
            else
              session.succeeded.print 1 (Text.bytesOf (name ++ "\n"))
        | none => session.fail ("invalid signal number or exit status: " ++ Text.shown word)

/-- The command that sends signals. -/
def killCommand (session : Session) (arguments : List (List Char)) : Session :=
  let send (signal : Option String) (word : List Char) (targets : List (List Char)) : Session :=
    match signal with
    | none => session.fail ("invalid signal number or name: " ++ Text.shown word)
    | some signal =>
        if targets.isEmpty then session.fail killUsage else sendSignal session signal targets
  match arguments with
  | [] => session.fail killUsage
  | ['-', 'l'] :: rest => tellSignals session rest
  | ['-', 's'] :: word :: rest =>
      let targets := if rest.head? = some ['-', '-'] then rest.tail else rest
      send (Signal.ofWord? word) word targets
  | ['-', 's'] :: [] => session.fail killUsage
  | ['-', '-'] :: rest => send (some "TERM") [] rest
  | ('-' :: c :: letters) :: rest =>
      match Signal.ofWord? (c :: letters) with
      | some signal => send (some signal) [] rest
      | none => session.fail ("Illegal option -" ++ c.toString)
  | _ => send (some "TERM") [] arguments

end Shell
end SkillAudit
