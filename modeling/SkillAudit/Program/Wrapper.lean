import SkillAudit.Program.Call
import SkillAudit.Text.Numeral

/-!
# Programs that run other programs

What the arguments of such a program ask for: the words of the commands to run, and the variables
that they are given.
-/

namespace SkillAudit
namespace Program

/-- Why a program runs no other one: what it says and its status. -/
structure Refused where
  lines : List String
  status : Nat

/-- The line that points to the help of a program. -/
def helpLine (name : List Char) : String :=
  "Try '" ++ Text.shown name ++ " --help' for more information."

/-- A refusal for a reason, which points to the help. -/
def Call.refused (call : Call) (reason : String) (status : Nat) : Refused where
  lines := [Text.shown call.name ++ ": " ++ reason, helpLine call.name]
  status := status

/-- The effect of a refusal. -/
def Call.refuse (call : Call) (refused : Refused) : Effect :=
  (refused.lines.foldl (fun effect line => effect.printError (Text.bytesOf (line ++ "\n")))
    call.done).withStatus refused.status

/-- What the program that changes variables runs; without a command it shows the variables. -/
structure Surrounded where
  environment : List (String × List Char)
  command : List (List Char)

/-- The words of a text between blanks. -/
def blankWords (text : List Char) : List (List Char) :=
  (Text.splitOn ' ' (text.map fun c => if c = '\t' then ' ' else c)).filter (!·.isEmpty)

/-- Variables with one set. -/
def withVariable (name : String) (value : List Char) (environment : List (String × List Char)) :
    List (String × List Char) :=
  if environment.any (·.1 = name) then
    environment.map fun entry => if entry.1 = name then (name, value) else entry
  else
    environment ++ [(name, value)]

/-- Read the variables and the command that follow the options. -/
def readSurrounded (environment : List (String × List Char)) : List (List Char) → Surrounded
  | [] => { environment, command := [] }
  | word :: rest =>
      let name := word.takeWhile (· != '=')
      match word.drop name.length with
      | _ :: value => readSurrounded (withVariable (Text.shown name) value environment) rest
      | [] => { environment, command := word :: rest }

/-- Read what a call of the program that changes variables asks for, in a bounded number of
steps. -/
def Call.surrounded (call : Call) :
    (fuel : Nat) → List (String × List Char) → List (List Char) → Except Refused Surrounded
  | 0, _, _ => .error ⟨[], 125⟩
  | fuel + 1, environment, words =>
      let without (name : List Char) : List (String × List Char) :=
        environment.filter fun entry => entry.1 != Text.shown name
      let missing (c : Char) : Refused :=
        call.refused ("option requires an argument -- '" ++ c.toString ++ "'") 125
      match words with
      | ['-'] :: rest | ['-', 'i'] :: rest => call.surrounded fuel [] rest
      | ['-', '-'] :: rest => .ok (readSurrounded environment rest)
      | ['-', 'u'] :: name :: rest => call.surrounded fuel (without name) rest
      | [['-', 'u']] => .error (missing 'u')
      | ('-' :: 'u' :: c :: name) :: rest => call.surrounded fuel (without (c :: name)) rest
      | ['-', 'S'] :: text :: rest => call.surrounded fuel environment (blankWords text ++ rest)
      | [['-', 'S']] => .error (missing 'S')
      | ('-' :: 'S' :: text) :: rest => call.surrounded fuel environment (blankWords text ++ rest)
      | ('-' :: c :: _) :: _ =>
          .error (call.refused ("invalid option -- '" ++ c.toString ++ "'") 125)
      | _ => .ok (readSurrounded environment words)

/-- The command that a program runs as it stands, after options of its own. -/
def Call.limitedCommand (call : Call) : Except Refused (List (List Char)) :=
  let read (valued : String) (flags : String) (long : List (String × Char)) :
      Except Refused Words :=
    let grammar : Grammar := { valued, flags, long, mixed := false }
    match grammar.read call.arguments with
    | .ok words => .ok words
    | .error reason => .error (call.refused reason 125)
  let helpOnly : Refused := ⟨[helpLine call.name], 125⟩
  let missing : Refused := call.refused "missing operand" 125
  match Text.shown (call.name.reverse.takeWhile (· != '/')).reverse with
  | "timeout" => do
      let words ← read "ks" "v"
        [("signal", 's'), ("kill-after", 'k'), ("preserve-status", 'v'), ("foreground", 'v'),
          ("verbose", 'v')]
      match words.operands with
      | duration :: command :: rest =>
          let number := if "smhd".toList.contains (duration.getLastD ' ') then duration.dropLast
            else duration
          if number.isEmpty || !number.all fun c => c.isDigit || c = '.' then
            .error (call.refused ("invalid time interval '" ++ Text.shown duration ++ "'") 125)
          else
            return command :: rest
      | _ => .error helpOnly
  | "nice" => do
      let words ← read "n" "" [("adjustment", 'n')]
      match words.value? 'n' with
      | some value =>
          if (integer? value).isNone then
            .error ⟨[Text.shown call.name ++ ": invalid adjustment '" ++ Text.shown value ++ "'"],
              125⟩
          else
            return words.operands
      | none => return words.operands
  | _ => do
      let words ← read "" "" []
      if words.operands.isEmpty then .error missing else return words.operands

/-- How a program says that it could not run another one. -/
def Call.cannotRun (call : Call) (command : List Char) (reason : String) : String :=
  let shown := Text.shown command
  let name := Text.shown call.name ++ ": "
  match Text.shown (call.name.reverse.takeWhile (· != '/')).reverse with
  | "timeout" | "nohup" => name ++ "failed to run command '" ++ shown ++ "': " ++ reason
  | "xargs" => name ++ shown ++ ": " ++ reason
  | _ => name ++ "'" ++ shown ++ "': " ++ reason

/-! ## Commands with arguments that are read -/

/-- The words of a text with quotes and backslashes; an open quote is given back. -/
def quotedWords : (current : Option (List Char)) → (quote : Option Char) → List Char →
    Except Char (List (List Char))
  | current, none, [] => .ok (current.map List.reverse).toList
  | _, some quote, [] => .error quote
  | current, none, '\\' :: c :: rest => quotedWords (some (c :: current.getD [])) none rest
  | current, none, c :: rest =>
      if c = '\'' || c = '"' then
        quotedWords (some (current.getD [])) (some c) rest
      else if c = ' ' || c = '\t' || c = '\n' then
        match current with
        | some word => (quotedWords none none rest).map (word.reverse :: ·)
        | none => quotedWords none none rest
      else
        quotedWords (some (c :: current.getD [])) none rest
  | current, some quote, c :: rest =>
      if c = quote then quotedWords current none rest
      else quotedWords (some (c :: current.getD [])) (some quote) rest

/-- The texts between separators; a separator at the end starts none. -/
def itemsBetween (separator : Char) (text : List Char) : List (List Char) :=
  let items := Text.splitOn separator text
  if items.getLast? = some [] then items.dropLast else items

/-- Lists of at most so many items. -/
def groupsOf {α : Type} (size : Nat) : (fuel : Nat) → List α → List (List α)
  | 0, _ => []
  | _, [] => []
  | fuel + 1, items => items.take size :: groupsOf size fuel (items.drop size)

/-- A text with a word in it replaced by another one. -/
def replacedIn (word other : List Char) : (fuel : Nat) → List Char → List Char
  | 0, text => text
  | _, [] => []
  | fuel + 1, c :: rest =>
      match List.isPrefixOf? word (c :: rest) with
      | some after =>
          if word.isEmpty then c :: rest else other ++ replacedIn word other fuel after
      | none => c :: replacedIn word other fuel rest

/-- The lines of a text that are not blank, without the blanks in front of them. -/
def filledLines (text : List Char) : List (List Char) :=
  ((linesOf text).map fun line => line.dropWhile fun c => c = ' ' || c = '\t').filter (!·.isEmpty)

/-- The commands that the program with arguments that are read runs. -/
def Call.spreadCommands (call : Call) : Except Refused (List (List (List Char))) := do
  let grammar : Grammar :=
    { flags := "0rtxop", valued := "nLIdPsEa"
      long :=
        [("null", '0'), ("no-run-if-empty", 'r'), ("verbose", 't'), ("max-args", 'n'),
          ("max-procs", 'P'), ("delimiter", 'd'), ("replace", 'I'), ("max-lines", 'L')]
      mixed := false }
  let words ←
    match grammar.read call.arguments with
    | .ok words => .ok words
    | .error reason => .error (call.refused reason 1)
  let command := if words.operands.isEmpty then ["echo".toList] else words.operands
  match words.value? 'I' with
  | some word =>
      let items :=
        if words.has '0' then itemsBetween '\x00' call.input else filledLines call.input
      return items.map fun item => command.map fun part => replacedIn word item part.length part
  | none =>
      let items ←
        if words.has '0' then
          .ok (itemsBetween '\x00' call.input)
        else
          match words.value? 'd' with
          | some (c :: _) => .ok (itemsBetween c call.input)
          | _ =>
              match quotedWords none none call.input with
              | .ok items => .ok items
              | .error quote =>
                  .error ⟨[Text.shown call.name ++ ": unmatched " ++
                    (if quote = '"' then "double" else "single") ++
                    " quote; by default quotes are special to xargs unless you use the -0 option"],
                    1⟩
      if items.isEmpty then
        return if words.has 'r' then [] else [command]
      else
        match (words.value? 'n').bind natural?, (words.value? 'L').bind natural? with
        | some size, _ =>
            return (groupsOf (max size 1) items.length items).map (command ++ ·)
        | none, some size =>
            let lines := groupsOf (max size 1) call.input.length (filledLines call.input)
            return lines.map fun group =>
              command ++ ((quotedWords none none ([' '].intercalate group)).toOption.getD [])
        | none, none => return [command ++ items]

end Program
end SkillAudit
