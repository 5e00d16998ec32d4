import SkillAudit.FileSystem.Update
import SkillAudit.Machine
import SkillAudit.Text.Bytes

/-!
# Calls of programs

What a program of a machine is given and what it leaves behind: what it printed, the files after it,
and what it left of its input.
-/

namespace SkillAudit
namespace Program

/-- A call of a program. -/
structure Call where
  /-- The name by which it was called. -/
  name : List Char
  arguments : List (List Char)
  files : FileSystem
  environment : List (String × List Char)
  input : List Char
  /-- Whether the input is a file, so that its size is known before it is read. -/
  sized : Bool

/-- What a call leaves behind. -/
structure Effect where
  status : Nat := 0
  /-- What was printed in order, each text with whether it is an error message. -/
  printed : List (Bool × List Char) := []
  files : FileSystem
  /-- What is left of the input. -/
  input : List Char

namespace Effect

/-- The effect with a status. -/
def withStatus (effect : Effect) (status : Nat) : Effect :=
  { effect with status }

/-- Print a text. -/
def print (effect : Effect) (text : List Char) : Effect :=
  { effect with printed := effect.printed ++ [(false, text)] }

/-- Print a message of an error. -/
def printError (effect : Effect) (text : List Char) : Effect :=
  { effect with printed := effect.printed ++ [(true, text)] }

end Effect

namespace Call

/-- The effect of doing nothing. -/
def done (call : Call) : Effect :=
  { files := call.files, input := call.input }

/-- A line of an error of this program. -/
def message (call : Call) (text : String) : List Char :=
  call.name ++ Text.bytesOf (": " ++ text ++ "\n")

/-- The effect of an error and nothing else. -/
def failing (call : Call) (text : String) (status : Nat) : Effect :=
  (call.done.printError (call.message text)).withStatus status

/-- Print an error and go on. -/
def complain (call : Call) (effect : Effect) (text : String) (status : Nat) : Effect :=
  (effect.printError (call.message text)).withStatus status

/-- Whether an operand stands for the input. -/
def isInput (operand : List Char) : Bool :=
  ["-", "/dev/stdin", "/dev/fd/0", "/proc/self/fd/0"].contains (String.ofList operand)

/-- The effect when standard output is closed, which fails if anything was to be printed there. -/
def withoutOutput (call : Call) (effect : Effect) : Effect :=
  if effect.printed.all (·.1) then
    effect
  else
    let place := if call.name = "cat".toList then "standard output" else "write error"
    call.complain { effect with printed := effect.printed.filter (·.1) }
      (place ++ ": Bad file descriptor") (max effect.status 1)

/-- The bytes of a file, or of the input for a dash, as characters. -/
def contents (call : Call) (operand : List Char) : Except IoFault (List Char) :=
  if isInput operand then .ok call.input
  else (call.files.readBytes (Text.shown operand)).map Text.ofBytes

end Call

/-- The options of a call and its other arguments. -/
structure Words where
  options : List (Char × List Char) := []
  operands : List (List Char) := []

namespace Words

/-- Whether an option was given. -/
def has (words : Words) (option : Char) : Bool :=
  words.options.any (·.1 = option)

/-- The last value of an option. -/
def value? (words : Words) (option : Char) : Option (List Char) :=
  words.options.reverse.lookup option

/-- All values of an option. -/
def values (words : Words) (option : Char) : List (List Char) :=
  (words.options.filter (·.1 = option)).map (·.2)

/-- An option in front of what was read. -/
def withOption (words : Words) (option : Char) (value : List Char) : Words :=
  { words with options := (option, value) :: words.options }

/-- An operand in front of what was read. -/
def withOperand (words : Words) (operand : List Char) : Words :=
  { words with operands := operand :: words.operands }

end Words

/-- How the options of a program are written. -/
structure Grammar where
  /-- The letters of options without a value. -/
  flags : String := ""
  /-- The letters of options with a value. -/
  valued : String := ""
  /-- The long names of options by their letters. -/
  long : List (String × Char) := []
  /-- Whether options may stand after operands. -/
  mixed : Bool := true

namespace Grammar

/-- What is said of an unknown option. -/
def unknown (option : List Char) : String :=
  "invalid option -- '" ++ Text.shown option ++ "'"

/-- The letters of one word of options, and the value that the last of them has in the same word; an
option that still needs a value is given back. -/
def readLetters (grammar : Grammar) :
    List Char → Except String (List (Char × List Char) × Option Char)
  | [] => .ok ([], none)
  | c :: rest =>
      if grammar.valued.toList.contains c then
        if rest.isEmpty then .ok ([], some c) else .ok ([(c, rest)], none)
      else if grammar.flags.toList.contains c then
        (readLetters grammar rest).map fun (more, open?) => ((c, []) :: more, open?)
      else
        .error (unknown [c])

/-- The letters of one word of options with their values, and an option that still needs one. -/
def readWord (grammar : Grammar) (text : List Char) :
    Except String (List (Char × List Char) × Option Char) :=
  match text with
  | '-' :: text =>
      let name := text.takeWhile (· != '=')
      match grammar.long.lookup (String.ofList name), text.drop name.length with
      | none, _ => .error ("unrecognized option '--" ++ Text.shown text ++ "'")
      | some letter, _ :: value => .ok ([(letter, value)], none)
      | some letter, [] =>
          if grammar.valued.toList.contains letter then .ok ([], some letter)
          else .ok ([(letter, [])], none)
  | _ => readLetters grammar text

/-- Read the arguments of a call; `open?` is an option whose value comes next. -/
def readFrom (grammar : Grammar) (open? : Option Char) :
    List (List Char) → Except String Words
  | [] =>
      match open? with
      | none => .ok {}
      | some letter => .error ("option requires an argument -- '" ++ letter.toString ++ "'")
  | argument :: rest =>
      match open? with
      | some letter => (readFrom grammar none rest).map (·.withOption letter argument)
      | none =>
          match argument with
          | ['-', '-'] => .ok { operands := rest }
          | '-' :: c :: text =>
              match grammar.readWord (c :: text) with
              | .error reason => .error reason
              | .ok (options, open?) =>
                  (readFrom grammar open? rest).map fun words =>
                    options.foldr (fun option words => words.withOption option.1 option.2) words
          | _ =>
              if grammar.mixed then (readFrom grammar none rest).map (·.withOperand argument)
              else .ok { operands := argument :: rest }

/-- Read the arguments of a call. -/
def read (grammar : Grammar) (arguments : List (List Char)) : Except String Words :=
  grammar.readFrom none arguments

end Grammar

/-- Read the arguments of a call and go on, or fail with what is wrong with them. -/
def Call.parsed
    (call : Call)
    (grammar : Grammar)
    (status : Nat)
    (act : Words → Effect) :
    Effect :=
  match grammar.read call.arguments with
  | .ok words => act words
  | .error reason =>
      (call.failing reason status).printError
        (Text.bytesOf ("Try '" ++ Text.shown call.name ++ " --help' for more information.\n"))

/-- The number of a text of digits. -/
def natural? (text : List Char) : Option Nat :=
  if text.isEmpty || !text.all Char.isDigit then none
  else some (text.foldl (fun n c => n * 10 + (c.toNat - '0'.toNat)) 0)

/-- The whole number of a text with an optional sign. -/
def integer? (text : List Char) : Option Int :=
  match text with
  | '-' :: rest => (natural? rest).map fun n => -(n : Int)
  | '+' :: rest => (natural? rest).map fun n => (n : Int)
  | _ => (natural? text).map fun n => (n : Int)

/-- The lines of a text, each with whether a line break ends it. -/
def linesOf (text : List Char) : List (List Char) :=
  (Text.segments text).map fun line =>
    if line.getLast? = some '\n' then line.dropLast else line

/-- Lines as they are printed. -/
def ofLines (lines : List (List Char)) : List Char :=
  (lines.map (· ++ ['\n'])).flatten

/-- The contents of operands one after another, with a message for each that cannot be read; without
operands the input is read. -/
def Call.readAll
    (call : Call)
    (operands : List (List Char))
    (wording : List Char → String → String)
    (status : Nat) :
    List (List Char × List Char) × Effect :=
  let operands := if operands.isEmpty then [['-']] else operands
  operands.foldl
    (fun (found, effect) operand =>
      match call.contents operand with
      | .ok text =>
          (found ++ [(operand, text)],
            if Call.isInput operand then { effect with input := [] } else effect)
      | .error fault => (found, call.complain effect (wording operand fault.reason) status))
    ([], call.done)

/-- How most programs say that an operand cannot be read. -/
def plainWording (operand : List Char) (reason : String) : String :=
  Text.shown operand ++ ": " ++ reason

end Program
end SkillAudit
