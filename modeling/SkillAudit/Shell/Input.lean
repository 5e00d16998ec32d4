import SkillAudit.Program.Call
import SkillAudit.Shell.Field
import SkillAudit.Shell.Session
import SkillAudit.Text.Numeral

/-!
# Commands that take input apart

Reading a line into variables, and reading the options of a script one by one.
-/

namespace SkillAudit
namespace Shell

/-- A line with whether each of its characters is quoted, whether a line break ended it, and what
follows it.  A backslash quotes the character after it and joins lines, unless it is `raw`. -/
def cutLine (raw : Bool) : List Char → List (Bool × Char) × Bool × List Char
  | [] => ([], false, [])
  | '\\' :: c :: rest =>
      if raw then
        if c = '\n' then
          ([(false, '\\')], true, rest)
        else
          let (line, ended, after) := cutLine raw (c :: rest)
          ((false, '\\') :: line, ended, after)
      else
        let (line, ended, after) := cutLine raw rest
        (if c = '\n' then line else (true, c) :: line, ended, after)
  | c :: rest =>
      if c = '\n' then
        ([], true, rest)
      else
        let (line, ended, after) := cutLine raw rest
        (if c = '\x00' then line else (false, c) :: line, ended, after)

/-- Whether a character of a line separates fields. -/
def isSeparator (separators : List Char) (c : Bool × Char) : Bool :=
  !c.1 && separators.contains c.2

/-- Whether a character of a line separates fields and is a blank. -/
def isSoftSeparator (separators : List Char) (c : Bool × Char) : Bool :=
  isSeparator separators c && isSoft c.2

/-- The first field of a line, and what follows it and the separator that ends it. -/
def cutField (separators : List Char) (line : List (Bool × Char)) :
    List (Bool × Char) × List (Bool × Char) :=
  let field := line.takeWhile fun c => !isSeparator separators c
  let rest := (line.drop field.length).dropWhile (isSoftSeparator separators)
  let rest :=
    match rest with
    | c :: after => if isSeparator separators c then after else rest
    | [] => []
  (field, rest.dropWhile (isSoftSeparator separators))

/-- The values of so many variables in a line: the last one takes what is left, without the
separator that ends it if that is a single field. -/
def lineFields (separators : List Char) : Nat → List (Bool × Char) → List (List Char)
  | 0, _ => []
  | 1, line =>
      let (field, rest) := cutField separators line
      let whole :=
        if rest.isEmpty then field
        else (line.reverse.dropWhile (isSoftSeparator separators)).reverse
      [whole.map (·.2)]
  | count + 1, line =>
      let (field, rest) := cutField separators line
      field.map (·.2) :: lineFields separators count rest

/-- Read a line into variables. -/
def readInput (session : Session) (arguments : List (List Char)) : Session :=
  let rec names (raw : Bool) : List (List Char) → Except String (Bool × List (List Char))
    | ['-', 'r'] :: rest => names true rest
    | ['-', 'p'] :: _ :: rest => names raw rest
    | ['-', '-'] :: rest => .ok (raw, rest)
    | ('-' :: c :: _) :: _ => .error ("Illegal option -" ++ c.toString)
    | rest => .ok (raw, rest)
  match names false arguments with
  | .error text => session.fail text
  | .ok (_, []) => session.fail "arg count"
  | .ok (raw, words) =>
      match words.find? fun word => !isName word with
      | some word => session.fail (Text.shown word ++ ": bad variable name")
      | none =>
          let (line, ended, rest) := cutLine raw (session.input 0)
          let line := line.dropWhile (isSoftSeparator session.separators)
          let session := session.withInputLeft 0 rest
          let values := lineFields session.separators words.length line
          (words.zip values).foldl
            (fun session (word, value) =>
              if session.runs then session.assign (String.ofList word) value else session)
            (session.withStatus (if ended then 0 else 1))

/-! ## Options -/

/-- What the next option of a script is.  The number of the word after the one that was looked at
goes with it, and the place of the next letter in that one, which is zero at its end. -/
inductive NextOption where
  | none (next : Nat)
  | known (letter : Char) (argument? : Option (List Char)) (next place : Nat)
  | unknown (letter : Char) (next place : Nat)
  | incomplete (letter : Char) (next : Nat)

/-- The next option in words: at a place in the word before the next one, or at the start of the
next one.  Words are counted from one. -/
def nextOption (letters : List Char) (words : List (List Char)) (next place : Nat) : NextOption :=
  let current := if next < 2 then [] else (words[next - 2]?).getD []
  let atStart := place = 0 || current.length ≤ place
  let text := if atStart then (words[next - 1]?).getD [] else current
  if atStart && text = ['-', '-'] then
    .none (next + 1)
  else if atStart && (text.length < 2 || text.head? != some '-') then
    .none next
  else
    let next := if atStart then next + 1 else next
    let place := if atStart then 1 else place
    match text.drop place with
    | [] => .none next
    | letter :: more =>
        let known := letter != ':' && letters.contains letter
        let takes := (letters.dropWhile (· != letter))[1]? = some ':'
        let place := place + 1
        if !known then .unknown letter next place
        else if !takes then .known letter none next place
        else if !more.isEmpty then .known letter (some more) next 0
        else
          match words[next - 1]? with
          | some argument => .known letter (some argument) (next + 1) 0
          | none => .incomplete letter next

/-- Read the next option into a variable. -/
def optionsCommand (session : Session) (arguments : List (List Char)) : Session :=
  match arguments with
  | letters :: name :: rest =>
      let words := if rest.isEmpty then session.arguments else rest
      let silent := letters.head? = some ':'
      let letters := if silent then letters.tail else letters
      let settle (session : Session) (value : List Char) (next place : Nat) (status : Nat) :
          Session :=
        let session := session.set "OPTIND" (Session.ofNat next)
        let session := { session with optionNext := next, optionPlace := place }
        let session :=
          if isName name then session.assign (Text.shown name) value
          else session.fail (Text.shown name ++ ": bad variable name")
        if session.runs then session.withStatus status else session
      match nextOption letters words session.optionNext session.optionPlace with
      | .none next => settle session ['?'] next 0 1
      | .known letter argument? next place =>
          settle (session.set "OPTARG" (argument?.getD [])) [letter] next place 0
      | .unknown letter next place =>
          if silent then
            settle (session.set "OPTARG" [letter]) ['?'] next place 0
          else
            let session := session.print 2
              (Text.bytesOf "Illegal option -" ++ [letter, '\n'])
            settle (session.unbind "OPTARG") ['?'] next place 0
      | .incomplete letter next =>
          if silent then
            settle (session.set "OPTARG" [letter]) [':'] next 0 0
          else
            let session := session.print 2
              (Text.bytesOf "No arg for -" ++ letter :: Text.bytesOf " option\n")
            settle (session.unbind "OPTARG") ['?'] next 0 0
  | _ => session.fail "Usage: getopts optstring var [arg...]"

end Shell
end SkillAudit
