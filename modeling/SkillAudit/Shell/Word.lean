import SkillAudit.Shell.Command

/-!
# The parts of shell text

The characters that end words and make names, what is skipped between words, and the texts that are
taken from a script as they stand: what back quotes enclose and the lines after a command that are
its input.  Lines that were taken leave marks behind, so that the lines of a script can be counted.
-/

namespace SkillAudit
namespace Shell

/-- The mark of a line that was taken out of a script; it is no byte. -/
def takenLine : Char := '\u0100'

/-- A blank inside a line. -/
def isBlank (c : Char) : Bool :=
  c = ' ' || c = '\t' || c = takenLine

/-- A character that ends a word. -/
def endsWord (c : Char) : Bool :=
  isBlank c || c = '\n' || c = ';' || c = '&' || c = '|' || c = '<' || c = '>' || c = '(' ||
    c = ')'

/-- A character that may start a name. -/
def startsName (c : Char) : Bool :=
  ('a' ≤ c && c ≤ 'z') || ('A' ≤ c && c ≤ 'Z') || c = '_'

/-- A character of a name. -/
def isNameChar (c : Char) : Bool :=
  startsName c || ('0' ≤ c && c ≤ '9')

/-- Whether a text is a name. -/
def isName (text : List Char) : Bool :=
  match text with
  | c :: _ => startsName c && text.all isNameChar
  | [] => false

/-- A parameter that is not a name. -/
def isSpecialParameter (c : Char) : Bool :=
  ('0' ≤ c && c ≤ '9') || c = '@' || c = '*' || c = '#' || c = '?' || c = '$' || c = '!' ||
    c = '-'

/-- The number of lines that end in a text. -/
def lineBreaks (text : List Char) : Nat :=
  text.countP fun c => c = '\n' || c = takenLine

/-- Drop a comment. -/
def dropComment (text : List Char) : List Char :=
  text.dropWhile (· != '\n')

/-- Drop blanks, joined lines and a comment. -/
def skipBlanks : List Char → List Char
  | '\\' :: '\n' :: rest => skipBlanks rest
  | c :: rest =>
      if isBlank c then skipBlanks rest
      else if c = '#' then dropComment (c :: rest)
      else c :: rest
  | [] => []

/-- Drop blanks, line breaks and comments, in a bounded number of steps. -/
def skipLinesWithin : (fuel : Nat) → List Char → List Char
  | 0, text => text
  | fuel + 1, text =>
      match skipBlanks text with
      | '\n' :: rest => skipLinesWithin fuel rest
      | rest => rest

/-- Drop blanks, line breaks and comments. -/
def skipLines (text : List Char) : List Char :=
  skipLinesWithin (text.length + 1) text

/-- The words with a meaning of their own at the start of a command. -/
def reservedWords : List String :=
  ["if", "then", "elif", "else", "fi", "while", "until", "for", "do", "done", "case", "esac", "in",
    "\x7b", "\x7d", "!"]

/-- The reserved word at the start of a text. -/
def reserved? (text : List Char) : Option (String × List Char) :=
  let word := text.takeWhile fun c => !endsWord c
  let shown := String.ofList word
  if reservedWords.contains shown then some (shown, text.drop word.length) else none

/-- A name with an equals sign at the start of a text, and what follows it. -/
def assignment? (text : List Char) : Option (String × List Char) :=
  let name := text.takeWhile isNameChar
  match text.drop name.length with
  | '=' :: rest => if isName name then some (String.ofList name, rest) else none
  | _ => none

/-- The text up to a back quote that is not protected, and what follows it. -/
def cutBackquoted : List Char → Option (List Char × List Char)
  | [] => none
  | '\\' :: c :: rest =>
      (cutBackquoted rest).map fun (inside, after) => ('\\' :: c :: inside, after)
  | c :: rest =>
      if c = '`' then some ([], rest)
      else (cutBackquoted rest).map fun (inside, after) => (c :: inside, after)

/-- The script between back quotes, without the backslashes that protect it. -/
def unprotect (quoted : Bool) : List Char → List Char
  | '\\' :: c :: rest =>
      if c = '\\' || c = '`' || c = '$' || (quoted && c = '"') then c :: unprotect quoted rest
      else '\\' :: c :: unprotect quoted rest
  | c :: rest => c :: unprotect quoted rest
  | [] => []

/-! ## Input that stands in the script -/

/-- The text of a word up to its end, as it stands. -/
def cutRawWord : List Char → List Char × List Char
  | [] => ([], [])
  | '\\' :: c :: rest =>
      let (word, after) := cutRawWord rest
      ('\\' :: c :: word, after)
  | c :: rest =>
      if endsWord c then
        ([], c :: rest)
      else
        let (word, after) := cutRawWord rest
        (c :: word, after)

/-- A word without the marks that quote it. -/
def bareText : List Char → List Char
  | '\\' :: c :: rest => c :: bareText rest
  | c :: rest => if c = '\'' || c = '"' then bareText rest else c :: bareText rest
  | [] => []

/-- The lines up to the one that ends them, how many lines that takes, and what follows. -/
def cutLines (ending : List Char) (dropTabs : Bool) :
    (fuel : Nat) → List Char → List Char × Nat × List Char
  | 0, text => ([], 0, text)
  | _, [] => ([], 0, [])
  | fuel + 1, text =>
      let line := text.takeWhile (· != '\n')
      let rest := text.drop line.length
      let line := if dropTabs then line.dropWhile (· = '\t') else line
      let broken := if rest.isEmpty then 0 else 1
      if line = ending then
        ([], broken, rest.tail)
      else
        let (body, count, after) := cutLines ending dropTabs fuel rest.tail
        (line ++ (rest.take 1) ++ body, count + broken, after)

/-- The lines after the current one that are given as input there, and the text without them; the
text starts after the word that ends them. -/
def takeLines (ending : List Char) (dropTabs : Bool) (text : List Char) :
    List Char × List Char :=
  let line := text.takeWhile (· != '\n')
  let below := text.drop (line.length + 1)
  let marks := below.takeWhile (· = takenLine)
  let (body, count, after) :=
    cutLines ending dropTabs (below.length + 1) (below.drop marks.length)
  let rest :=
    if line.length = text.length then []
    else '\n' :: marks ++ List.replicate count takenLine ++ after
  (body, line ++ rest)

end Shell
end SkillAudit
