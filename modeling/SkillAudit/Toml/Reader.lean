import SkillAudit.Toml.Text

/-!
# Reading TOML

Values, keys and the lines of a document.  Lists and inline tables nest up to a fixed depth, and
line breaks may stand anywhere between their marks.  The
readers of nested values take a bound on the number of steps; the length of the text is always
enough, because every step takes at least one character.
-/

namespace SkillAudit
namespace Toml

/-- How deep lists and inline tables may nest. -/
def nestingLimit : Nat := 80

/-- A character of a key without quotes. -/
def isBareKeyChar (c : Char) : Bool :=
  isDigit c || ('a' ≤ c && c ≤ 'z') || ('A' ≤ c && c ≤ 'Z') || c = '_' || c = '-'

/-- A character of a bare word. -/
def isWordChar (c : Char) : Bool :=
  !"=,[]\x7b\x7d \t#\r\n".toList.contains c

/-- One part of a key. -/
def keyPart? (text : List Char) : Option (String × List Char) :=
  match text with
  | '"' :: rest => (quotedLine? '"' rest).map fun (key, after) => (String.ofList key, after)
  | '\'' :: rest => (quotedLine? '\'' rest).map fun (key, after) => (String.ofList key, after)
  | _ =>
      match text.takeWhile isBareKeyChar with
      | [] => none
      | word => some (String.ofList word, text.drop word.length)

/-- How many parts a key with dots may have. -/
def partLimit : Nat := 80

/-- The parts of a key with dots: those before the last one, and the last one. -/
def keyParts? : (fuel : Nat) → List Char → Option ((List String × String) × List Char)
  | 0, _ => none
  | fuel + 1, text => do
      let (part, rest) ← keyPart? (skipBlanks text)
      match skipBlanks rest with
      | '.' :: more => do
          let ((path, last), after) ← keyParts? fuel more
          return ((part :: path, last), after)
      | after => return (([], part), after)

/-- A key with dots, of bounded length. -/
def dottedKey? (text : List Char) : Option ((List String × String) × List Char) := do
  let ((path, last), after) ← keyParts? (text.length + 1) text
  if path.length < partLimit then
    return ((path, last), after)
  else
    none

/-- The bare word at the start of a text; a time may follow a date after one blank. -/
def cutWord (text : List Char) : List Char × List Char :=
  let word := text.takeWhile isWordChar
  let rest := text.drop word.length
  match rest with
  | ' ' :: c :: more =>
      if isDate word && isDigit c then
        let time := (c :: more).takeWhile isWordChar
        (word ++ ' ' :: time, (c :: more).drop time.length)
      else
        (word, rest)
  | _ => (word, rest)

/-- A value that is not nested. -/
def simpleValue? (text : List Char) : Option (Toml × List Char) :=
  let asText (read : Option (List Char × List Char)) : Option (Toml × List Char) :=
    read.map fun (content, after) => (.string (String.ofList content), after)
  match text with
  | '"' :: '"' :: '"' :: rest => asText (quotedLines? '"' rest)
  | '\'' :: '\'' :: '\'' :: rest => asText (quotedLines? '\'' rest)
  | '"' :: rest => asText (quotedLine? '"' rest)
  | '\'' :: rest => asText (quotedLine? '\'' rest)
  | _ =>
      let (word, rest) := cutWord text
      (scalar? word).map fun value => (value, rest)

mutual

/-- A value; `depth` says how many more levels may open. -/
def value? : (fuel depth : Nat) → List Char → Option (Toml × List Char)
  | 0, _, _ => none
  | fuel + 1, depth, text =>
      match text with
      | '[' :: rest =>
          match depth with
          | 0 => none
          | depth + 1 => do
              let (items, after) ← items? fuel depth (← skipTrivia false rest)
              return (.list items, after)
      | '{' :: rest =>
          match depth with
          | 0 => none
          | depth + 1 => do
              let (entries, after) ← pairs? fuel depth [] (← skipTrivia false rest)
              return (.table .inline entries, after)
      | _ => simpleValue? text

/-- The items of a list up to its end; a comma may follow the last one. -/
def items? : (fuel depth : Nat) → List Char → Option (List Toml × List Char)
  | 0, _, _ => none
  | fuel + 1, depth, text =>
      match text with
      | ']' :: rest => some ([], rest)
      | _ => do
          let (item, rest) ← value? fuel depth text
          match ← skipTrivia false rest with
          | ',' :: rest => do
              let (items, after) ← items? fuel depth (← skipTrivia false rest)
              return (item :: items, after)
          | ']' :: after => return ([item], after)
          | _ => none

/-- The pairs of an inline table up to its end; a comma may follow the last one. -/
def pairs? : (fuel depth : Nat) → Entries → List Char → Option (Entries × List Char)
  | 0, _, _, _ => none
  | fuel + 1, depth, entries, text =>
      match text with
      | '}' :: rest => some (entries, rest)
      | _ => do
          let ((path, key), rest) ← dottedKey? text
          match ← skipTrivia false rest with
          | '=' :: rest => do
              let (value, rest) ← value? fuel depth (← skipTrivia false rest)
              let entries ← addPair path key value .inline entries
              match ← skipTrivia false rest with
              | ',' :: rest => pairs? fuel depth entries (← skipTrivia false rest)
              | '}' :: after => return (entries, after)
              | _ => none
          | _ => none

end

/-- A line of a document that says something. -/
inductive Statement where
  | pair (path : List String) (key : String) (value : Toml)
  | header (path : List String) (key : String)
  | repeated (path : List String) (key : String)

/-- Drop a character that has to come next. -/
def expect? (c : Char) : List Char → Option (List Char)
  | d :: rest => if d = c then some rest else none
  | [] => none

/-- The statement at the start of a text that starts with neither a blank nor a comment. -/
def statement? (text : List Char) : Option (Statement × List Char) :=
  match text with
  | '[' :: '[' :: rest => do
      let ((path, key), rest) ← dottedKey? rest
      let rest ← expect? ']' rest
      let rest ← expect? ']' rest
      return (.repeated path key, rest)
  | '[' :: rest => do
      let ((path, key), rest) ← dottedKey? rest
      let rest ← expect? ']' rest
      return (.header path key, rest)
  | _ => do
      let ((path, key), rest) ← dottedKey? text
      let rest ← expect? '=' rest
      let (value, rest) ← value? (2 * rest.length + 2) nestingLimit (skipBlanks rest)
      return (.pair path key value, rest)

/-- The statements of a text, one a line. -/
def statements? : (fuel : Nat) → List Char → Option (List Statement)
  | 0, _ => none
  | fuel + 1, text => do
      match ← skipTrivia false text with
      | [] => return []
      | text => do
          let (statement, rest) ← statement? text
          return statement :: (← statements? fuel (← endLine? rest))

end Toml
end SkillAudit
