import SkillAudit.Json.Value
import SkillAudit.Text.Search

/-!
# Reading JSON

A reader for the values that reports are made of.  It takes blanks and line breaks between the
parts of a value as they come and every escape of a single character, and it refuses control
characters inside a text, numbers that are not natural, and anything after the value but blanks.
-/

namespace SkillAudit
namespace Json

/-- A character that may stand between the parts of a value. -/
def isSpace (c : Char) : Bool :=
  c = ' ' || c = '\n' || c = '\r' || c = '\t'

/-- Drop what may stand between the parts of a value. -/
def skipSpaces (text : List Char) : List Char :=
  text.dropWhile isSpace

/-- The number that a hexadecimal digit stands for. -/
def hexValue? (c : Char) : Option Nat :=
  if '0' ≤ c ∧ c ≤ '9' then some (c.toNat - '0'.toNat)
  else if 'a' ≤ c ∧ c ≤ 'f' then some (c.toNat - 'a'.toNat + 10)
  else if 'A' ≤ c ∧ c ≤ 'F' then some (c.toNat - 'A'.toNat + 10)
  else none

/-- The character of four hexadecimal digits; half of a pair is none. -/
def charOfHex? (a b c d : Char) : Option Char := do
  let n := ((← hexValue? a) * 16 + (← hexValue? b)) * 256 + (← hexValue? c) * 16 + (← hexValue? d)
  if n.isValidChar then some (Char.ofNat n) else none

/-- The character that a letter after a backslash stands for. -/
def charOfLetter? : Char → Option Char
  | '"' => some '"'
  | '\\' => some '\\'
  | '/' => some '/'
  | 'b' => some '\x08'
  | 'f' => some '\x0c'
  | 'n' => some '\n'
  | 'r' => some '\r'
  | 't' => some '\t'
  | _ => none

/-- The text up to the closing quote, and what is left after it. -/
def readText : List Char → Option (List Char × List Char)
  | [] => none
  | '"' :: rest => some ([], rest)
  | '\\' :: 'u' :: a :: b :: c :: d :: rest => do
      let char ← charOfHex? a b c d
      let (inside, rest) ← readText rest
      return (char :: inside, rest)
  | '\\' :: letter :: rest => do
      let char ← charOfLetter? letter
      let (inside, rest) ← readText rest
      return (char :: inside, rest)
  | c :: rest =>
      if c = '\\' ∨ c.toNat < 0x20 then
        none
      else
        (readText rest).map fun (inside, rest) => (c :: inside, rest)

/-- The number that digits stand for. -/
def numberOf (digits : List Char) : Nat :=
  digits.foldl (fun n c => n * 10 + (c.toNat - '0'.toNat)) 0

/-- The natural number at the start of a text; a zero stands alone. -/
def readNumber (text : List Char) : Option (Nat × List Char) :=
  let digits := text.takeWhile Char.isDigit
  let rest := text.dropWhile Char.isDigit
  match digits with
  | [] => none
  | '0' :: _ :: _ => none
  | _ => some (numberOf digits, rest)

mutual

/-- The value at the start of a text, and what is left after it. -/
def readValue : (fuel : Nat) → List Char → Option (Json × List Char)
  | 0, _ => none
  | fuel + 1, source =>
      match skipSpaces source with
      | '"' :: rest =>
          (readText rest).map fun (value, rest) => (.text (String.ofList value), rest)
      | '[' :: rest =>
          match skipSpaces rest with
          | ']' :: rest => some (.list [], rest)
          | rest => do
              let (item, rest) ← readValue fuel rest
              let (items, rest) ← readItems fuel rest
              return (.list (item :: items), rest)
      | '{' :: rest =>
          match skipSpaces rest with
          | '}' :: rest => some (.object [], rest)
          | rest => do
              let (field, rest) ← readField fuel rest
              let (fields, rest) ← readFields fuel rest
              return (.object (field :: fields), rest)
      | 'n' :: rest => (List.isPrefixOf? "ull".toList rest).map fun rest => (.null, rest)
      | 't' :: rest => (List.isPrefixOf? "rue".toList rest).map fun rest => (.bool true, rest)
      | 'f' :: rest => (List.isPrefixOf? "alse".toList rest).map fun rest => (.bool false, rest)
      | rest => (readNumber rest).map fun (value, rest) => (.number value, rest)

/-- The items after the first one, up to the end of the list. -/
def readItems : (fuel : Nat) → List Char → Option (List Json × List Char)
  | 0, _ => none
  | fuel + 1, source =>
      match skipSpaces source with
      | ']' :: rest => some ([], rest)
      | ',' :: rest => do
          let (item, rest) ← readValue fuel rest
          let (items, rest) ← readItems fuel rest
          return (item :: items, rest)
      | _ => none

/-- A key with its value. -/
def readField : (fuel : Nat) → List Char → Option ((String × Json) × List Char)
  | 0, _ => none
  | fuel + 1, source =>
      match skipSpaces source with
      | '"' :: rest => do
          let (key, rest) ← readText rest
          match skipSpaces rest with
          | ':' :: rest =>
              let (value, rest) ← readValue fuel rest
              return ((String.ofList key, value), rest)
          | _ => none
      | _ => none

/-- The fields after the first one, up to the end of the object. -/
def readFields : (fuel : Nat) → List Char → Option (List (String × Json) × List Char)
  | 0, _ => none
  | fuel + 1, source =>
      match skipSpaces source with
      | '}' :: rest => some ([], rest)
      | ',' :: rest => do
          let (field, rest) ← readField fuel rest
          let (fields, rest) ← readFields fuel rest
          return (field :: fields, rest)
      | _ => none

end

/-- The value that a text is the written form of. -/
def ofText? (text : String) : Option Json :=
  match readValue (2 * text.length + 1) text.toList with
  | some (value, rest) => if (skipSpaces rest).isEmpty then some value else none
  | none => none

end Json
end SkillAudit
