import SkillAudit.Json.Value

/-!
# Writing JSON

The written form of a JSON value: two blanks for every level, one item or field a line, and a colon
and a blank between a key and its value.  An empty list or object is written without a line break.
In a text the quote, the backslash and the control characters below the blank are escaped, and
nothing else is.
-/

namespace SkillAudit
namespace Json

/-- The digit of a number below sixteen, in small letters. -/
def hexDigit (n : Nat) : Char :=
  if n < 10 then Char.ofNat ('0'.toNat + n) else Char.ofNat ('a'.toNat + (n - 10))

/-- How one character of a text is written. -/
def escapeChar (c : Char) : List Char :=
  if c = '"' then ['\\', '"']
  else if c = '\\' then ['\\', '\\']
  else if c = '\n' then ['\\', 'n']
  else if c = '\r' then ['\\', 'r']
  else if c = '\t' then ['\\', 't']
  else if c = '\x08' then ['\\', 'b']
  else if c = '\x0c' then ['\\', 'f']
  else if c.toNat < 0x20 then
    ['\\', 'u', '0', '0', hexDigit (c.toNat / 16), hexDigit (c.toNat % 16)]
  else [c]

/-- How a text is written. -/
def quote (text : String) : List Char :=
  '"' :: text.toList.flatMap escapeChar ++ ['"']

/-- A line break and the blanks at the start of the next line. -/
def newLine (level : Nat) : List Char :=
  '\n' :: List.replicate (2 * level) ' '

mutual

/-- The written form of a value on a level. -/
def write (level : Nat) : Json → List Char
  | null => "null".toList
  | bool true => "true".toList
  | bool false => "false".toList
  | number n => (toString n).toList
  | text s => quote s
  | list [] => ['[', ']']
  | list (item :: rest) =>
      '[' :: newLine (level + 1) ++ write (level + 1) item ++ writeItems level rest
  | object [] => ['{', '}']
  | object ((key, value) :: rest) =>
      '{' :: newLine (level + 1) ++ quote key ++ ':' :: ' ' :: write (level + 1) value ++
        writeFields level rest

/-- The items after the first one and the end of the list. -/
def writeItems (level : Nat) : List Json → List Char
  | [] => newLine level ++ [']']
  | item :: rest =>
      ',' :: newLine (level + 1) ++ write (level + 1) item ++ writeItems level rest

/-- The fields after the first one and the end of the object. -/
def writeFields (level : Nat) : List (String × Json) → List Char
  | [] => newLine level ++ ['}']
  | (key, value) :: rest =>
      ',' :: newLine (level + 1) ++ quote key ++ ':' :: ' ' :: write (level + 1) value ++
        writeFields level rest

end

/-- The written form of a value. -/
def render (value : Json) : String :=
  String.ofList (write 0 value)

end Json
end SkillAudit
