import SkillAudit.Text.Search
import SkillAudit.Toml.Scalar

/-!
# Blanks, comments and quoted texts

What may stand between the parts of a TOML document, and the four forms of a quoted text.  Every
reader takes the text that is left and gives back what is left after it.

A quoted text is cut at its closing quotes first and decoded then; an escape is never closing.
-/

namespace SkillAudit
namespace Toml

/-- A blank inside a line. -/
def isInlineBlank (c : Char) : Bool :=
  c = ' ' || c = '\t'

/-- A control character that may stand nowhere. -/
def isForbidden (c : Char) : Bool :=
  (c.toNat < 0x20 && c ≠ '\t') || c.toNat = 0x7F

/-- Drop the blanks before the next part of a line. -/
def skipBlanks (text : List Char) : List Char :=
  text.dropWhile isInlineBlank

/-- Drop a line break, if the text starts with one. -/
def lineBreak? : List Char → Option (List Char)
  | '\n' :: rest => some rest
  | '\r' :: '\n' :: rest => some rest
  | _ => none

/-- Drop blanks, line breaks and comments. -/
def skipTrivia (inComment : Bool) : List Char → Option (List Char)
  | [] => some []
  | '\n' :: rest => skipTrivia false rest
  | '\r' :: '\n' :: rest => skipTrivia false rest
  | '\r' :: _ => none
  | c :: rest =>
      if inComment then
        if isForbidden c then none else skipTrivia true rest
      else if isInlineBlank c then skipTrivia false rest
      else if c = '#' then skipTrivia true rest
      else some (c :: rest)

/-- Drop a comment up to the end of its line. -/
def skipComment : List Char → Option (List Char)
  | [] => some []
  | '\n' :: rest => some ('\n' :: rest)
  | '\r' :: '\n' :: rest => some ('\r' :: '\n' :: rest)
  | c :: rest => if isForbidden c then none else skipComment rest

/-- Drop what may follow the last part of a line, with the line break. -/
def endLine? (text : List Char) : Option (List Char) := do
  let rest ←
    match skipBlanks text with
    | '#' :: rest => skipComment rest
    | rest => some rest
  if rest.isEmpty then some [] else lineBreak? rest

/-- Cut a text of one line at its closing quote. -/
def cutQuoted (quote : Char) (escapes : Bool) : List Char → Option (List Char × List Char)
  | [] => none
  | '\\' :: c :: rest =>
      if escapes then
        (cutQuoted quote escapes rest).map fun (inside, after) => ('\\' :: c :: inside, after)
      else
        (cutQuoted quote escapes (c :: rest)).map fun (inside, after) => ('\\' :: inside, after)
  | c :: rest =>
      if c = quote then some ([], rest)
      else (cutQuoted quote escapes rest).map fun (inside, after) => (c :: inside, after)

/-- The quotes of a closing run that still belong to the text; there are at most two. -/
def cutExtraQuotes (quote : Char) : List Char → List Char × List Char
  | a :: b :: rest =>
      if a = quote then
        if b = quote then ([a, b], rest) else ([a], b :: rest)
      else
        ([], a :: b :: rest)
  | [a] => if a = quote then ([a], []) else ([], [a])
  | [] => ([], [])

/-- Cut a text of several lines at its closing quotes. -/
def cutTripleQuoted (quote : Char) (escapes : Bool) :
    List Char → Option (List Char × List Char)
  | [] => none
  | c :: rest =>
      if escapes && c == '\\' then
        match rest with
        | [] => none
        | d :: more =>
            (cutTripleQuoted quote escapes more).map fun (inside, after) =>
              (c :: d :: inside, after)
      else if c = quote && rest.take 2 == [quote, quote] then
        some (cutExtraQuotes quote (rest.drop 2))
      else
        (cutTripleQuoted quote escapes rest).map fun (inside, after) => (c :: inside, after)

/-- The character of a code point, if there is one. -/
def charOf? (n : Nat) : Option Char :=
  if n.isValidChar then some (Char.ofNat n) else none

/-- The character that hexadecimal digits name. -/
def charOfHex? (digits : List Char) : Option Char := do
  let values ← digits.mapM digitValue?
  charOf? (numberOf 16 values)

/-- The character that stands for itself or for a control character after a backslash. -/
def simpleEscape? : Char → Option Char
  | 'b' => some '\x08'
  | 't' => some '\t'
  | 'n' => some '\n'
  | 'f' => some '\x0c'
  | 'r' => some '\r'
  | 'e' => some '\x1b'
  | '"' => some '"'
  | '\\' => some '\\'
  | _ => none

/-- Whether the text goes on in the next line after blanks only. -/
def breaksLine (text : List Char) : Bool :=
  (lineBreak? (skipBlanks text)).isSome

/-- Decode the escapes of a text.  In a text of several lines a backslash before a line break takes
away everything up to the next character that is no blank; `dropping` says that this goes on. -/
def unescape (multiline : Bool) : (dropping : Bool) → List Char → Option (List Char)
  | _, [] => some []
  | true, '\n' :: rest => unescape multiline true rest
  | true, ' ' :: rest => unescape multiline true rest
  | true, '\t' :: rest => unescape multiline true rest
  | true, '\r' :: rest => unescape multiline true rest
  | _, '\\' :: 'u' :: a :: b :: c :: d :: rest => do
      let char ← charOfHex? [a, b, c, d]
      return char :: (← unescape multiline false rest)
  | _, '\\' :: 'U' :: a :: b :: c :: d :: e :: f :: g :: h :: rest => do
      let char ← charOfHex? [a, b, c, d, e, f, g, h]
      return char :: (← unescape multiline false rest)
  | _, '\\' :: 'x' :: a :: b :: rest => do
      let char ← charOfHex? [a, b]
      return char :: (← unescape multiline false rest)
  | _, '\\' :: c :: rest =>
      if multiline && breaksLine (c :: rest) then
        unescape multiline true rest
      else do
        let char ← simpleEscape? c
        return char :: (← unescape multiline false rest)
  | _, ['\\'] => none
  | _, c :: rest => do
      return c :: (← unescape multiline false rest)

/-- Whether every control character in a text of several lines is a tab or part of a line break. -/
def isMultilineText : List Char → Bool
  | [] => true
  | '\n' :: rest => isMultilineText rest
  | '\r' :: '\n' :: rest => isMultilineText rest
  | c :: rest => !isForbidden c && isMultilineText rest

/-- Drop the line break right after the opening quotes. -/
def dropFirstBreak (text : List Char) : List Char :=
  (lineBreak? text).getD text

/-- The text after opening quotes, and what is left after the closing ones. -/
def quotedLine? (quote : Char) (text : List Char) : Option (List Char × List Char) := do
  let escapes := quote = '"'
  let (inside, after) ← cutQuoted quote escapes text
  if inside.any isForbidden then
    none
  else
    let decoded ← if escapes then unescape false false inside else some inside
    return (decoded, after)

/-- The text of several lines after opening quotes, and what is left after the closing ones. -/
def quotedLines? (quote : Char) (text : List Char) : Option (List Char × List Char) := do
  let escapes := quote = '"'
  let (inside, after) ← cutTripleQuoted quote escapes text
  if isMultilineText inside then
    let inside := dropFirstBreak inside
    let decoded ← if escapes then unescape true false inside else some inside
    return (decoded, after)
  else
    none

end Toml
end SkillAudit
