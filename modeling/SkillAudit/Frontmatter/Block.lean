import SkillAudit.Contract
import SkillAudit.Frontmatter.Header
import SkillAudit.Text.Blank
import SkillAudit.Text.Lines
import SkillAudit.Text.Search
import SkillAudit.Text.Slice

/-!
# Header blocks

A document may open with a block of `key: value` lines between two delimiter lines.  The block ends
at the first delimiter line after the opening one; without an opening or a closing line there is no
block and the whole text is the body.

Only flat pairs are read: a line that is blank, a comment or without a colon contributes nothing.

The block is looked for line by line, with a count of the bytes that the lines take, and cut out of
the text at the bytes where its lines start and end.  The quotes of a value are taken off in the
same way, by the bytes that they take.
-/

namespace SkillAudit
namespace Frontmatter

/-- Whether the line is a delimiter; carriage returns and line feeds at its end do not count. -/
def isDelimiter (line : List Char) : Bool :=
  Text.dropEndWhile (fun c => c = '\n' || c = '\r') line == Contract.headerDelimiter.toList

/-- Where a header block stands in a text, in bytes from its start. -/
structure Bounds where
  /-- Where the opening line ends. -/
  start : Nat
  /-- Where the closing line starts. -/
  stop : Nat
  /-- Where the closing line ends. -/
  next : Nat
  deriving DecidableEq, Repr

/-- Where the first delimiter among some lines starts and ends; the first of the lines stands at the
given offset. -/
def closingFrom? (offset : Nat) : List (List Char) → Option (Nat × Nat)
  | [] => none
  | line :: more =>
      if isDelimiter line then
        some (offset, offset + Text.byteLength line)
      else
        closingFrom? (offset + Text.byteLength line) more

/-- Where the header block at the start of a text stands. -/
def Bounds.ofText? (text : List Char) : Option Bounds :=
  match Text.segments text with
  | [] => none
  | opening :: more =>
      if isDelimiter opening then
        (closingFrom? (Text.byteLength opening) more).map fun (stop, next) =>
          ⟨Text.byteLength opening, stop, next⟩
      else
        none

/-- The text between the delimiter lines and the text after them, cut out of the text. -/
def Bounds.cut? (bounds : Bounds) (text : List Char) : Option (List Char × List Char) := do
  let inside ← Text.slice? bounds.start bounds.stop text
  let rest ← Text.slice? bounds.next (Text.byteLength text) text
  return (inside, rest)

/-- The inside of the header block of a text, and what stands after the block. -/
def locate? (text : List Char) : Option (List Char × List Char) :=
  (Bounds.ofText? text).bind (·.cut? text)

/-- The quotes in which a value may stand. -/
def quotes : List Char :=
  ['"', '\'']

/-- Whether a text of two bytes or more starts and ends with the given quote. -/
def isQuoted (quote : Char) (text : List Char) : Bool :=
  2 ≤ Text.byteLength text && Text.startsWith [quote] text && text.getLast? == some quote

/-- Take one layer of the given quote off, if the text is enclosed in it; what is kept is cut out of
the text behind its first byte and before its last. -/
def stripQuote? (quote : Char) (text : List Char) : Option (List Char) :=
  if isQuoted quote text then Text.slice? 1 (Text.byteLength text - 1) text else none

/-- Take one layer of quotes off: of the first quote in which the text is enclosed, if it is in
one. -/
def unquote (text : List Char) : List Char :=
  (quotes.findSome? fun quote => stripQuote? quote text).getD text

/-- The field with this written value. -/
def Field.ofRaw (raw : List Char) : Field :=
  ⟨String.ofList raw, String.ofList (unquote raw)⟩

/-- The entry that a line of a block contributes. -/
def entryOf? (line : List Char) : Option (String × Field) :=
  let text := Text.trim line
  if text.head? = some '#' then
    none
  else
    (Text.cutAt? ':' text).map fun (key, value) =>
      (String.ofList (Text.trim key), Field.ofRaw (Text.trim value))

/-- The entries of the lines of a block, in order. -/
def entries (block : List Char) : List (String × Field) :=
  (Text.lines block).filterMap entryOf?

/-- The header that a block stands for. -/
def header (block : List Char) : Header :=
  Header.ofEntries (entries block)

/-- The header of a text, if it has one, and its body. -/
def split (text : List Char) : Option Header × List Char :=
  match locate? text with
  | some (inside, rest) => (some (header inside), Text.trim rest)
  | none => (none, text)

end Frontmatter
end SkillAudit
