import SkillAudit.Frontmatter.Block

/-!
# Documents

An entry document: its text, the header at its start, and the body after it.
-/

namespace SkillAudit

/-- A document with its parts. -/
structure Document where
  text : String
  /-- Missing when the text has no complete header block. -/
  header : Option Header
  /-- The text after the header, trimmed; without a header the whole text. -/
  body : String
  deriving DecidableEq, Repr

/-- The document of a text. -/
def Document.ofText (text : String) : Document :=
  let (header, body) := Frontmatter.split text.toList
  { text, header, body := String.ofList body }

end SkillAudit
