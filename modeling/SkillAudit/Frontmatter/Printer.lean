import SkillAudit.Frontmatter.Block

/-!
# Writing header blocks

The written form of a header with a body after it, and the condition under which a key with a
written value is read back as it was: a line keeps a pair apart only if the key has no colon,
neither part has a line break or blanks around it, and the line is no comment.
-/

namespace SkillAudit
namespace Frontmatter

/-- One line of a header block. -/
def fieldLine (key raw : List Char) : List Char :=
  key ++ ':' :: ' ' :: raw ++ ['\n']

/-- A delimiter line. -/
def delimiterLine : List Char :=
  Contract.headerDelimiter.toList ++ ['\n']

/-- The text of written fields with a body after them. -/
def render (fields : List (String × String)) (body : List Char) : List Char :=
  delimiterLine ++
    (fields.flatMap fun (key, raw) => fieldLine key.toList raw.toList) ++
    delimiterLine ++ body

/-- The keys of a header with the values as they are written. -/
def writtenFields (header : Header) : List (String × String) :=
  header.fields.map fun (key, field) => (key, field.raw)

/-- The text of a header with a body after it. -/
def renderHeader (header : Header) (body : String) : String :=
  String.ofList (render (writtenFields header) body.toList)

/-- A text without a line break and without blanks around it. -/
structure IsInline (text : List Char) : Prop where
  trimmed : Text.trim text = text
  oneLine : '\n' ∉ text

/-- Whether a text is inline can be decided. -/
instance (text : List Char) : Decidable (IsInline text) :=
  decidable_of_iff (Text.trim text = text ∧ '\n' ∉ text)
    ⟨fun ⟨htrim, hline⟩ => ⟨htrim, hline⟩, fun h => ⟨h.trimmed, h.oneLine⟩⟩

/-- A pair that a line of a header block keeps. -/
structure IsWritable (key raw : List Char) : Prop where
  key_inline : IsInline key
  no_colon : ':' ∉ key
  no_comment : key.head? ≠ some '#'
  raw_inline : IsInline raw

/-- Whether a pair is writable can be decided. -/
instance (key raw : List Char) : Decidable (IsWritable key raw) :=
  decidable_of_iff (IsInline key ∧ ':' ∉ key ∧ key.head? ≠ some '#' ∧ IsInline raw)
    ⟨fun ⟨hkey, hcolon, hcomment, hraw⟩ => ⟨hkey, hcolon, hcomment, hraw⟩,
      fun h => ⟨h.key_inline, h.no_colon, h.no_comment, h.raw_inline⟩⟩

end Frontmatter
end SkillAudit
