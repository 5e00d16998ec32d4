import SkillAudit.Toml.Reader

/-!
# TOML documents

A document is the table that its statements build one after another.  A pair goes to the table of
the last header before it.
-/

namespace SkillAudit
namespace Toml

/-- A document while it is built. -/
structure Draft where
  /-- The table that the last header opened. -/
  path : List String
  entries : Entries

/-- Add one statement to a document. -/
def Draft.add (draft : Draft) : Statement → Option Draft
  | .pair path key value => do
      let entries ←
        changeAt false (addPair path key value) draft.path .header draft.entries
      return { draft with entries }
  | .header path key => do
      return { path := path ++ [key], entries := ← openTable path key draft.entries }
  | .repeated path key => do
      return { path := path ++ [key], entries := ← openRepeated path key draft.entries }

/-- The text after the mark of its byte order, which may stand before everything else. -/
def dropByteOrderMark : List Char → List Char
  | c :: rest => if c.toNat = 0xFEFF then rest else c :: rest
  | [] => []

/-- The table of a text, if the text is a TOML document. -/
def document? (text : String) : Option Entries := do
  let body := dropByteOrderMark text.toList
  let statements ← statements? (body.length + 1) body
  let draft ← statements.foldlM Draft.add { path := [], entries := [] }
  return draft.entries

end Toml
end SkillAudit
