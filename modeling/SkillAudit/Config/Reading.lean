import SkillAudit.Config
import SkillAudit.Toml.Document

/-!
# Reading a configuration

A configuration is the defaults with what a document says in their place.  A section is a table,
or a list of its settings in order; what is missing keeps its default.  A setting of the wrong
kind refuses the whole document.  What a configuration does not know is ignored, as long as its
numbers can be represented.
-/

namespace SkillAudit

namespace Toml

/-- Whether a whole number can be represented in 128 bits, with or without a sign. -/
def isRepresentable (n : Int) : Bool :=
  -(Nat.pow 2 127 : Int) ≤ n && n < (Nat.pow 2 128 : Int)

mutual

/-- Whether a value may be ignored. -/
def isIgnorable : Toml → Bool
  | integer n => isRepresentable n
  | decimal d => d.isRepresentable
  | unreadable => false
  | list items => areIgnorable items
  | tables items => areIgnorableTables items
  | table _ entries => areIgnorableEntries entries
  | _ => true

/-- Whether all items of a list may be ignored. -/
def areIgnorable : List Toml → Bool
  | [] => true
  | item :: rest => isIgnorable item && areIgnorable rest

/-- Whether all of some tables may be ignored. -/
def areIgnorableTables : List (List (String × Toml)) → Bool
  | [] => true
  | entries :: rest => areIgnorableEntries entries && areIgnorableTables rest

/-- Whether all values of a table may be ignored. -/
def areIgnorableEntries : List (String × Toml) → Bool
  | [] => true
  | (_, value) :: rest => isIgnorable value && areIgnorableEntries rest

end

/-- Whether every value of a table whose key is not known may be ignored. -/
def unknownIgnorable (known : List String) (entries : Entries) : Bool :=
  areIgnorableEntries (entries.filter fun entry => !known.contains entry.1)

/-- A truth value. -/
def asBool? : Toml → Option Bool
  | bool value => some value
  | _ => none

/-- A text. -/
def asText? : Toml → Option String
  | string value => some value
  | _ => none

/-- The setting of a section with these keys: a table by key, a list by position.  A moment is a
table without any of the keys. -/
def settings? (keys : List String) : Toml → Option (List (Option Toml))
  | table _ entries =>
      if unknownIgnorable keys entries then
        some (keys.map fun key => entries.lookup key)
      else
        none
  | moment => some (keys.map fun _ => none)
  | list items =>
      some ((List.range keys.length).map fun i => items[i]?)
  | tables items =>
      let inOrder := items.reverse.map (Toml.table .header)
      some ((List.range keys.length).map fun i => inOrder[i]?)
  | _ => none

end Toml

namespace Config

/-- What a reader makes of a setting; a missing one keeps the default. -/
def setting {α : Type} (read : Toml → Option α) (default : α) : Option Toml → Option α
  | some value => read value
  | none => some default

/-- Read the strictness section. -/
def readStrictness (value : Toml) : Option Strictness := do
  match ← Toml.settings? ["enabled"] value with
  | [enabled] =>
      return { enabled := ← setting Toml.asBool? false enabled }
  | _ => none

/-- Read the section of the groups. -/
def readGroups (value : Toml) : Option Groups := do
  match ← Toml.settings? ["structure", "scripts", "frontmatter", "body"] value with
  | [layout, scripts, frontmatter, body] =>
      return {
        layout := ← setting Toml.asBool? true layout
        scripts := ← setting Toml.asBool? true scripts
        frontmatter := ← setting Toml.asBool? true frontmatter
        body := ← setting Toml.asBool? true body }
  | _ => none

/-- Read the section of the interpreters. -/
def readInterpreters (value : Toml) : Option Interpreters := do
  let defaults : Interpreters := {}
  match ← Toml.settings? ["python", "shell"] value with
  | [python, shell] =>
      return {
        python := ← setting Toml.asText? defaults.python python
        shell := ← setting Toml.asText? defaults.shell shell }
  | _ => none

/-- The configuration that a table stands for. -/
def ofEntries? (entries : Toml.Entries) : Option Config :=
  if Toml.unknownIgnorable ["strict", "checks", "interpreters"] entries then do
    return {
      strict := ← setting readStrictness {} (entries.lookup "strict")
      checks := ← setting readGroups {} (entries.lookup "checks")
      interpreters := ← setting readInterpreters {} (entries.lookup "interpreters") }
  else
    none

/-- The configuration that a text stands for. -/
def ofText? (text : String) : Option Config :=
  (Toml.document? text).bind ofEntries?

end Config
end SkillAudit
