/-!
# JSON values

The values that reports are made of.  The fields of an object stand in the order in which they are
written.
-/

namespace SkillAudit

/-- A JSON value; numbers are natural. -/
inductive Json where
  | null
  | bool (value : Bool)
  | number (value : Nat)
  | text (value : String)
  | list (items : List Json)
  | object (fields : List (String × Json))
  deriving Inhabited

namespace Json

/-- The value of an optional text. -/
def ofOption : Option String → Json
  | some value => .text value
  | none => .null

/-- The value under a key of an object. -/
def get? (key : String) : Json → Option Json
  | object fields => fields.lookup key
  | _ => none

@[simp] theorem get?_object
    (key : String)
    (fields : List (String × Json)) :
    (object fields).get? key = fields.lookup key := by
  rfl

end Json
end SkillAudit
