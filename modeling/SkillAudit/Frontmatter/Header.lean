/-!
# Headers

A header maps keys to fields.  Its keys stand in the order of their first insertion; a key that is
inserted again keeps its place and takes the new field.

The lemmas describe insertion through the two views `keys` and `field?`.
-/

namespace SkillAudit

/-- The value of a key. -/
structure Field where
  /-- The value as it is written, without the blanks around it. -/
  raw : String
  /-- The written value without one layer of quotes. -/
  value : String
  deriving DecidableEq, Repr

/-- The fields of a header block with their keys. -/
structure Header where
  fields : List (String × Field)
  deriving DecidableEq, Repr

namespace Header

/-- The header without fields. -/
def empty : Header :=
  ⟨[]⟩

/-- Put a field at the place of its key, or at the end for a new key. -/
def insertField (key : String) (field : Field) :
    List (String × Field) → List (String × Field)
  | [] => [(key, field)]
  | (k, old) :: rest =>
      if k = key then (key, field) :: rest else (k, old) :: insertField key field rest

/-- Insert a field under a key. -/
def insert (header : Header) (key : String) (field : Field) : Header :=
  ⟨insertField key field header.fields⟩

/-- The field of a key. -/
def field? (header : Header) (key : String) : Option Field :=
  header.fields.lookup key

/-- The value of a key. -/
def get? (header : Header) (key : String) : Option String :=
  (header.field? key).map (·.value)

/-- The value of a key, unless it is empty. -/
def nonEmpty? (header : Header) (key : String) : Option String :=
  (header.get? key).filter (· != "")

/-- The keys in order. -/
def keys (header : Header) : List String :=
  header.fields.map (·.1)

/-- The number of keys. -/
def size (header : Header) : Nat :=
  header.fields.length

/-- Whether there is no key. -/
def isEmpty (header : Header) : Bool :=
  header.fields.isEmpty

/-- The header of a sequence of insertions. -/
def ofEntries (entries : List (String × Field)) : Header :=
  entries.foldl (fun header (key, field) => header.insert key field) empty

/-- An inserted field is found under its key. -/
theorem field?_insert_self
    (header : Header)
    (key : String)
    (field : Field) :
    (header.insert key field).field? key = some field := by
  obtain ⟨fields⟩ := header
  simp only [insert, field?]
  induction fields with
  | nil =>
      simp [insertField]
  | cons entry rest ih =>
      obtain ⟨k, old⟩ := entry
      unfold insertField
      split
      · simp
      · next hne =>
          simp [List.lookup_cons, beq_eq_false_iff_ne.2 (Ne.symm hne), ih]

/-- The fields of the other keys stay. -/
theorem field?_insert_of_ne
    {key other : String}
    (hne : other ≠ key)
    (header : Header)
    (field : Field) :
    (header.insert key field).field? other = header.field? other := by
  obtain ⟨fields⟩ := header
  simp only [insert, field?]
  induction fields with
  | nil =>
      simp [insertField, List.lookup_cons, beq_eq_false_iff_ne.2 hne]
  | cons entry rest ih =>
      obtain ⟨k, old⟩ := entry
      unfold insertField
      split
      · next h =>
          simp [List.lookup_cons, h, beq_eq_false_iff_ne.2 hne]
      · simp only [List.lookup_cons, ih]

/-- A key that is there keeps its place; a new key comes last. -/
theorem keys_insert
    (header : Header)
    (key : String)
    (field : Field) :
    (header.insert key field).keys =
      if key ∈ header.keys then header.keys else header.keys ++ [key] := by
  obtain ⟨fields⟩ := header
  simp only [insert, keys]
  induction fields with
  | nil =>
      simp [insertField]
  | cons entry rest ih =>
      obtain ⟨k, old⟩ := entry
      unfold insertField
      split
      · next h =>
          simp [h]
      · next h =>
          by_cases hmem : key ∈ rest.map (·.1)
          · simp only [List.map_cons, ih, List.mem_cons, hmem, or_true, if_true]
          · simp only [List.map_cons, ih, List.mem_cons, hmem, Ne.symm h, or_self, if_false,
              List.cons_append]

end Header
end SkillAudit
