/-!
# Parts of a text between byte offsets

An offset into a text counts bytes of its UTF-8 form.  A text can be cut only at an offset that lies
in it and between two characters; at any other offset there is no part to give.

* `splitAtByte?_eq_some_iff`, `slice?_eq_some_iff`: what a cut gives, and when it is possible.
* `isValid_byteLength`: offsets at which a text can be cut are valid positions in it.
-/

namespace SkillAudit
namespace Text

/-- The number of bytes of a text. -/
def byteLength : List Char → Nat
  | [] => 0
  | c :: rest => c.utf8Size + byteLength rest

/-- The text before and the text after a byte offset. -/
def splitAtByte? : Nat → List Char → Option (List Char × List Char)
  | 0, text => some ([], text)
  | _ + 1, [] => none
  | n + 1, c :: rest =>
      if c.utf8Size ≤ n + 1 then
        (splitAtByte? (n + 1 - c.utf8Size) rest).map fun (front, back) => (c :: front, back)
      else
        none

/-- The text from one byte offset to another. -/
def slice? (start stop : Nat) (text : List Char) : Option (List Char) :=
  if start ≤ stop then do
    let (_, back) ← splitAtByte? start text
    let (part, _) ← splitAtByte? (stop - start) back
    return part
  else
    none

@[simp] theorem byteLength_nil :
    byteLength [] = 0 :=
  rfl

@[simp] theorem byteLength_cons
    (c : Char)
    (rest : List Char) :
    byteLength (c :: rest) = c.utf8Size + byteLength rest :=
  rfl

@[simp] theorem byteLength_append
    (front back : List Char) :
    byteLength (front ++ back) = byteLength front + byteLength back := by
  induction front with
  | nil =>
      simp
  | cons c rest ih =>
      rw [List.cons_append, byteLength_cons, byteLength_cons, ih, Nat.add_assoc]

/-- The bytes are those of the string with these characters. -/
theorem utf8ByteSize_ofList
    (text : List Char) :
    (String.ofList text).utf8ByteSize = byteLength text := by
  induction text with
  | nil =>
      simp
  | cons c rest ih =>
      have hcons : String.ofList (c :: rest) = String.ofList [c] ++ String.ofList rest := by
        rw [← String.ofList_append, List.singleton_append]
      rw [hcons, String.utf8ByteSize_append, ih]
      simp

/-- The end of a start of a text lies in the text and between two characters. -/
theorem isValid_byteLength
    (front back : List Char) :
    (⟨byteLength front⟩ : String.Pos.Raw).IsValid (String.ofList (front ++ back)) := by
  refine String.Pos.Raw.isValid_iff_exists_append.2
    ⟨String.ofList front, String.ofList back, String.ofList_append, ?_⟩
  rw [String.Pos.Raw.ext_iff, String.byteIdx_rawEndPos, utf8ByteSize_ofList]

/-- Only the empty text has no bytes. -/
theorem byteLength_eq_zero_iff
    {text : List Char} :
    byteLength text = 0 ↔ text = [] := by
  cases text with
  | nil =>
      simp
  | cons c rest =>
      have hpos := c.utf8Size_pos
      simp only [byteLength_cons, reduceCtorEq, iff_false]
      omega

/-- Before the first byte there is nothing. -/
theorem splitAtByte?_zero
    (text : List Char) :
    splitAtByte? 0 text = some ([], text) := by
  cases text <;> rfl

/-- A text can be cut at an offset exactly if a start of it has so many bytes. -/
theorem splitAtByte?_eq_some_iff
    {n : Nat}
    {text front back : List Char} :
    splitAtByte? n text = some (front, back) ↔
      text = front ++ back ∧ byteLength front = n := by
  induction text generalizing n front back with
  | nil =>
      cases n with
      | zero =>
          simp only [splitAtByte?_zero, Option.some.injEq, Prod.mk.injEq,
            byteLength_eq_zero_iff]
          constructor
          · rintro ⟨rfl, rfl⟩
            exact ⟨rfl, rfl⟩
          · rintro ⟨h, rfl⟩
            exact ⟨rfl, h⟩
      | succ n =>
          simp only [splitAtByte?, reduceCtorEq, false_iff, not_and]
          intro h
          simp [(List.append_eq_nil_iff.1 h.symm).1]
  | cons c rest ih =>
      have hpos := c.utf8Size_pos
      cases n with
      | zero =>
          cases front with
          | nil =>
              simp [splitAtByte?_zero, eq_comm]
          | cons d front =>
              simp only [splitAtByte?_zero, Option.some.injEq, Prod.mk.injEq, reduceCtorEq,
                false_and, byteLength_cons, false_iff, not_and]
              intro _ hlength
              have := d.utf8Size_pos
              omega
      | succ n =>
          cases front with
          | nil =>
              simp [splitAtByte?]
          | cons d front =>
              simp only [splitAtByte?, Option.ite_none_right_eq_some, Option.map_eq_some_iff,
                Prod.exists, ih, Prod.mk.injEq, List.cons.injEq, List.cons_append,
                byteLength_cons]
              constructor
              · rintro ⟨hfits, a, b, ⟨hrest, hlength⟩, ⟨rfl, rfl⟩, rfl⟩
                exact ⟨⟨rfl, hrest⟩, by omega⟩
              · rintro ⟨⟨rfl, hrest⟩, hlength⟩
                exact ⟨by omega, front, back, ⟨hrest, by omega⟩, ⟨rfl, rfl⟩, rfl⟩

/-- A part can be cut out exactly if it stands between the two offsets. -/
theorem slice?_eq_some_iff
    {start stop : Nat}
    {text part : List Char} :
    slice? start stop text = some part ↔
      ∃ before after, text = before ++ (part ++ after) ∧
        byteLength before = start ∧ start + byteLength part = stop := by
  unfold slice?
  constructor
  · intro h
    split at h
    · next hle =>
        simp only [Option.bind_eq_bind, Option.bind_eq_some_iff, Prod.exists,
          splitAtByte?_eq_some_iff, Option.pure_def, Option.some.injEq] at h
        obtain ⟨before, back, ⟨rfl, hbefore⟩, part', after, ⟨rfl, hpart⟩, rfl⟩ := h
        exact ⟨before, after, rfl, hbefore, by omega⟩
    · cases h
  · rintro ⟨before, after, rfl, rfl, rfl⟩
    have hfirst :
        splitAtByte? (byteLength before) (before ++ (part ++ after)) =
          some (before, part ++ after) :=
      splitAtByte?_eq_some_iff.2 ⟨rfl, rfl⟩
    have hsecond :
        splitAtByte? (byteLength part) (part ++ after) = some (part, after) :=
      splitAtByte?_eq_some_iff.2 ⟨rfl, rfl⟩
    simp [hfirst, hsecond]

end Text
end SkillAudit
