/-!
# Lines

Three views of a text as lines.  `segments` keeps each line feed with the line that it ends, so the
segments join to the text.  `lines` drops the terminators.  `splitOn` cuts at every separator and
drops nothing else, so a text with `n` separators has `n + 1` parts.
-/

namespace SkillAudit
namespace Text

/-- Cut after every line feed; no segment is empty. -/
def segments : List Char → List (List Char)
  | [] => []
  | c :: rest =>
      if c = '\n' then
        ['\n'] :: segments rest
      else
        match segments rest with
        | [] => [[c]]
        | line :: more => (c :: line) :: more

/-- Drop one line feed at the end, and with it one carriage return before it. -/
def dropTerminator (line : List Char) : List Char :=
  match line.reverse with
  | '\n' :: '\r' :: front => front.reverse
  | '\n' :: front => front.reverse
  | _ => line

/-- The lines without their terminators. -/
def lines (text : List Char) : List (List Char) :=
  (segments text).map dropTerminator

/-- Cut at every separator; the parts are what stands between. -/
def splitOn (separator : Char) : List Char → List (List Char)
  | [] => [[]]
  | c :: rest =>
      if c = separator then
        [] :: splitOn separator rest
      else
        match splitOn separator rest with
        | [] => [[c]]
        | part :: more => (c :: part) :: more

/-- The segments join to the text. -/
@[simp] theorem segments_flatten
    (text : List Char) :
    (segments text).flatten = text := by
  induction text with
  | nil =>
      rfl
  | cons c rest ih =>
      unfold segments
      split
      · next h =>
          simp [h, ih]
      · split
        · next h =>
            simp [h] at ih
            simp [← ih]
        · next h =>
            simp [h] at ih
            simp [← ih]

/-- There is always a first part. -/
theorem splitOn_ne_nil
    (separator : Char)
    (text : List Char) :
    splitOn separator text ≠ [] := by
  cases text with
  | nil =>
      simp [splitOn]
  | cons c rest =>
      unfold splitOn
      split
      · simp
      · split <;> simp

/-- One part more than there are separators. -/
theorem length_splitOn
    (separator : Char)
    (text : List Char) :
    (splitOn separator text).length = text.count separator + 1 := by
  induction text with
  | nil =>
      rfl
  | cons c rest ih =>
      unfold splitOn
      split
      · next h =>
          simp [h, ih]
      · next h =>
          split
          · next hnil =>
              exact absurd hnil (splitOn_ne_nil separator rest)
          · next part more hcons =>
              rw [hcons] at ih
              simpa [List.count_cons, h] using ih

end Text
end SkillAudit
