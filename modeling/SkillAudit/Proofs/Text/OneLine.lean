import SkillAudit.Proofs.Text.LineCuts

/-!
# Texts on one line

A text is on one line if it has no line feed.  Texts on one line, each with a line feed behind it,
are the lines of the text that they make together.

* `isOneLine_ofList`, `isOneLine_between`: fixed words by their letters, and texts between such
  words.
* `isOneLine_append`, `isOneLine_toString`, `isOneLine_counted`: texts that are put together, and
  numbers.
* `splitOn_endedLines`: ended lines are read back.
-/

namespace SkillAudit
namespace Text

/-- The text has no line feed. -/
def IsOneLine (text : String) : Prop :=
  '\n' ∉ text.toList

instance (text : String) : Decidable (IsOneLine text) :=
  inferInstanceAs (Decidable ('\n' ∉ text.toList))

section OneLine

@[simp] theorem isOneLine_append
    {front back : String} :
    IsOneLine (front ++ back) ↔ IsOneLine front ∧ IsOneLine back := by
  simp [IsOneLine]

/-- A text that is given by its letters is on one line if none of them is a line feed. -/
theorem isOneLine_ofList
    {letters : List Char}
    (hletters : '\n' ∉ letters) :
    IsOneLine (String.ofList letters) := by
  rwa [IsOneLine, String.toList_ofList]

/-- A text on one line stays so between words on one line. -/
theorem isOneLine_between
    {before after : List Char}
    {text : String}
    (hbefore : '\n' ∉ before)
    (hafter : '\n' ∉ after)
    (htext : IsOneLine text) :
    IsOneLine (String.ofList before ++ text ++ String.ofList after) :=
  isOneLine_append.2
    ⟨isOneLine_append.2 ⟨isOneLine_ofList hbefore, htext⟩, isOneLine_ofList hafter⟩

/-- A number is written with digits only. -/
theorem not_mem_toString
    {c : Char}
    (hc : c.isDigit = false)
    (n : Nat) :
    c ∉ (toString n).toList := by
  have hdigits : (toString n).toList = Nat.toDigits 10 n := by
    simp [toString, Nat.repr]
  intro hmem
  rw [hdigits] at hmem
  have hdigit := Nat.isDigit_of_mem_toDigits (by decide) (by decide) hmem
  rw [hc] at hdigit
  cases hdigit

/-- The digits of a number are on one line. -/
theorem isOneLine_toString
    (n : Nat) :
    IsOneLine (toString n) :=
  not_mem_toString (by decide) n

@[simp] theorem isOneLine_repr
    (n : Nat) :
    IsOneLine n.repr :=
  isOneLine_toString n

/-- Two numbers between words on one line are on one line. -/
theorem isOneLine_counted
    {before between after : List Char}
    (hbefore : '\n' ∉ before)
    (hbetween : '\n' ∉ between)
    (hafter : '\n' ∉ after)
    (count bound : Nat) :
    IsOneLine (String.ofList before ++ toString count ++ String.ofList between ++
      toString bound ++ String.ofList after) := by
  have hfirst := isOneLine_between hbefore hbetween (isOneLine_toString count)
  exact isOneLine_append.2
    ⟨isOneLine_append.2 ⟨hfirst, isOneLine_toString bound⟩, isOneLine_ofList hafter⟩

/-- Ended lines are read back; behind the last line feed there is nothing more. -/
theorem splitOn_endedLines
    {lines : List String}
    (hlines : ∀ line ∈ lines, IsOneLine line) :
    splitOn '\n' (lines.flatMap fun line => line.toList ++ ['\n']) =
      lines.map String.toList ++ [[]] := by
  induction lines with
  | nil =>
      rfl
  | cons line more ih =>
      obtain ⟨hline, hmore⟩ := List.forall_mem_cons.1 hlines
      rw [List.flatMap_cons, List.append_assoc, List.singleton_append, splitOn_append_cons,
        splitOn_of_not_mem hline, ih hmore, List.map_cons, List.singleton_append, List.cons_append]

end OneLine

end Text
end SkillAudit
