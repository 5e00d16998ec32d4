/-!
# Searching in a text

Occurrence of one text in another, as a prefix or anywhere, with the two relations of the list
library that the tests decide.
-/

namespace SkillAudit
namespace Text

/-- Whether the text starts so. -/
def startsWith (start text : List Char) : Bool :=
  start.isPrefixOf text

/-- Whether the word stands anywhere in the text. -/
def occursIn (word : List Char) : List Char → Bool
  | [] => word.isEmpty
  | c :: rest => startsWith word (c :: rest) || occursIn word rest

/-- The text before and after the first occurrence of a character. -/
def cutAt? (mark : Char) : List Char → Option (List Char × List Char)
  | [] => none
  | c :: rest =>
      if c = mark then some ([], rest)
      else (cutAt? mark rest).map fun (front, back) => (c :: front, back)

/-- The start test decides the prefix relation. -/
theorem startsWith_iff
    {start text : List Char} :
    startsWith start text = true ↔ start <+: text :=
  List.isPrefixOf_iff_prefix

/-- A text is cut exactly at its first mark. -/
theorem cutAt?_eq_some_iff
    {mark : Char}
    {text front back : List Char} :
    cutAt? mark text = some (front, back) ↔ text = front ++ mark :: back ∧ mark ∉ front := by
  induction text generalizing front back with
  | nil =>
      simp [cutAt?]
  | cons c rest ih =>
      unfold cutAt?
      split
      · next h =>
          subst h
          cases front with
          | nil =>
              simp
          | cons d front =>
              simp only [Option.some.injEq, Prod.mk.injEq, List.nil_eq, reduceCtorEq, false_and,
                List.cons_append, List.cons.injEq, List.mem_cons, not_or, false_iff, not_and]
              rintro ⟨rfl, -⟩ hne
              exact absurd rfl hne
      · next h =>
          cases front with
          | nil =>
              simp [h]
          | cons d front =>
              simp only [Option.map_eq_some_iff, Prod.exists, ih, List.cons_append,
                Prod.mk.injEq, List.cons.injEq, List.mem_cons, not_or]
              constructor
              · rintro ⟨a, b, ⟨ha, hn⟩, ⟨rfl, rfl⟩, rfl⟩
                exact ⟨⟨rfl, ha⟩, Ne.symm h, hn⟩
              · rintro ⟨⟨rfl, ha⟩, -, hn⟩
                exact ⟨front, back, ⟨ha, hn⟩, ⟨rfl, rfl⟩, rfl⟩

/-- The occurrence test decides the infix relation. -/
theorem occursIn_iff
    {word text : List Char} :
    occursIn word text = true ↔ word <:+: text := by
  induction text with
  | nil =>
      simp [occursIn]
  | cons c rest ih =>
      rw [occursIn, Bool.or_eq_true, startsWith_iff, ih, List.infix_cons_iff]

end Text
end SkillAudit
