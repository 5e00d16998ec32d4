import Mathlib.Data.List.Infix
import SkillAudit.Proofs.Text.Trimming

/-!
# Where a word can stand

A word without a mark stands on one side of each mark in a text.  A word that neither begins nor
ends with a blank does not reach into the blanks around a text, so trimming loses none of its
occurrences.

* `infix_append_cons_iff`: before a mark or behind it.
* `infix_trimEnd_iff`, `infix_trim_iff`: in a text and in the trimmed text.
-/

namespace SkillAudit
namespace Text

section Occurrences

variable {word : List Char}

/-- A word without a mark stands before the mark or behind it. -/
theorem infix_append_cons_iff
    {mark : Char}
    (hmark : mark ∉ word)
    {front back : List Char} :
    word <:+: front ++ mark :: back ↔ word <:+: front ∨ word <:+: back := by
  constructor
  · intro h
    rcases List.infix_append_iff.1 h with hfront | hback | ⟨left, right, rfl, hleft, hright⟩
    · exact Or.inl hfront
    · rcases List.infix_cons_iff.1 hback with hstart | hback
      · rcases List.prefix_cons_iff.1 hstart with rfl | ⟨rest, rfl, -⟩
        · exact Or.inl List.nil_infix
        · exact absurd List.mem_cons_self hmark
      · exact Or.inr hback
    · -- What reaches over the end of the front starts with the mark.
      rcases List.prefix_cons_iff.1 hright with rfl | ⟨rest, rfl, -⟩
      · rw [List.append_nil]
        exact Or.inl hleft.isInfix
      · exact absurd (List.mem_append_right left List.mem_cons_self) hmark
  · rintro (hfront | hback)
    · exact hfront.trans (List.prefix_append front _).isInfix
    · exact (hback.trans (List.suffix_cons mark back).isInfix).trans
        (List.suffix_append front _).isInfix

/-- Blanks in front of a text have no part in a word that does not begin with one. -/
theorem infix_blanks_append_iff
    (hword : ∀ c, word.head? = some c → isBlank c = false)
    {before : List Char}
    (hbefore : ∀ c ∈ before, isBlank c = true)
    (text : List Char) :
    word <:+: before ++ text ↔ word <:+: text := by
  induction before with
  | nil =>
      rw [List.nil_append]
  | cons c rest ih =>
      obtain ⟨hc, hrest⟩ := List.forall_mem_cons.1 hbefore
      rw [List.cons_append, List.infix_cons_iff, ih hrest]
      refine or_iff_right_of_imp fun hstart => ?_
      rcases List.prefix_cons_iff.1 hstart with rfl | ⟨more, rfl, -⟩
      · exact List.nil_infix
      · rw [hword c rfl] at hc
        cases hc

/-- Blanks behind a text have no part in a word that does not end with one. -/
theorem infix_append_blanks_iff
    (hword : ∀ c, word.getLast? = some c → isBlank c = false)
    {after : List Char}
    (hafter : ∀ c ∈ after, isBlank c = true)
    (text : List Char) :
    word <:+: text ++ after ↔ word <:+: text := by
  have hhead : ∀ c, word.reverse.head? = some c → isBlank c = false := by
    intro c hc
    rw [List.head?_reverse] at hc
    exact hword c hc
  have hblanks : ∀ c ∈ after.reverse, isBlank c = true :=
    fun c hc => hafter c (List.mem_reverse.1 hc)
  rw [← List.reverse_infix, List.reverse_append, infix_blanks_append_iff hhead hblanks,
    List.reverse_infix]

/-- A word that does not end with a blank is not cut off when the blanks at the end are dropped. -/
theorem infix_trimEnd_iff
    (hword : ∀ c, word.getLast? = some c → isBlank c = false)
    (text : List Char) :
    word <:+: trimEnd text ↔ word <:+: text := by
  have hparts : trimEnd text ++ text.rtakeWhile isBlank = text :=
    List.rdropWhile_append_rtakeWhile
  have hblanks : ∀ c ∈ text.rtakeWhile isBlank, isBlank c = true :=
    fun c hc => List.mem_rtakeWhile_imp hc
  rw [← infix_append_blanks_iff hword hblanks, hparts]

/-- A word that neither begins nor ends with a blank stands in a text exactly if it stands in the
trimmed text. -/
theorem infix_trim_iff
    (hword : ∀ c, word.head? = some c ∨ word.getLast? = some c → isBlank c = false)
    (text : List Char) :
    word <:+: trim text ↔ word <:+: text := by
  have hblanks : ∀ c ∈ text.takeWhile isBlank, isBlank c = true :=
    fun c hc => List.mem_takeWhile_imp hc
  rw [trim, infix_trimEnd_iff fun c hc => hword c (Or.inr hc),
    ← infix_blanks_append_iff (fun c hc => hword c (Or.inl hc)) hblanks,
    List.takeWhile_append_dropWhile]

end Occurrences

end Text
end SkillAudit
