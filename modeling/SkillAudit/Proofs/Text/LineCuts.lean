import Mathlib.Data.List.Infix
import SkillAudit.Text.Lines

/-!
# The lines between line feeds

A text that is cut at its line feeds falls into the lines between them and the ends of the text.
Where two texts are joined, the last line of the one goes on with the first line of the other.

* `splitOn_append_cons`: a text with a separator in it is cut on both sides of it.
* `map_ofList_splitOn_eq_iff`: cutting undoes joining, and joining undoes cutting.
* `mem_splitOn_iff`: the lines of a text, said without cutting it.
* `splitOn_append`: the lines of two texts that are joined.
-/

namespace SkillAudit
namespace Text

section Cuts

theorem splitOn_append_cons
    (separator : Char)
    (front back : List Char) :
    splitOn separator (front ++ separator :: back) =
      splitOn separator front ++ splitOn separator back := by
  induction front with
  | nil =>
      simp [splitOn]
  | cons c front ih =>
      by_cases hc : c = separator
      · simp only [List.cons_append, splitOn, if_pos hc, ih]
      · obtain ⟨part, more, hfront⟩ := List.exists_cons_of_ne_nil (splitOn_ne_nil separator front)
        simp only [List.cons_append, splitOn, if_neg hc, ih, hfront]

theorem splitOn_of_not_mem
    {separator : Char}
    {text : List Char}
    (h : separator ∉ text) :
    splitOn separator text = [text] := by
  induction text with
  | nil =>
      rfl
  | cons c rest ih =>
      obtain ⟨hc, hrest⟩ := not_or.1 (List.mem_cons.not.1 h)
      simp only [splitOn, if_neg (Ne.symm hc), ih hrest]

/-- The cut is that of the list library. -/
theorem splitOn_eq_list_splitOn
    (separator : Char)
    (text : List Char) :
    splitOn separator text = text.splitOn separator := by
  induction text with
  | nil =>
      rfl
  | cons c rest ih =>
      rw [List.splitOn_cons_eq_if_modifyHead, ← ih]
      by_cases hc : c = separator
      · rw [splitOn, if_pos hc, if_pos (beq_iff_eq.2 hc)]
      · obtain ⟨part, more, hrest⟩ := List.exists_cons_of_ne_nil (splitOn_ne_nil separator rest)
        simp only [splitOn, if_neg hc, beq_iff_eq, hrest, List.modifyHead_cons]

/-- Parts that are joined with separators are found again. -/
theorem splitOn_intercalate
    {separator : Char}
    {parts : List (List Char)}
    (hparts : parts ≠ [])
    (h : ∀ part ∈ parts, separator ∉ part) :
    splitOn separator ([separator].intercalate parts) = parts := by
  rw [splitOn_eq_list_splitOn, List.splitOn_intercalate separator h hparts]

theorem intercalate_splitOn
    (separator : Char)
    (text : List Char) :
    [separator].intercalate (splitOn separator text) = text := by
  rw [splitOn_eq_list_splitOn, List.intercalate_splitOn]

/-- The parts are free of the separator. -/
theorem not_mem_of_mem_splitOn
    {separator : Char}
    {text part : List Char}
    (h : part ∈ splitOn separator text) :
    separator ∉ part := by
  induction text generalizing part with
  | nil =>
      rw [List.mem_singleton.1 h]
      exact List.not_mem_nil
  | cons c rest ih =>
      by_cases hc : c = separator
      · rw [splitOn, if_pos hc] at h
        rcases List.mem_cons.1 h with rfl | h
        · exact List.not_mem_nil
        · exact ih h
      · obtain ⟨first, more, hrest⟩ := List.exists_cons_of_ne_nil (splitOn_ne_nil separator rest)
        simp only [splitOn, if_neg hc, hrest, List.mem_cons] at h
        rw [hrest] at ih
        rcases h with rfl | h
        · rw [List.mem_cons, not_or]
          exact ⟨Ne.symm hc, ih List.mem_cons_self⟩
        · exact ih (List.mem_cons_of_mem _ h)

/-- The parts into which a text is cut are the texts without a separator of which it is joined. -/
theorem map_ofList_splitOn_eq_iff
    {separator : Char}
    {joiner text : String}
    {parts : List String}
    (hjoiner : joiner.toList = [separator]) :
    (splitOn separator text.toList).map String.ofList = parts ↔
      parts ≠ [] ∧ (∀ part ∈ parts, separator ∉ part.toList) ∧ text = joiner.intercalate parts := by
  constructor
  · rintro rfl
    refine ⟨?_, ?_, ?_⟩
    · rw [Ne, List.map_eq_nil_iff]
      exact splitOn_ne_nil separator text.toList
    · intro part hpart
      obtain ⟨letters, hletters, rfl⟩ := List.mem_map.1 hpart
      rw [String.toList_ofList]
      exact not_mem_of_mem_splitOn hletters
    · have hletters : ((splitOn separator text.toList).map String.ofList).map String.toList =
          splitOn separator text.toList := by
        rw [List.map_map]
        exact (List.map_congr_left fun _ _ => String.toList_ofList).trans (List.map_id _)
      rw [← String.toList_inj, String.toList_intercalate, hjoiner, hletters, intercalate_splitOn]
  · rintro ⟨hparts, hseparator, rfl⟩
    have hletters : ∀ letters ∈ parts.map String.toList, separator ∉ letters := by
      intro letters hmem
      obtain ⟨part, hpart, rfl⟩ := List.mem_map.1 hmem
      exact hseparator part hpart
    have hsome : parts.map String.toList ≠ [] := by
      simpa using hparts
    rw [String.toList_intercalate, hjoiner, splitOn_intercalate hsome hletters, List.map_map]
    exact (List.map_congr_left fun _ _ => String.ofList_toList).trans (List.map_id _)

end Cuts

section Lines

variable {line text : List Char}

/-- The line stands in the text with a line feed or an end of the text on each side. -/
def IsLineOf (line text : List Char) : Prop :=
  '\n' ∉ line ∧
    ∃ before after, text = before ++ (line ++ after) ∧
      (before = [] ∨ before.getLast? = some '\n') ∧
      (after = [] ∨ after.head? = some '\n')

theorem isLineOf_of_mem_splitOn
    (h : line ∈ splitOn '\n' text) :
    IsLineOf line text := by
  induction hlength : text.length using Nat.strong_induction_on generalizing text with
  | _ n ih =>
      by_cases hfeed : '\n' ∈ text
      · -- The text is cut at its first line feed; the other lines are those of what stands behind.
        obtain ⟨front, back, rfl, hfront⟩ := List.eq_append_cons_of_mem hfeed
        rw [splitOn_append_cons, splitOn_of_not_mem hfront, List.singleton_append] at h
        rcases List.mem_cons.1 h with rfl | h
        · exact ⟨hfront, [], '\n' :: back, rfl, Or.inl rfl, Or.inr rfl⟩
        · have hshorter : back.length < n := by
            rw [← hlength, List.length_append, List.length_cons]
            omega
          obtain ⟨hline, before, after, rfl, hbefore, hafter⟩ := ih back.length hshorter h rfl
          refine ⟨hline, front ++ '\n' :: before, after, by simp, Or.inr ?_, hafter⟩
          rcases hbefore with rfl | hbefore
          · exact List.getLast?_concat
          · rw [List.getLast?_append, List.getLast?_cons, hbefore]
            rfl
      · rw [splitOn_of_not_mem hfeed, List.mem_singleton] at h
        subst h
        exact ⟨hfeed, [], [], by simp, Or.inl rfl, Or.inl rfl⟩

/-- The lines of a text are what is left when it is cut at its line feeds. -/
theorem mem_splitOn_iff :
    line ∈ splitOn '\n' text ↔ IsLineOf line text := by
  refine ⟨isLineOf_of_mem_splitOn, ?_⟩
  rintro ⟨hline, before, after, rfl, hbefore, hafter⟩
  have hfirst : line ∈ splitOn '\n' (line ++ after) := by
    rcases hafter with rfl | hafter
    · rw [List.append_nil, splitOn_of_not_mem hline]
      exact List.mem_singleton_self line
    · obtain ⟨rest, rfl⟩ := List.head?_eq_some_iff.1 hafter
      rw [splitOn_append_cons, splitOn_of_not_mem hline]
      exact List.mem_append_left _ (List.mem_singleton_self line)
  rcases hbefore with rfl | hbefore
  · exact hfirst
  · obtain ⟨above, rfl⟩ := List.getLast?_eq_some_iff.1 hbefore
    rw [List.append_assoc, List.singleton_append, splitOn_append_cons]
    exact List.mem_append_right _ hfirst

/-- Where two texts are joined, the last part of the one and the first part of the other are one. -/
theorem splitOn_append
    (separator : Char)
    (front back : List Char) :
    ∃ above last first below,
      splitOn separator front = above ++ [last] ∧
      splitOn separator back = first :: below ∧
      splitOn separator (front ++ back) = above ++ (last ++ first) :: below := by
  induction front with
  | nil =>
      obtain ⟨first, below, hback⟩ := List.exists_cons_of_ne_nil (splitOn_ne_nil separator back)
      exact ⟨[], [], first, below, rfl, hback, hback⟩
  | cons c rest ih =>
      obtain ⟨above, last, first, below, hrest, hback, hjoined⟩ := ih
      by_cases hc : c = separator
      · refine ⟨[] :: above, last, first, below, ?_, hback, ?_⟩
        · rw [splitOn, if_pos hc, hrest, List.cons_append]
        · rw [List.cons_append, splitOn, if_pos hc, hjoined, List.cons_append]
      · cases above with
        | nil =>
            refine ⟨[], c :: last, first, below, ?_, hback, ?_⟩
            · simp only [splitOn, if_neg hc, hrest, List.nil_append]
            · simp only [List.cons_append, splitOn, if_neg hc, hjoined, List.nil_append]
        | cons part parts =>
            refine ⟨(c :: part) :: parts, last, first, below, ?_, hback, ?_⟩
            · simp only [splitOn, if_neg hc, hrest, List.cons_append]
            · simp only [List.cons_append, splitOn, if_neg hc, hjoined]

end Lines

end Text
end SkillAudit
