import SkillAudit.Text.Lines

/-!
# The segments of a text

A line is ended if its only line feed is its last character.  A text is a sequence of ended lines,
after which at most one line without a line feed stands.  This module relates the cut of a text to
such sequences.

* `segments_append`: a text that is empty or ends with a line feed is cut apart from what follows.
* `segments_flatten_append`: ended lines in front of a text are its first segments.
* `isEndedLine_or_of_mem_segments`: a segment is an ended line or has no line feed.
* `isEndedLine_of_mem_of_segments`: every segment but the last one is an ended line.
* `segments_flatten_of_append`: what follows some segments has the remaining segments.
* `eq_dropTerminator_append`: the terminator of a line is a line feed, perhaps after a carriage
  return.
* `not_mem_of_mem_lines`: the lines of a text are free of line feeds.
* `lines_flatten_ended`: lines that are written one by one are read back.
-/

namespace SkillAudit
namespace Text

section Segments

/-- A line with the line feed that ends it, and with no other one. -/
def IsEndedLine (line : List Char) : Prop :=
  ∃ front, '\n' ∉ front ∧ line = front ++ ['\n']

/-- An ended line stands alone as a segment of the text that it opens. -/
theorem segments_line_append
    {line : List Char}
    (hline : IsEndedLine line)
    (rest : List Char) :
    segments (line ++ rest) = line :: segments rest := by
  obtain ⟨front, hfront, rfl⟩ := hline
  induction front with
  | nil =>
      simp [segments]
  | cons c front ih =>
      have hc : c ≠ '\n' := by
        rintro rfl
        exact hfront List.mem_cons_self
      have hrest := ih fun hmem => hfront (List.mem_cons_of_mem c hmem)
      rw [List.append_assoc] at hrest ⊢
      rw [List.cons_append, segments, if_neg hc, hrest]
      rfl

/-- A text that is empty or ends with a line feed is cut apart from what follows. -/
theorem segments_append
    {front : List Char}
    (hfront : front = [] ∨ front.getLast? = some '\n')
    (rest : List Char) :
    segments (front ++ rest) = segments front ++ segments rest := by
  induction front with
  | nil =>
      rfl
  | cons c more ih =>
      have hmore : more = [] ∨ more.getLast? = some '\n' := by
        cases more with
        | nil => exact Or.inl rfl
        | cons d more =>
            rw [List.getLast?_cons_cons] at hfront
            exact Or.inr (hfront.resolve_left (List.cons_ne_nil _ _))
      rw [List.cons_append, segments, segments, ih hmore]
      by_cases hc : c = '\n'
      · rw [if_pos hc, if_pos hc, List.cons_append]
      · rw [if_neg hc, if_neg hc]
        cases hlines : segments more with
        | nil =>
            -- Then `c` would be the last character, which is a line feed.
            have hnil := segments_flatten more
            rw [hlines] at hnil
            rw [← hnil] at hfront
            simp [hc] at hfront
        | cons line lines =>
            rfl

/-- Ended lines in front of a text are its first segments. -/
theorem segments_flatten_append
    {lines : List (List Char)}
    (hlines : ∀ line ∈ lines, IsEndedLine line)
    (rest : List Char) :
    segments (lines.flatten ++ rest) = lines ++ segments rest := by
  induction lines with
  | nil =>
      rfl
  | cons line more ih =>
      obtain ⟨hline, hmore⟩ := List.forall_mem_cons.1 hlines
      rw [List.flatten_cons, List.append_assoc, segments_line_append hline, ih hmore,
        List.cons_append]

/-- The text after the first segment has the remaining segments. -/
theorem segments_flatten_tail
    {text line : List Char}
    {more : List (List Char)}
    (h : segments text = line :: more) :
    segments more.flatten = more := by
  induction text generalizing line with
  | nil =>
      cases h
  | cons c rest ih =>
      unfold segments at h
      split at h
      · cases h
        rw [segments_flatten]
      · split at h
        · next hrest =>
            cases h
            rfl
        · next hrest =>
            cases h
            exact ih hrest

theorem segments_flatten_of_append
    {text : List Char}
    {lines more : List (List Char)}
    (h : segments text = lines ++ more) :
    segments more.flatten = more := by
  induction lines generalizing text with
  | nil =>
      rw [List.nil_append] at h
      rw [← h, segments_flatten]
  | cons line lines ih =>
      exact ih (segments_flatten_tail h)

/-- A segment is an ended line or has no line feed at all. -/
theorem isEndedLine_or_of_mem_segments
    {text line : List Char}
    (h : line ∈ segments text) :
    IsEndedLine line ∨ '\n' ∉ line := by
  induction text generalizing line with
  | nil =>
      cases h
  | cons c rest ih =>
      unfold segments at h
      split at h
      · rcases List.mem_cons.1 h with rfl | h
        · exact Or.inl ⟨[], List.not_mem_nil, rfl⟩
        · exact ih h
      · next hc =>
          have hcons : ∀ front : List Char, '\n' ∉ front → '\n' ∉ c :: front := by
            intro front hfront
            rw [List.mem_cons, not_or]
            exact ⟨fun hsame => hc hsame.symm, hfront⟩
          split at h
          · rw [List.mem_singleton.1 h]
            exact Or.inr (hcons [] List.not_mem_nil)
          · next first more hrest =>
              rw [hrest] at ih
              rcases List.mem_cons.1 h with rfl | h
              · rcases ih List.mem_cons_self with ⟨front, hfront, rfl⟩ | hfirst
                · exact Or.inl ⟨c :: front, hcons front hfront, rfl⟩
                · exact Or.inr (hcons first hfirst)
              · exact ih (List.mem_cons_of_mem first h)

/-- A segment behind which another one stands is an ended line. -/
theorem isEndedLine_of_segments_eq_cons
    {text line next : List Char}
    {more : List (List Char)}
    (h : segments text = line :: next :: more) :
    IsEndedLine line := by
  induction text generalizing line with
  | nil =>
      cases h
  | cons c rest ih =>
      unfold segments at h
      split at h
      · rw [← (List.cons.inj h).1]
        exact ⟨[], List.not_mem_nil, rfl⟩
      · next hc =>
          split at h
          · cases h
          · next first others hrest =>
              obtain ⟨rfl, rfl⟩ := List.cons.inj h
              obtain ⟨front, hfront, rfl⟩ := ih hrest
              refine ⟨c :: front, ?_, rfl⟩
              rw [List.mem_cons, not_or]
              exact ⟨fun hsame => hc hsame.symm, hfront⟩

/-- Every segment of a text but the last one is an ended line. -/
theorem isEndedLine_of_mem_of_segments
    {text last : List Char}
    {lines more : List (List Char)}
    (h : segments text = lines ++ last :: more) :
    ∀ line ∈ lines, IsEndedLine line := by
  induction lines generalizing text with
  | nil =>
      exact List.forall_mem_nil _
  | cons line lines ih =>
      refine List.forall_mem_cons.2 ⟨?_, ih (segments_flatten_tail h)⟩
      cases lines with
      | nil => exact isEndedLine_of_segments_eq_cons h
      | cons next lines => exact isEndedLine_of_segments_eq_cons h

/-- What is dropped from the end of a line are a carriage return and a line feed at most. -/
theorem eq_dropTerminator_append
    (line : List Char) :
    line = dropTerminator line ++ ['\r', '\n'] ∨
    line = dropTerminator line ++ ['\n'] ∨
    line = dropTerminator line ∧ line.getLast? ≠ some '\n' := by
  unfold dropTerminator
  split
  · next front hreverse =>
      refine Or.inl ?_
      rw [← List.reverse_reverse line, hreverse]
      simp
  · next front _ hreverse =>
      refine Or.inr (Or.inl ?_)
      rw [← List.reverse_reverse line, hreverse]
      simp
  · next hother =>
      refine Or.inr (Or.inr ⟨rfl, ?_⟩)
      intro hlast
      rw [List.getLast?_eq_head?_reverse] at hlast
      obtain ⟨front, hfront⟩ := List.head?_eq_some_iff.1 hlast
      exact hother front hfront

/-- A line feed behind a line without carriage returns is dropped alone. -/
theorem dropTerminator_append_lineFeed
    {line : List Char}
    (h : '\r' ∉ line) :
    dropTerminator (line ++ ['\n']) = line := by
  rcases eq_dropTerminator_append (line ++ ['\n']) with hcut | hcut | ⟨-, hlast⟩
  · have hsame : line = dropTerminator (line ++ ['\n']) ++ ['\r'] :=
      List.append_cancel_right (hcut.trans (by simp))
    rw [hsame] at h
    exact absurd (List.mem_append_right _ (List.mem_singleton_self _)) h
  · exact (List.append_cancel_right hcut).symm
  · exact absurd List.getLast?_concat hlast

theorem dropTerminator_isPrefix
    (line : List Char) :
    dropTerminator line <+: line := by
  rcases eq_dropTerminator_append line with h | h | ⟨h, -⟩
  · exact ⟨_, h.symm⟩
  · exact ⟨_, h.symm⟩
  · exact ⟨[], by rw [List.append_nil, ← h]⟩

/-- Without its terminator, a segment is free of line feeds. -/
theorem not_mem_dropTerminator
    {text line : List Char}
    (h : line ∈ segments text) :
    '\n' ∉ dropTerminator line := by
  rcases isEndedLine_or_of_mem_segments h with ⟨front, hfront, rfl⟩ | hline
  · rcases eq_dropTerminator_append (front ++ ['\n']) with hcut | hcut | ⟨-, hlast⟩
    · have hsame : front = dropTerminator (front ++ ['\n']) ++ ['\r'] :=
        List.append_cancel_right (hcut.trans (by simp))
      intro hmem
      rw [hsame] at hfront
      exact hfront (List.mem_append_left _ hmem)
    · rwa [← List.append_cancel_right hcut]
    · exact absurd List.getLast?_concat hlast
  · exact fun hmem => hline ((dropTerminator_isPrefix line).subset hmem)

theorem not_mem_of_mem_lines
    {text line : List Char}
    (h : line ∈ lines text) :
    '\n' ∉ line := by
  obtain ⟨segment, hsegment, rfl⟩ := List.mem_map.1 h
  exact not_mem_dropTerminator hsegment

/-- Lines that are written with a line feed behind each of them are read back. -/
theorem lines_flatten_ended
    {written : List (List Char)}
    (h : ∀ line ∈ written, '\n' ∉ line ∧ '\r' ∉ line) :
    lines (written.map (· ++ ['\n'])).flatten = written := by
  have hended : ∀ line ∈ written.map (· ++ ['\n']), IsEndedLine line := by
    intro line hline
    obtain ⟨front, hfront, rfl⟩ := List.mem_map.1 hline
    exact ⟨front, (h front hfront).1, rfl⟩
  have hsegments := segments_flatten_append hended []
  rw [List.append_nil, segments, List.append_nil] at hsegments
  have hdropped : ∀ line ∈ written, (dropTerminator ∘ (· ++ ['\n'])) line = id line :=
    fun line hline => dropTerminator_append_lineFeed (h line hline).2
  rw [lines, hsegments, List.map_map, List.map_congr_left hdropped, List.map_id]

end Segments

end Text
end SkillAudit
