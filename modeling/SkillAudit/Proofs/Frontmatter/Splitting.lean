import SkillAudit.Frontmatter.Block
import SkillAudit.Proofs.Text.Segments
import SkillAudit.Proofs.Text.Trimming

/-!
# Where a document is split

A text opens with a header block if its first line is a delimiter and a later one is, too; the block
ends at the first of these.  The search for that line counts the bytes of the lines that it passes.
The invariant of the search is that the count is the length of what was passed, so both cuts fall
between two lines.

* `isDelimiter_iff`: the lines that count as delimiters.
* `bounds_eq_some_iff`, `locate?_eq_some_iff`: the search finds exactly the block.
* `split_preamble`: nothing behind the closing line has a part in the header.
* `split_lossless_local`: a split loses nothing, never cuts a character, and its two parts depend on
  different parts of the text.
-/

namespace SkillAudit
namespace Frontmatter

section Splitting

/-- A line passes the test exactly if it is three dashes with line ends behind them. -/
theorem isDelimiter_iff
    {line : List Char} :
    isDelimiter line = true
      ↔
    ∃ tail, line = "---".toList ++ tail ∧ ∀ c ∈ tail, c = '\n' ∨ c = '\r' := by
  constructor
  · intro h
    have hparts : line.rdropWhile (fun c => c = '\n' || c = '\r') ++
        line.rtakeWhile (fun c => c = '\n' || c = '\r') = line :=
      List.rdropWhile_append_rtakeWhile
    rw [isDelimiter, beq_iff_eq, Text.dropEndWhile_eq_rdropWhile] at h
    rw [h] at hparts
    exact ⟨_, hparts.symm, fun c hc => by simpa using List.mem_rtakeWhile_imp hc⟩
  · rintro ⟨tail, rfl, htail⟩
    rw [isDelimiter, Text.dropEndWhile_append_of_forall (fun c hc => by simpa using htail c hc)]
    decide

/-- The text consists of an opening delimiter, lines that are no delimiters, a closing delimiter and
a rest. -/
structure IsCut
    (text opening : List Char)
    (inner : List (List Char))
    (closing rest : List Char) :
    Prop where
  segments_eq : Text.segments text = opening :: (inner ++ closing :: Text.segments rest)
  opening_delimits : isDelimiter opening = true
  inner_plain : ∀ line ∈ inner, isDelimiter line = false
  closing_delimits : isDelimiter closing = true

theorem IsCut.text_eq
    {text opening closing rest : List Char}
    {inner : List (List Char)}
    (h : IsCut text opening inner closing rest) :
    text = opening ++ inner.flatten ++ closing ++ rest := by
  rw [← Text.segments_flatten text, h.segments_eq]
  simp

/-- The bounds of a cut, from the lengths of its parts. -/
def boundsOf (opening : List Char) (inner : List (List Char)) (closing : List Char) : Bounds where
  start := Text.byteLength opening
  stop := Text.byteLength opening + Text.byteLength inner.flatten
  next := Text.byteLength opening + Text.byteLength inner.flatten + Text.byteLength closing

/-- The search for a delimiter finds the first one, with the bytes of what stands before it. -/
theorem closingFrom?_eq_some_iff
    {offset stop next : Nat}
    {lines : List (List Char)} :
    closingFrom? offset lines = some (stop, next)
      ↔
    ∃ inner closing more,
      lines = inner ++ closing :: more ∧
      (∀ line ∈ inner, isDelimiter line = false) ∧
      isDelimiter closing = true ∧
      stop = offset + Text.byteLength inner.flatten ∧
      next = stop + Text.byteLength closing := by
  induction lines generalizing offset with
  | nil =>
      simp [closingFrom?]
  | cons line lines ih =>
      unfold closingFrom?
      split
      · next hline =>
          constructor
          · intro h
            cases h
            exact ⟨[], line, lines, rfl, by simp, hline, by simp, rfl⟩
          · rintro ⟨inner, closing, more, hlines, hinner, -, rfl, rfl⟩
            cases inner with
            | nil =>
                cases hlines
                simp
            | cons first inner =>
                cases hlines
                rw [hinner line List.mem_cons_self] at hline
                cases hline
      · next hline =>
          rw [ih]
          constructor
          · rintro ⟨inner, closing, more, rfl, hinner, hclosing, rfl, rfl⟩
            refine ⟨line :: inner, closing, more, rfl, ?_, hclosing, ?_, rfl⟩
            · exact List.forall_mem_cons.2 ⟨Bool.eq_false_iff.2 hline, hinner⟩
            · simp [Nat.add_assoc]
          · rintro ⟨inner, closing, more, hlines, hinner, hclosing, rfl, rfl⟩
            cases inner with
            | nil =>
                cases hlines
                exact absurd hclosing hline
            | cons first inner =>
                cases hlines
                refine ⟨inner, closing, more, rfl, ?_, hclosing, ?_, rfl⟩
                · exact (List.forall_mem_cons.1 hinner).2
                · simp [Nat.add_assoc]

/-- The bounds that are found are those of a cut of the text. -/
theorem bounds_eq_some_iff
    {text : List Char}
    {bounds : Bounds} :
    Bounds.ofText? text = some bounds
      ↔
    ∃ opening inner closing rest,
      IsCut text opening inner closing rest ∧ bounds = boundsOf opening inner closing := by
  unfold Bounds.ofText?
  split
  · next hnil =>
      constructor
      · intro h
        cases h
      · rintro ⟨opening, inner, closing, rest, hcut, -⟩
        rw [hcut.segments_eq] at hnil
        cases hnil
  · next opening more hsegments =>
      split
      · next hopening =>
          simp only [Option.map_eq_some_iff, Prod.exists, closingFrom?_eq_some_iff]
          constructor
          · rintro ⟨stop, next, ⟨inner, closing, lines, rfl, hinner, hclosing, rfl, rfl⟩, rfl⟩
            -- What is left of the lines is again the cut of a text into lines.
            have happend : Text.segments text = (opening :: inner ++ [closing]) ++ lines := by
              simpa using hsegments
            have hlines : Text.segments lines.flatten = lines :=
              Text.segments_flatten_of_append happend
            exact ⟨opening, inner, closing, lines.flatten,
              ⟨by rw [hsegments, hlines], hopening, hinner, hclosing⟩, rfl⟩
          · rintro ⟨opening', inner, closing, rest, hcut, rfl⟩
            have hsame := hsegments.symm.trans hcut.segments_eq
            cases hsame
            exact ⟨_, _, ⟨inner, closing, _, rfl, hcut.inner_plain, hcut.closing_delimits,
              rfl, rfl⟩, rfl⟩
      · next hopening =>
          constructor
          · intro h
            cases h
          · rintro ⟨opening', inner, closing, rest, hcut, -⟩
            have hsame := hsegments.symm.trans hcut.segments_eq
            cases hsame
            exact absurd hcut.opening_delimits hopening

/-- Both cuts of a text are possible at the bounds of its header block. -/
theorem IsCut.cut?_boundsOf
    {text opening closing rest : List Char}
    {inner : List (List Char)}
    (h : IsCut text opening inner closing rest) :
    (boundsOf opening inner closing).cut? text = some (inner.flatten, rest) := by
  have hinside :
      Text.slice? (boundsOf opening inner closing).start
        (boundsOf opening inner closing).stop text = some inner.flatten :=
    Text.slice?_eq_some_iff.2 ⟨opening, closing ++ rest, by simpa using h.text_eq, rfl, rfl⟩
  have hrest :
      Text.slice? (boundsOf opening inner closing).next
        (Text.byteLength text) text = some rest := by
    refine Text.slice?_eq_some_iff.2
      ⟨opening ++ inner.flatten ++ closing, [], by simpa using h.text_eq, ?_, ?_⟩
    · simp [boundsOf, Nat.add_assoc]
    · simp [h.text_eq, boundsOf, Nat.add_assoc]
  simp [Bounds.cut?, hinside, hrest]

/-- The bounds stand in order, in the text and between two characters. -/
structure Bounds.Fit (bounds : Bounds) (text : List Char) : Prop where
  start_le_stop : bounds.start ≤ bounds.stop
  stop_le_next : bounds.stop ≤ bounds.next
  next_le_length : bounds.next ≤ Text.byteLength text
  start_valid : (⟨bounds.start⟩ : String.Pos.Raw).IsValid (String.ofList text)
  stop_valid : (⟨bounds.stop⟩ : String.Pos.Raw).IsValid (String.ofList text)
  next_valid : (⟨bounds.next⟩ : String.Pos.Raw).IsValid (String.ofList text)

theorem IsCut.fit_boundsOf
    {text opening closing rest : List Char}
    {inner : List (List Char)}
    (h : IsCut text opening inner closing rest) :
    (boundsOf opening inner closing).Fit text := by
  have htext := h.text_eq
  constructor
  · exact Nat.le_add_right _ _
  · exact Nat.le_add_right _ _
  · simp [htext, boundsOf, Nat.add_assoc]
  · have hvalid := Text.isValid_byteLength opening (inner.flatten ++ (closing ++ rest))
    rw [htext]
    simpa [boundsOf] using hvalid
  · have hvalid := Text.isValid_byteLength (opening ++ inner.flatten) (closing ++ rest)
    rw [htext]
    simpa [boundsOf] using hvalid
  · have hvalid := Text.isValid_byteLength (opening ++ inner.flatten ++ closing) rest
    rw [htext]
    simpa [boundsOf, Nat.add_assoc] using hvalid

/-- The parts that are cut out are the inside and the rest of a cut. -/
theorem locate?_eq_some_iff
    {text inside rest : List Char} :
    locate? text = some (inside, rest)
      ↔
    ∃ opening inner closing,
      IsCut text opening inner closing rest ∧ inside = inner.flatten := by
  unfold locate?
  rw [Option.bind_eq_some_iff]
  constructor
  · rintro ⟨bounds, hbounds, hparts⟩
    obtain ⟨opening, inner, closing, rest', hcut, rfl⟩ := bounds_eq_some_iff.1 hbounds
    rw [hcut.cut?_boundsOf] at hparts
    cases hparts
    exact ⟨opening, inner, closing, hcut, rfl⟩
  · rintro ⟨opening, inner, closing, hcut, rfl⟩
    exact ⟨boundsOf opening inner closing,
      bounds_eq_some_iff.2 ⟨opening, inner, closing, rest, hcut, rfl⟩, hcut.cut?_boundsOf⟩

theorem IsCut.split_eq
    {text opening closing rest : List Char}
    {inner : List (List Char)}
    (h : IsCut text opening inner closing rest) :
    split text = (some (header inner.flatten), Text.trim rest) := by
  rw [split, locate?_eq_some_iff.2 ⟨opening, inner, closing, h, rfl⟩]

/-- A complete header block: an opening delimiter, lines that are no delimiters, and a closing
delimiter, each of them ended by a line feed. -/
structure Preamble where
  opening : List Char
  inner : List (List Char)
  closing : List Char
  lines_ended : ∀ line ∈ opening :: (inner ++ [closing]), Text.IsEndedLine line
  opening_delimits : isDelimiter opening = true
  inner_plain : ∀ line ∈ inner, isDelimiter line = false
  closing_delimits : isDelimiter closing = true

/-- The text of a complete header block. -/
def Preamble.text (preamble : Preamble) : List Char :=
  (preamble.opening :: (preamble.inner ++ [preamble.closing])).flatten

/-- A text that opens with a complete header block is cut behind it. -/
theorem Preamble.isCut
    (preamble : Preamble)
    (rest : List Char) :
    IsCut (preamble.text ++ rest) preamble.opening preamble.inner preamble.closing rest where
  segments_eq := by
    rw [Preamble.text, Text.segments_flatten_append preamble.lines_ended]
    simp
  opening_delimits := preamble.opening_delimits
  inner_plain := preamble.inner_plain
  closing_delimits := preamble.closing_delimits

/-- The header of a text is that of its header block, and the body comes from what follows. -/
theorem split_preamble
    (preamble : Preamble)
    (rest : List Char) :
    split (preamble.text ++ rest) = (some (header preamble.inner.flatten), Text.trim rest) :=
  (preamble.isCut rest).split_eq

/--
A text with a header block is its opening line, the inside of the block, the first delimiter after
the opening line, and a rest; both parts are cut out of it between two characters.  A text without
one is its own body.  What stands behind the closing line has no part in the header, and the body is
what stands there, trimmed.
-/
theorem split_lossless_local :
    (∀ text inside rest, locate? text = some (inside, rest) →
      ∃ opening inner closing,
        IsCut text opening inner closing rest ∧
        inside = inner.flatten ∧
        text = opening ++ inside ++ closing ++ rest ∧
        split text = (some (header inside), Text.trim rest)) ∧
    (∀ text bounds, Bounds.ofText? text = some bounds →
      bounds.Fit text ∧ (bounds.cut? text).isSome = true) ∧
    (∀ text, locate? text = none →
      Bounds.ofText? text = none ∧ split text = (none, text)) ∧
    (∀ (preamble : Preamble) (rest : List Char),
      split (preamble.text ++ rest) = ((split preamble.text).1, Text.trim rest) ∧
      (split preamble.text).1 = some (header preamble.inner.flatten) ∧
      ∀ before after : List Char,
        (∀ c ∈ before, Text.isBlank c = true) →
        (∀ c ∈ after, Text.isBlank c = true) →
        split (preamble.text ++ (before ++ rest ++ after)) = split (preamble.text ++ rest)) := by
  refine ⟨?_, ?_, ?_, ?_⟩
  · intro text inside rest h
    obtain ⟨opening, inner, closing, hcut, rfl⟩ := locate?_eq_some_iff.1 h
    exact ⟨opening, inner, closing, hcut, rfl, hcut.text_eq, hcut.split_eq⟩
  · intro text bounds h
    obtain ⟨opening, inner, closing, rest, hcut, rfl⟩ := bounds_eq_some_iff.1 h
    exact ⟨hcut.fit_boundsOf, by rw [hcut.cut?_boundsOf]; rfl⟩
  · intro text h
    refine ⟨?_, by rw [split, h]⟩
    cases hbounds : Bounds.ofText? text with
    | none => rfl
    | some bounds =>
        obtain ⟨opening, inner, closing, rest, hcut, rfl⟩ := bounds_eq_some_iff.1 hbounds
        rw [locate?, hbounds, Option.bind_some, hcut.cut?_boundsOf] at h
        cases h
  · intro preamble rest
    have halone := split_preamble preamble []
    rw [List.append_nil] at halone
    refine ⟨?_, ?_, ?_⟩
    · rw [split_preamble, halone]
    · rw [halone]
    · intro before after hbefore hafter
      rw [split_preamble, split_preamble, Text.trim_append_blanks hbefore hafter]

/-- A header block with both kinds of line ends and a character of two bytes. -/
def mixedPreamble : Preamble where
  opening := "---\r\n".toList
  inner := ["name: 'é'\n".toList]
  closing := "---\n".toList
  lines_ended := by
    intro line hline
    simp only [List.singleton_append, List.mem_cons, List.not_mem_nil, or_false] at hline
    rcases hline with rfl | rfl | rfl
    · exact ⟨"---\r".toList, by decide, by decide⟩
    · exact ⟨"name: 'é'".toList, by decide, by decide⟩
    · exact ⟨"---".toList, by decide, by decide⟩
  opening_delimits := by decide
  inner_plain := by decide
  closing_delimits := by decide

/-- The split of a document with a delimiter line in its body, and of one with an open block. -/
theorem split_mixed_line_ends :
    (∃ opening inner closing,
      IsCut "---\r\nname: 'é'\n---\n\n---\nBody \n".toList opening inner closing
        "\n---\nBody \n".toList ∧
      "name: 'é'\n".toList = inner.flatten) ∧
    (Bounds.mk 5 16 20).Fit "---\r\nname: 'é'\n---\n\n---\nBody \n".toList ∧
    split "---\nname: x\n--- \n".toList = (none, "---\nname: x\n--- \n".toList) ∧
    split (mixedPreamble.text ++ ("\n ".toList ++ "---\nBody".toList ++ " \n".toList)) =
      split (mixedPreamble.text ++ "---\nBody".toList) := by
  obtain ⟨hparts, hbounds, hnone, hpreamble⟩ := split_lossless_local
  refine ⟨?_, ?_, ?_, ?_⟩
  · obtain ⟨opening, inner, closing, hcut, hinside, -, -⟩ :=
      hparts "---\r\nname: 'é'\n---\n\n---\nBody \n".toList "name: 'é'\n".toList
        "\n---\nBody \n".toList (by decide)
    exact ⟨opening, inner, closing, hcut, hinside⟩
  · exact (hbounds _ _ (by decide)).1
  · exact (hnone _ (by decide)).2
  · exact (hpreamble mixedPreamble "---\nBody".toList).2.2 _ _
      (List.all_eq_true.1 rfl) (List.all_eq_true.1 rfl)

end Splitting

end Frontmatter
end SkillAudit
