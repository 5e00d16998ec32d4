import SkillAudit.Proofs.Frontmatter.Splitting

/-!
# Which lines delimit a header block

By the written grammar a delimiter line is three dashes with a line feed, with a carriage return and
a line feed, or, at the end of a text, with nothing behind them.  The test for delimiters drops
every carriage return at the end of a line, so it accepts more lines.  Each block of the grammar is
recognised, though perhaps cut short; a text in which no line has a stray carriage return behind
three dashes is split as the grammar says.

* `isDelimiter_iff_isLoose`: the lines that the test accepts.
* `split_between_delimiters`: the header blocks that are found, and where they are those of the
  grammar.
* `split_stray_carriage_returns`: a header that the grammar does not know.
-/

namespace SkillAudit
namespace Frontmatter

section Delimiters

/-- Three dashes and one of the terminators of a line; a text may end without one. -/
def IsExactDelimiter (line : List Char) : Prop :=
  line = "---".toList ∨ line = "---\n".toList ∨ line = "---\r\n".toList

/-- Three dashes, any number of carriage returns, and perhaps a line feed. -/
def IsLooseDelimiter (line : List Char) : Prop :=
  ∃ returns,
    line = "---".toList ++ List.replicate returns '\r' ∨
    line = "---".toList ++ List.replicate returns '\r' ++ ['\n']

/-- The first line of a text is a delimiter, and so is a later one; the inside of the block ends at
the first of these, and the rest starts behind it. -/
def HasBlock
    (Delimits : List Char → Prop)
    (text inside rest : List Char) :
    Prop :=
  ∃ opening inner closing,
    Text.segments text = opening :: (inner ++ closing :: Text.segments rest) ∧
    Delimits opening ∧
    (∀ line ∈ inner, ¬ Delimits line) ∧
    Delimits closing ∧
    inside = inner.flatten

theorem IsExactDelimiter.isLoose
    {line : List Char}
    (h : IsExactDelimiter line) :
    IsLooseDelimiter line := by
  rcases h with rfl | rfl | rfl
  · exact ⟨0, Or.inl rfl⟩
  · exact ⟨0, Or.inr rfl⟩
  · exact ⟨1, Or.inr rfl⟩

/-- Characters that end lines, without a line feed among them, are carriage returns. -/
theorem eq_replicate_of_not_mem
    {tail : List Char}
    (hends : ∀ c ∈ tail, c = '\n' ∨ c = '\r')
    (hfeed : '\n' ∉ tail) :
    tail = List.replicate tail.length '\r' := by
  refine List.eq_replicate_of_mem fun c hc => ?_
  rcases hends c hc with rfl | rfl
  · exact absurd hc hfeed
  · rfl

/-- The lines of a text that pass the test. -/
theorem isDelimiter_iff_isLoose
    {text line : List Char}
    (hline : line ∈ Text.segments text) :
    isDelimiter line = true ↔ IsLooseDelimiter line := by
  rw [isDelimiter_iff]
  constructor
  · rintro ⟨tail, rfl, htail⟩
    by_cases hfeed : '\n' ∈ tail
    · -- The line feed ends the line, and nothing before it is another one.
      rcases Text.isEndedLine_or_of_mem_segments hline with ⟨front, hfront, hended⟩ | hplain
      · obtain ⟨returns, rfl⟩ : ∃ returns, tail = returns ++ ['\n'] := by
          rcases List.eq_nil_or_concat tail with rfl | ⟨returns, last, rfl⟩
          · cases hfeed
          · have hlast := congrArg List.getLast? hended
            rw [List.concat_eq_append, ← List.append_assoc, List.getLast?_concat,
              List.getLast?_concat] at hlast
            cases hlast
            exact ⟨returns, List.concat_eq_append⟩
        rw [← List.append_assoc] at hended
        rw [← List.append_cancel_right hended] at hfront
        have hreturns := eq_replicate_of_not_mem
          (fun c hc => htail c (List.mem_append_left _ hc))
          (fun hmem => hfront (List.mem_append_right _ hmem))
        refine ⟨returns.length, Or.inr ?_⟩
        rw [← hreturns, List.append_assoc]
      · exact absurd (List.mem_append_right _ hfeed) hplain
    · exact ⟨tail.length, Or.inl (by rw [← eq_replicate_of_not_mem htail hfeed])⟩
  · rintro ⟨returns, rfl | rfl⟩
    · exact ⟨_, rfl, fun c hc => Or.inr (List.eq_of_mem_replicate hc)⟩
    · refine ⟨_, List.append_assoc _ _ _, fun c hc => ?_⟩
      rcases List.mem_append.1 hc with hc | hc
      · exact Or.inr (List.eq_of_mem_replicate hc)
      · exact Or.inl (List.mem_singleton.1 hc)

/-- Two notions of a delimiter that agree on the lines of a text give it the same blocks. -/
theorem hasBlock_congr
    {Delimits Delimits' : List Char → Prop}
    {text inside rest : List Char}
    (h : ∀ line ∈ Text.segments text, Delimits line ↔ Delimits' line) :
    HasBlock Delimits text inside rest ↔ HasBlock Delimits' text inside rest := by
  refine exists_congr fun opening => exists_congr fun inner => exists_congr fun closing =>
    and_congr_right fun hsegments => ?_
  rw [hsegments] at h
  have hopening := h opening List.mem_cons_self
  have hclosing := h closing (by simp)
  have hinner : (∀ line ∈ inner, ¬ Delimits line) ↔ ∀ line ∈ inner, ¬ Delimits' line :=
    forall₂_congr fun line hline => not_congr (h line (by simp [hline]))
  rw [hopening, hinner, hclosing]

theorem locate?_eq_some_iff_hasBlock
    {text inside rest : List Char} :
    locate? text = some (inside, rest) ↔ HasBlock IsLooseDelimiter text inside rest := by
  rw [locate?_eq_some_iff, ← hasBlock_congr fun line hline => isDelimiter_iff_isLoose hline]
  refine exists_congr fun opening => exists_congr fun inner => exists_congr fun closing => ?_
  constructor
  · rintro ⟨⟨hsegments, hopening, hinner, hclosing⟩, hinside⟩
    exact ⟨hsegments, hopening, fun line hline => Bool.eq_false_iff.1 (hinner line hline),
      hclosing, hinside⟩
  · rintro ⟨hsegments, hopening, hinner, hclosing, hinside⟩
    exact ⟨⟨hsegments, hopening, fun line hline => Bool.eq_false_iff.2 (hinner line hline),
      hclosing⟩, hinside⟩

theorem split_of_hasBlock
    {text inside rest : List Char}
    (h : HasBlock IsLooseDelimiter text inside rest) :
    split text = (some (header inside), Text.trim rest) := by
  rw [split, locate?_eq_some_iff_hasBlock.2 h]

/-- A text has a header exactly if it has a header block. -/
theorem isSome_split_iff
    {text : List Char} :
    (split text).1.isSome = true ↔ ∃ inside rest, HasBlock IsLooseDelimiter text inside rest := by
  constructor
  · intro h
    rw [split] at h
    cases hlocate : locate? text with
    | none =>
        rw [hlocate] at h
        cases h
    | some parts =>
        exact ⟨parts.1, parts.2, locate?_eq_some_iff_hasBlock.1 hlocate⟩
  · rintro ⟨inside, rest, h⟩
    rw [split_of_hasBlock h]
    rfl

/-- Where two delimiter lines stand, a block is found: it ends at the second one or before. -/
theorem exists_hasBlock_of_exact
    {text inside rest : List Char}
    (h : HasBlock IsExactDelimiter text inside rest) :
    ∃ inside' rest', HasBlock IsLooseDelimiter text inside' rest' ∧ inside' <+: inside := by
  obtain ⟨opening, inner, closing, hsegments, hopening, -, hclosing, rfl⟩ := h
  have hfront : Text.segments text =
      (opening :: (inner ++ [closing])) ++ Text.segments rest := by
    rw [hsegments]
    simp
  have hmem : ∀ line ∈ opening :: (inner ++ [closing]), line ∈ Text.segments text := by
    intro line hline
    rw [hfront]
    exact List.mem_append_left _ hline
  have htest : isDelimiter closing = true :=
    (isDelimiter_iff_isLoose (hmem closing (by simp))).2 hclosing.isLoose
  cases hfirst : inner.find? isDelimiter with
  | none =>
      rw [List.find?_eq_none] at hfirst
      refine ⟨inner.flatten, rest, ⟨opening, inner, closing, hsegments, hopening.isLoose, ?_,
        hclosing.isLoose, rfl⟩, List.prefix_rfl⟩
      intro line hline hloose
      exact hfirst line hline ((isDelimiter_iff_isLoose (hmem line (by simp [hline]))).2 hloose)
  | some first =>
      obtain ⟨hdelimits, before, after, rfl, hbefore⟩ := List.find?_eq_some_iff_append.1 hfirst
      have hlines : Text.segments text =
          (opening :: before ++ [first]) ++ (after ++ closing :: Text.segments rest) := by
        rw [hsegments]
        simp
      refine ⟨before.flatten, (after ++ closing :: Text.segments rest).flatten,
        ⟨opening, before, first, ?_, hopening.isLoose, ?_, ?_, rfl⟩, ?_⟩
      · rw [Text.segments_flatten_of_append hlines, hlines]
        simp
      · intro line hline hloose
        have hplain := hbefore line hline
        rw [(isDelimiter_iff_isLoose (hmem line (by simp [hline]))).2 hloose] at hplain
        cases hplain
      · exact (isDelimiter_iff_isLoose (hmem first (by simp))).1 hdelimits
      · rw [List.flatten_append]
        exact List.prefix_append _ _

/--
A text has a header exactly if its first line and a later one are three dashes with any number of
carriage returns and perhaps a line feed behind them, and its header block ends at the first such
later line.  So a header is found wherever the grammar asks for one, in a block that ends where the
grammar says or before; and where no line has stray carriage returns behind three dashes, a text is
split exactly as the grammar says.
-/
theorem split_between_delimiters
    (text : List Char) :
    ((split text).1.isSome = true ↔
      ∃ inside rest, HasBlock IsLooseDelimiter text inside rest) ∧
    (∀ inside rest, HasBlock IsLooseDelimiter text inside rest →
      split text = (some (header inside), Text.trim rest)) ∧
    (∀ inside rest, HasBlock IsExactDelimiter text inside rest →
      ∃ inside' rest', inside' <+: inside ∧
        split text = (some (header inside'), Text.trim rest')) ∧
    ((∀ line ∈ Text.segments text, IsLooseDelimiter line → IsExactDelimiter line) →
      ((split text).1.isSome = true ↔
        ∃ inside rest, HasBlock IsExactDelimiter text inside rest) ∧
      ∀ inside rest, HasBlock IsExactDelimiter text inside rest →
        split text = (some (header inside), Text.trim rest)) := by
  refine ⟨isSome_split_iff, fun inside rest => split_of_hasBlock, ?_, ?_⟩
  · intro inside rest h
    obtain ⟨inside', rest', hblock, hshort⟩ := exists_hasBlock_of_exact h
    exact ⟨inside', rest', hshort, split_of_hasBlock hblock⟩
  · intro hplain
    have hblocks : ∀ inside rest, HasBlock IsLooseDelimiter text inside rest ↔
        HasBlock IsExactDelimiter text inside rest := fun inside rest =>
      hasBlock_congr fun line hline => ⟨hplain line hline, IsExactDelimiter.isLoose⟩
    refine ⟨?_, fun inside rest h => split_of_hasBlock ((hblocks inside rest).2 h)⟩
    rw [isSome_split_iff]
    exact exists_congr fun inside => exists_congr fun rest => hblocks inside rest

/-- A block between a line with a carriage return and one without a line feed is that of the
grammar. -/
theorem split_between_mixed_delimiters :
    HasBlock IsExactDelimiter "---\r\nname: a\n---".toList "name: a\n".toList [] ∧
    split "---\r\nname: a\n---".toList = (some (header "name: a\n".toList), []) := by
  have hblock :
      HasBlock IsExactDelimiter "---\r\nname: a\n---".toList "name: a\n".toList [] := by
    refine ⟨"---\r\n".toList, ["name: a\n".toList], "---".toList, by decide, Or.inr (Or.inr rfl),
      ?_, Or.inl rfl, by decide⟩
    intro line hline
    rw [List.mem_singleton.1 hline, IsExactDelimiter]
    decide
  refine ⟨hblock, ((split_between_delimiters _).2.2.2 ?_).2 _ _ hblock⟩
  intro line hline hloose
  have htest := (isDelimiter_iff_isLoose hline).2 hloose
  clear hloose
  revert line
  simp only [IsExactDelimiter]
  decide

/-- A text whose first line has two carriage returns has a header, but no block of the grammar. -/
theorem split_stray_carriage_returns :
    (split "---\r\r\nname: a\n---\n".toList).1 = some (header "name: a\n".toList) ∧
    ¬ ∃ inside rest, HasBlock IsExactDelimiter "---\r\r\nname: a\n---\n".toList inside rest := by
  refine ⟨by decide, ?_⟩
  rintro ⟨inside, rest, opening, inner, closing, hsegments, hopening, -⟩
  have hfirst := congrArg List.head? hsegments
  have hline : opening = "---\r\r\n".toList := Option.some.inj (hfirst.symm.trans (by decide))
  rw [hline, IsExactDelimiter] at hopening
  revert hopening
  decide

end Delimiters

end Frontmatter
end SkillAudit
