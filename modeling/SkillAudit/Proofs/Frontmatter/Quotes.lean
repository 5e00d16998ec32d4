import SkillAudit.Proofs.Frontmatter.RoundTrip

/-!
# Quotes around a value

A value may be written in double or in single quotes.  One layer of them is taken off by cutting
the text behind its first byte and before its last.  Both quotes take one byte, so these cuts always
fall between two characters, whatever stands between the quotes; and a quote that stands alone takes
too few bytes to be cut.

* `stripQuote?_eq_some_iff`: the text that is cut out is what stands between the quotes.
* `unquote_eq_iff`: a text in quotes loses one pair of them, and any other text stays.
* `quotes_stripped`: the same of every field of a header.
-/

namespace SkillAudit
namespace Frontmatter

/-- The text is another one between two quotes of one kind. -/
def IsQuotationOf (text inside : List Char) : Prop :=
  ∃ quote ∈ quotes, text = quote :: (inside ++ [quote])

/-- The bytes between which a text is cut stand in it in order and between two characters. -/
structure FitsBetween (start stop : Nat) (text : List Char) : Prop where
  start_le_stop : start ≤ stop
  stop_le_length : stop ≤ Text.byteLength text
  start_valid : (⟨start⟩ : String.Pos.Raw).IsValid (String.ofList text)
  stop_valid : (⟨stop⟩ : String.Pos.Raw).IsValid (String.ofList text)

section Quotes

variable {quote : Char}
variable {text inside value : List Char}

theorem utf8Size_of_mem_quotes
    (hquote : quote ∈ quotes) :
    quote.utf8Size = 1 := by
  simp only [quotes, List.mem_cons, List.not_mem_nil, or_false] at hquote
  rcases hquote with rfl | rfl <;> decide

/-- Each of the two quotes takes one byte. -/
theorem byteLength_quotation
    (hquote : quote ∈ quotes)
    (inside : List Char) :
    Text.byteLength (quote :: (inside ++ [quote])) = Text.byteLength inside + 2 := by
  simp only [Text.byteLength_cons, Text.byteLength_append, Text.byteLength_nil,
    utf8Size_of_mem_quotes hquote]
  omega

/-- A text that starts and ends with a quote and is longer than the quote is in quotes. -/
theorem isQuoted_iff
    (hquote : quote ∈ quotes) :
    isQuoted quote text = true ↔ ∃ inside, text = quote :: (inside ++ [quote]) := by
  simp only [isQuoted, Bool.and_eq_true, decide_eq_true_iff, beq_iff_eq, Text.startsWith_iff]
  constructor
  · rintro ⟨⟨hlength, rest, rfl⟩, hlast⟩
    rcases List.eq_nil_or_concat rest with rfl | ⟨inside, last, rfl⟩
    · -- A quote that stands alone takes one byte.
      simp [utf8Size_of_mem_quotes hquote] at hlength
    · rw [List.concat_eq_append, ← List.append_assoc, List.getLast?_concat] at hlast
      obtain rfl : last = quote := Option.some.inj hlast
      exact ⟨inside, by simp⟩
  · rintro ⟨inside, rfl⟩
    refine ⟨⟨?_, inside ++ [quote], rfl⟩, ?_⟩
    · rw [byteLength_quotation hquote]
      exact Nat.le_add_left _ _
    · rw [← List.cons_append, List.getLast?_concat]

theorem slice?_quotation
    (hquote : quote ∈ quotes)
    (inside : List Char) :
    Text.slice? 1 (Text.byteLength (quote :: (inside ++ [quote])) - 1)
      (quote :: (inside ++ [quote])) = some inside := by
  refine Text.slice?_eq_some_iff.2 ⟨[quote], [quote], rfl, ?_, ?_⟩
  · simp [utf8Size_of_mem_quotes hquote]
  · rw [byteLength_quotation hquote]
    omega

/-- The cuts behind the first quote and before the last one fall between two characters. -/
theorem fitsBetween_quotation
    (hquote : quote ∈ quotes)
    (inside : List Char) :
    FitsBetween 1 (Text.byteLength (quote :: (inside ++ [quote])) - 1)
      (quote :: (inside ++ [quote])) := by
  have hsize := utf8Size_of_mem_quotes hquote
  have hstop : Text.byteLength (quote :: (inside ++ [quote])) - 1 =
      Text.byteLength (quote :: inside) := by
    rw [byteLength_quotation hquote, Text.byteLength_cons, hsize]
    omega
  refine ⟨?_, Nat.sub_le _ _, ?_, ?_⟩
  · rw [byteLength_quotation hquote]
    omega
  · have hvalid := Text.isValid_byteLength [quote] (inside ++ [quote])
    rwa [Text.byteLength_cons, Text.byteLength_nil, hsize] at hvalid
  · rw [hstop]
    exact Text.isValid_byteLength (quote :: inside) [quote]

/-- One layer of a quote is taken off exactly if it is there, and what stands in it is kept. -/
theorem stripQuote?_eq_some_iff
    (hquote : quote ∈ quotes) :
    stripQuote? quote text = some inside ↔ text = quote :: (inside ++ [quote]) := by
  rw [stripQuote?, Option.ite_none_right_eq_some, isQuoted_iff hquote]
  constructor
  · rintro ⟨⟨between, rfl⟩, hslice⟩
    rw [slice?_quotation hquote] at hslice
    rw [Option.some.inj hslice]
  · rintro rfl
    exact ⟨⟨inside, rfl⟩, slice?_quotation hquote inside⟩

/-- What stands between quotes is determined: a text starts with one kind of quote only. -/
theorem IsQuotationOf.unique
    (h : IsQuotationOf text inside)
    (hvalue : IsQuotationOf text value) :
    inside = value := by
  obtain ⟨quote, -, rfl⟩ := h
  obtain ⟨other, -, hsame⟩ := hvalue
  obtain ⟨rfl, hrest⟩ := List.cons_eq_cons.1 hsame
  exact List.append_cancel_right hrest

/-- A text in quotes is what stands between them; a text that is in no quotes stays as it is. -/
theorem unquote_eq_iff :
    unquote text = value ↔
      IsQuotationOf text value ∨
        (∀ inside, ¬ IsQuotationOf text inside) ∧ value = text := by
  rw [unquote]
  cases hstripped : quotes.findSome? fun quote => stripQuote? quote text with
  | some inside =>
      obtain ⟨quote, hquote, hinside⟩ := List.exists_of_findSome?_eq_some hstripped
      have hquotation : IsQuotationOf text inside :=
        ⟨quote, hquote, (stripQuote?_eq_some_iff hquote).1 hinside⟩
      rw [Option.getD_some]
      constructor
      · rintro rfl
        exact Or.inl hquotation
      · rintro (hvalue | ⟨hnone, -⟩)
        · exact hquotation.unique hvalue
        · exact absurd hquotation (hnone inside)
  | none =>
      have hnone : ∀ inside, ¬ IsQuotationOf text inside := by
        rintro inside ⟨quote, hquote, htext⟩
        have hkept := List.findSome?_eq_none_iff.1 hstripped quote hquote
        rw [(stripQuote?_eq_some_iff hquote).2 htext] at hkept
        cases hkept
      rw [Option.getD_none]
      constructor
      · rintro rfl
        exact Or.inr ⟨hnone, rfl⟩
      · rintro (hvalue | ⟨-, rfl⟩)
        · exact absurd hvalue (hnone value)
        · rfl

/-- Taking quotes off adds nothing. -/
theorem mem_of_mem_unquote
    {c : Char}
    (h : c ∈ unquote text) :
    c ∈ text := by
  rcases unquote_eq_iff.1 (rfl : unquote text = unquote text) with ⟨quote, -, htext⟩ | ⟨-, hsame⟩
  · rw [htext]
    exact List.mem_cons_of_mem _ (List.mem_append_left _ h)
  · rwa [hsame] at h

/--
A text between two quotes of one kind loses these two and nothing else; every other text stays.
Whenever a text is found to be in quotes, both its cuts are possible, and what is cut out is what
stands between the quotes.  In the header of any block, the value of a field is its written form
without the quotes, so the two are the same or differ by one pair of quotes.
-/
theorem quotes_stripped :
    (∀ quote ∈ ['"', '\''], ∀ inside, unquote (quote :: (inside ++ [quote])) = inside) ∧
    (∀ text, (∀ quote ∈ ['"', '\''], ∀ inside, text ≠ quote :: (inside ++ [quote])) →
      unquote text = text) ∧
    (∀ quote ∈ ['"', '\''], ∀ text, isQuoted quote text = true →
      FitsBetween 1 (Text.byteLength text - 1) text ∧
      ∃ inside, Text.slice? 1 (Text.byteLength text - 1) text = some inside ∧
        text = quote :: (inside ++ [quote]) ∧ unquote text = inside) ∧
    (∀ block, ∀ entry ∈ (header block).fields,
      entry.2.value.toList = unquote entry.2.raw.toList ∧
      (entry.2.value = entry.2.raw ∨ IsQuotationOf entry.2.raw.toList entry.2.value.toList)) := by
  have hquoted : ∀ quote ∈ quotes, ∀ inside, unquote (quote :: (inside ++ [quote])) = inside :=
    fun quote hquote inside => unquote_eq_iff.2 (Or.inl ⟨quote, hquote, rfl⟩)
  refine ⟨hquoted, ?_, ?_, ?_⟩
  · intro text hplain
    refine unquote_eq_iff.2 (Or.inr ⟨?_, rfl⟩)
    rintro inside ⟨quote, hquote, htext⟩
    exact hplain quote hquote inside htext
  · intro quote hquote text hfound
    obtain ⟨inside, rfl⟩ := (isQuoted_iff hquote).1 hfound
    exact ⟨fitsBetween_quotation hquote inside, inside, slice?_quotation hquote inside, rfl,
      hquoted quote hquote inside⟩
  · intro block entry hentry
    have hfield := (isWritable_of_mem_header hentry).2
    have hvalue : entry.2.value.toList = unquote entry.2.raw.toList := by
      rw [hfield, Field.ofRaw, String.toList_ofList, String.toList_ofList]
    refine ⟨hvalue, ?_⟩
    rcases unquote_eq_iff.1 hvalue.symm with hquotation | ⟨-, hsame⟩
    · exact Or.inr hquotation
    · exact Or.inl (String.toList_inj.1 hsame)

/-- One layer goes of two, a quote that stands alone stays, and a text with a character of four
bytes is cut beside it. -/
theorem quotes_stripped_awkward :
    unquote "\"'é'\"".toList = "'é'".toList ∧
    unquote "'".toList = "'".toList ∧
    FitsBetween 1 5 "'😀'".toList ∧
    ("name", ⟨"'a\"", "'a\""⟩) ∈ (header "# x\nname : 'a\" \n".toList).fields ∧
    "'a\"".toList = unquote "'a\"".toList := by
  obtain ⟨hquoted, hplain, hcut, hfields⟩ := quotes_stripped
  have hentry : ("name", ⟨"'a\"", "'a\""⟩) ∈ (header "# x\nname : 'a\" \n".toList).fields := by
    decide
  refine ⟨?_, ?_, ?_, hentry, ?_⟩
  · exact hquoted '"' (by decide) "'é'".toList
  · refine hplain _ fun quote _ inside hsame => ?_
    exact List.append_ne_nil_of_right_ne_nil inside (List.cons_ne_nil _ _)
      (List.cons_eq_cons.1 hsame).2.symm
  · exact (hcut '\'' (by decide) "'😀'".toList (by decide)).1
  · exact (hfields _ _ hentry).1

end Quotes

end Frontmatter
end SkillAudit
