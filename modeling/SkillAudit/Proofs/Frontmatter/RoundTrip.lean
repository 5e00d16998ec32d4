import SkillAudit.Document
import SkillAudit.Frontmatter.Printer
import SkillAudit.Proofs.Frontmatter.Insertion
import SkillAudit.Proofs.Frontmatter.Splitting

/-!
# Writing and reading header blocks

Each field of a header is written on a line of its own.  A line is read back as the pair that it was
written from exactly if the pair is writable, and every pair that is read from a text is writable.
So reading undoes writing, and what is read from a text is in a form that writing and reading keep.

* `entryOf?_fieldLine`: a writable pair is read back from its line.
* `isWritable_of_entryOf?`: a pair that is read from a line is writable.
* `split_render_normal_form`: reading undoes writing, and documents are in normal form.
-/

namespace SkillAudit
namespace Frontmatter

section RoundTrip

/-- The terminator of a line is blank and does not count when the line is trimmed. -/
theorem trim_dropTerminator
    (line : List Char) :
    Text.trim (Text.dropTerminator line) = Text.trim line := by
  rcases Text.eq_dropTerminator_append line with h | h | ⟨h, -⟩
  · have htrim := congrArg Text.trim h
    rw [Text.trim_append_blanks_behind _ (List.all_eq_true.1 rfl)] at htrim
    exact htrim.symm
  · have htrim := congrArg Text.trim h
    rw [Text.trim_append_blanks_behind _ (List.all_eq_true.1 rfl)] at htrim
    exact htrim.symm
  · rw [← h]

theorem entryOf?_dropTerminator
    (line : List Char) :
    entryOf? (Text.dropTerminator line) = entryOf? line := by
  rw [entryOf?, entryOf?, trim_dropTerminator]

/-- A line contributes a pair exactly if, trimmed, it is no comment and has a colon. -/
theorem entryOf?_eq_some_iff
    {line : List Char}
    {key : String}
    {field : Field} :
    entryOf? line = some (key, field)
      ↔
    ∃ front back,
      (Text.trim line).head? ≠ some '#' ∧
      Text.trim line = front ++ ':' :: back ∧
      ':' ∉ front ∧
      key = String.ofList (Text.trim front) ∧
      field = Field.ofRaw (Text.trim back) := by
  simp only [entryOf?, Option.ite_none_left_eq_some, Option.map_eq_some_iff, Prod.exists,
    Text.cutAt?_eq_some_iff, Prod.mk.injEq]
  constructor
  · rintro ⟨hcomment, front, back, ⟨htext, hcolon⟩, rfl, rfl⟩
    exact ⟨front, back, hcomment, htext, hcolon, rfl, rfl⟩
  · rintro ⟨front, back, hcomment, htext, hcolon, rfl, rfl⟩
    exact ⟨hcomment, front, back, ⟨htext, hcolon⟩, rfl, rfl⟩

theorem entries_flatten
    {lines : List (List Char)}
    (hlines : ∀ line ∈ lines, Text.IsEndedLine line) :
    entries lines.flatten = lines.filterMap entryOf? := by
  have hsegments := Text.segments_flatten_append hlines []
  rw [List.append_nil] at hsegments
  rw [entries, Text.lines, hsegments, List.filterMap_map, Text.segments, List.append_nil]
  exact List.filterMap_congr fun line _ => entryOf?_dropTerminator line

/-- The line of a writable pair, trimmed: the blank behind the colon goes with an empty value. -/
theorem trim_fieldLine
    {key raw : List Char}
    (h : IsWritable key raw) :
    ∃ gap, (∀ c ∈ gap, Text.isBlank c = true) ∧
      Text.trim (fieldLine key raw) = key ++ ':' :: (gap ++ raw) := by
  have hkey := Text.trim_eq_self_iff.1 h.key_inline.trimmed
  have hraw := Text.trim_eq_self_iff.1 h.raw_inline.trimmed
  -- The line starts with the key or, if that is empty, with the colon.
  have hhead : ∀ tail c, (key ++ ':' :: tail).head? = some c → Text.isBlank c = false := by
    intro tail c hc
    cases key with
    | nil =>
        cases hc
        rfl
    | cons a rest =>
        exact hkey c (Or.inl hc)
  cases raw with
  | nil =>
      refine ⟨[], by simp, ?_⟩
      have hline : fieldLine key [] = (key ++ [':']) ++ [' ', '\n'] := by
        simp [fieldLine]
      rw [hline, Text.trim_append_blanks_behind _ (List.all_eq_true.1 rfl)]
      refine Text.trim_eq_self_iff.2 fun c hc => ?_
      rcases hc with hc | hc
      · exact hhead [] c hc
      · rw [List.getLast?_concat] at hc
        cases hc
        rfl
  | cons a rest =>
      refine ⟨[' '], List.all_eq_true.1 rfl, ?_⟩
      have hline : fieldLine key (a :: rest) = (key ++ ':' :: ' ' :: (a :: rest)) ++ ['\n'] := by
        simp [fieldLine]
      rw [hline, Text.trim_append_blanks_behind _ (List.all_eq_true.1 rfl)]
      refine Text.trim_eq_self_iff.2 fun c hc => ?_
      rcases hc with hc | hc
      · exact hhead _ c hc
      · refine hraw c (Or.inr ?_)
        rw [← hc]
        simp [List.getLast?_append, List.getLast?_cons]

/-- A writable pair is read back from its line. -/
theorem entryOf?_fieldLine
    {key raw : String}
    (h : IsWritable key.toList raw.toList) :
    entryOf? (fieldLine key.toList raw.toList) = some (key, Field.ofRaw raw.toList) := by
  obtain ⟨gap, hgap, htrim⟩ := trim_fieldLine h
  have hcomment : (key.toList ++ ':' :: (gap ++ raw.toList)).head? ≠ some '#' := by
    intro hhead
    rw [List.head?_append] at hhead
    cases hkey : key.toList.head? with
    | none =>
        rw [hkey] at hhead
        cases hhead
    | some c =>
        rw [hkey] at hhead
        exact h.no_comment (hkey.trans hhead)
  refine entryOf?_eq_some_iff.2
    ⟨key.toList, gap ++ raw.toList, htrim ▸ hcomment, htrim, h.no_colon, ?_, ?_⟩
  · rw [h.key_inline.trimmed, String.ofList_toList]
  · rw [Text.trim_blanks_append hgap, h.raw_inline.trimmed]

/-- A pair that is read from a line is writable, and its value is the written one unquoted. -/
theorem isWritable_of_entryOf?
    {line : List Char}
    {key : String}
    {field : Field}
    (hline : '\n' ∉ line)
    (h : entryOf? line = some (key, field)) :
    IsWritable key.toList field.raw.toList ∧ field = Field.ofRaw field.raw.toList := by
  obtain ⟨front, back, hcomment, htext, hcolon, rfl, rfl⟩ := entryOf?_eq_some_iff.1 h
  have hfront : ∀ c ∈ front, c ∈ Text.trim line := by
    rw [htext]
    exact fun c hc => List.mem_append_left _ hc
  have hback : ∀ c ∈ back, c ∈ Text.trim line := by
    rw [htext]
    exact fun c hc => List.mem_append_right _ (List.mem_cons_of_mem _ hc)
  -- The key starts where the trimmed line starts, so nothing is dropped in front of it.
  have hstart : ∀ c, front.head? = some c → (Text.trim line).head? = some c := by
    intro c hc
    rw [htext, List.head?_append, hc, Option.some_or]
  have hdrop : front.dropWhile Text.isBlank = front :=
    Text.dropWhile_isBlank_eq_self fun c hc => Text.head?_trim (hstart c hc)
  have hraw : (Field.ofRaw (Text.trim back)).raw.toList = Text.trim back :=
    String.toList_ofList
  rw [hraw, String.toList_ofList]
  refine ⟨⟨⟨Text.trim_trim front, ?_⟩, ?_, ?_, ⟨Text.trim_trim back, ?_⟩⟩, rfl⟩
  · exact fun hmem => hline (Text.mem_of_mem_trim (hfront _ (Text.mem_of_mem_trim hmem)))
  · exact fun hmem => hcolon (Text.mem_of_mem_trim hmem)
  · intro hhead
    have hfirst := Text.head?_dropWhile_of_head?_trim hhead
    rw [hdrop] at hfirst
    exact hcomment (hstart '#' hfirst)
  · exact fun hmem => hline (Text.mem_of_mem_trim (hback _ (Text.mem_of_mem_trim hmem)))

theorem isWritable_of_mem_header
    {block : List Char}
    {entry : String × Field}
    (h : entry ∈ (header block).fields) :
    IsWritable entry.1.toList entry.2.raw.toList ∧ entry.2 = Field.ofRaw entry.2.raw.toList := by
  obtain ⟨line, hline, hentry⟩ := List.mem_filterMap.1 (Header.mem_of_mem_fields_ofEntries h)
  exact isWritable_of_entryOf? (Text.not_mem_of_mem_lines hline) hentry

/-- A line with a colon is no delimiter. -/
theorem isDelimiter_eq_false
    {line : List Char}
    (h : ':' ∈ line) :
    isDelimiter line = false := by
  rw [← Bool.not_eq_true, isDelimiter_iff]
  rintro ⟨tail, rfl, htail⟩
  rcases List.mem_append.1 h with h | h
  · exact absurd h (by decide)
  · rcases htail _ h with hends | hends
    · cases hends
    · cases hends

/-- The written form of writable fields is a complete header block with the body behind it. -/
def writtenPreamble
    (fields : List (String × String))
    (hfields : ∀ field ∈ fields, IsWritable field.1.toList field.2.toList) :
    Preamble where
  opening := delimiterLine
  inner := fields.map fun (key, raw) => fieldLine key.toList raw.toList
  closing := delimiterLine
  lines_ended := by
    have hdelimiter : Text.IsEndedLine delimiterLine :=
      ⟨Contract.headerDelimiter.toList, by decide, rfl⟩
    intro line hline
    rw [List.mem_cons, List.mem_append, List.mem_singleton, List.mem_map] at hline
    rcases hline with rfl | ⟨⟨key, raw⟩, hmem, rfl⟩ | rfl
    · exact hdelimiter
    · have hwritable := hfields _ hmem
      refine ⟨key.toList ++ ':' :: ' ' :: raw.toList, ?_, rfl⟩
      simp [hwritable.key_inline.oneLine, hwritable.raw_inline.oneLine]
    · exact hdelimiter
  opening_delimits := by decide
  inner_plain := by
    intro line hline
    obtain ⟨⟨key, raw⟩, -, rfl⟩ := List.mem_map.1 hline
    exact isDelimiter_eq_false (by simp [fieldLine])
  closing_delimits := by decide

theorem writtenPreamble_text_append
    {fields : List (String × String)}
    (hfields : ∀ field ∈ fields, IsWritable field.1.toList field.2.toList)
    (body : List Char) :
    (writtenPreamble fields hfields).text ++ body = render fields body := by
  simp [Preamble.text, writtenPreamble, render, List.flatMap]

/-- The header of written fields has these fields, if their keys are different. -/
theorem header_fieldLines
    {fields : List (String × String)}
    (hkeys : (fields.map (·.1)).Nodup)
    (hfields : ∀ field ∈ fields, IsWritable field.1.toList field.2.toList) :
    header (fields.map fun (key, raw) => fieldLine key.toList raw.toList).flatten =
      ⟨fields.map fun (key, raw) => (key, Field.ofRaw raw.toList)⟩ := by
  have hended : ∀ line ∈ fields.map fun (key, raw) => fieldLine key.toList raw.toList,
      Text.IsEndedLine line := by
    intro line hline
    refine (writtenPreamble fields hfields).lines_ended line ?_
    exact List.mem_cons_of_mem _ (List.mem_append_left _ hline)
  have hentries :
      entries (fields.map fun (key, raw) => fieldLine key.toList raw.toList).flatten =
        fields.map fun (key, raw) => (key, Field.ofRaw raw.toList) := by
    rw [entries_flatten hended, List.filterMap_map, ← List.filterMap_eq_map]
    exact List.filterMap_congr fun field hmem => entryOf?_fieldLine (hfields field hmem)
  have hnodup : ((fields.map fun (key, raw) => (key, Field.ofRaw raw.toList)).map (·.1)).Nodup := by
    rw [List.map_map]
    exact hkeys
  rw [header, hentries]
  exact congrArg Header.mk (Header.fields_ofEntries_of_nodup hnodup)

/-- Writable fields with different keys are read back from their written form. -/
theorem split_render
    {fields : List (String × String)}
    (hkeys : (fields.map (·.1)).Nodup)
    (hfields : ∀ field ∈ fields, IsWritable field.1.toList field.2.toList)
    (body : List Char) :
    split (render fields body) =
      (some ⟨fields.map fun (key, raw) => (key, Field.ofRaw raw.toList)⟩, Text.trim body) := by
  rw [← writtenPreamble_text_append hfields, split_preamble]
  exact congrArg (fun h => (some h, Text.trim body)) (header_fieldLines hkeys hfields)

/-- The parts of a document with a header come from a header block of its text. -/
theorem ofText_header_eq_some_iff
    {text : String}
    {fields : Header} :
    (Document.ofText text).header = some fields
      ↔
    ∃ inside rest,
      locate? text.toList = some (inside, rest) ∧
      fields = header inside ∧
      (Document.ofText text).body.toList = Text.trim rest := by
  rw [Document.ofText, split]
  cases locate? text.toList with
  | none =>
      simp
  | some parts =>
      obtain ⟨inside, rest⟩ := parts
      constructor
      · intro h
        cases h
        exact ⟨inside, rest, rfl, rfl, String.toList_ofList⟩
      · rintro ⟨inside', rest', hparts, rfl, -⟩
        cases hparts
        rfl

/-- The fields of a header that is read from a block are its written fields with their values. -/
theorem map_writtenFields_header
    (block : List Char) :
    ((writtenFields (header block)).map fun (key, raw) => (key, Field.ofRaw raw.toList)) =
      (header block).fields := by
  have hentry : ∀ entry ∈ (header block).fields,
      (entry.1, Field.ofRaw entry.2.raw.toList) = id entry := fun entry hmem =>
    Prod.ext rfl (isWritable_of_mem_header hmem).2.symm
  rw [writtenFields, List.map_map]
  exact (List.map_congr_left hentry).trans (List.map_id _)

/--
Written fields are read back in their order, with their values unquoted and the body trimmed, if
each can be written on a line and no key comes twice.  The header and the body that are read from
any text are of this kind, and so writing and reading them changes nothing.
-/
theorem split_render_normal_form :
    (∀ (fields : List (String × String)) (body : List Char),
      (fields.map (·.1)).Nodup →
      (∀ field ∈ fields, IsWritable field.1.toList field.2.toList) →
      split (render fields body) =
        (some ⟨fields.map fun (key, raw) => (key, Field.ofRaw raw.toList)⟩, Text.trim body)) ∧
    (∀ (text : String) (fields : Header),
      (Document.ofText text).header = some fields →
      ((writtenFields fields).map (·.1)).Nodup ∧
      (∀ field ∈ writtenFields fields, IsWritable field.1.toList field.2.toList) ∧
      Text.trim (Document.ofText text).body.toList = (Document.ofText text).body.toList ∧
      (Document.ofText (renderHeader fields (Document.ofText text).body)).header = some fields ∧
      (Document.ofText (renderHeader fields (Document.ofText text).body)).body =
        (Document.ofText text).body) := by
  refine ⟨fun fields body hkeys hfields => split_render hkeys hfields body, ?_⟩
  intro text fields h
  obtain ⟨inside, rest, -, rfl, hbody⟩ := ofText_header_eq_some_iff.1 h
  have hkeys : ((writtenFields (header inside)).map (·.1)).Nodup := by
    rw [writtenFields, List.map_map]
    exact Header.nodup_keys_ofEntries (entries inside)
  have hfields : ∀ field ∈ writtenFields (header inside),
      IsWritable field.1.toList field.2.toList := by
    intro field hmem
    obtain ⟨entry, hentry, rfl⟩ := List.mem_map.1 hmem
    exact (isWritable_of_mem_header hentry).1
  have htrim :
      Text.trim (Document.ofText text).body.toList = (Document.ofText text).body.toList := by
    rw [hbody, Text.trim_trim]
  have hsplit := split_render hkeys hfields (Document.ofText text).body.toList
  rw [map_writtenFields_header, htrim] at hsplit
  refine ⟨hkeys, hfields, htrim, ?_, ?_⟩
  · rw [Document.ofText, renderHeader, String.toList_ofList, hsplit]
  · rw [Document.ofText, renderHeader, String.toList_ofList, hsplit]
    exact String.ofList_toList

/-- Fields with a quoted value, without anything, and with a colon and a comment sign in the
value. -/
def awkwardFields : List (String × String) :=
  [("name", "'é'"), ("", ""), ("tool-s", "a: b #")]

/-- A text with a comment in its header block and the same key twice. -/
def repeatedKeyText : String :=
  "---\r\nname: a\n\n# x: y\nname : \"b\"\n---\n\nBody \n"

/-- The awkward fields are read back, and the text with a repeated key has a header of one field. -/
theorem split_render_awkward :
    split (render awkwardFields "\n---\nBody \n".toList) =
      (some ⟨[("name", ⟨"'é'", "é"⟩), ("", ⟨"", ""⟩), ("tool-s", ⟨"a: b #", "a: b #"⟩)]⟩,
        "---\nBody".toList) ∧
    (Document.ofText repeatedKeyText).header = some ⟨[("name", ⟨"\"b\"", "b"⟩)]⟩ ∧
    (Document.ofText (renderHeader ⟨[("name", ⟨"\"b\"", "b"⟩)]⟩
      (Document.ofText repeatedKeyText).body)).header = some ⟨[("name", ⟨"\"b\"", "b"⟩)]⟩ := by
  obtain ⟨hread, hnormal⟩ := split_render_normal_form
  have hkeys : (awkwardFields.map (·.1)).Nodup := by
    decide
  have hfields : ∀ field ∈ awkwardFields, IsWritable field.1.toList field.2.toList := by
    decide
  have hheader :
      (Document.ofText repeatedKeyText).header = some ⟨[("name", ⟨"\"b\"", "b"⟩)]⟩ := by
    decide
  refine ⟨?_, hheader, ?_⟩
  · exact (hread _ _ hkeys hfields).trans (by decide)
  · exact (hnormal _ _ hheader).2.2.2.1

end RoundTrip

end Frontmatter
end SkillAudit
