import Mathlib.Data.List.Perm.Basic
import SkillAudit.Body
import SkillAudit.Proofs.Frontmatter.Contract
import SkillAudit.Proofs.Frontmatter.LastWins

/-!
# The order of the lines of a header block

The lines of a header block may stand in any order, as long as those of one key keep theirs: every
key keeps its field, and only the places of the keys change.  The checks of a header look fields up,
and one of them alone, the last, goes through the keys; so nothing else that is reported changes.

* `IsReordering.field?_eq`, `IsReordering.keys_perm`: fields and keys after a reordering.
* `runChecks_fieldChecks_congr`: what the checks of the fields depend on.
* `diagnostics_reordered`: the reports on a text whose header block is reordered.
-/

namespace SkillAudit
namespace Frontmatter

section LineOrder

/-- The key to which a line contributes a field. -/
def keyOf? (line : List Char) : Option String :=
  (entryOf? line).map (·.1)

/-- A line without the carriage returns and line feeds at its end. -/
def stem (line : List Char) : List Char :=
  Text.dropEndWhile (fun c => c = '\n' || c = '\r') line

/-- The same lines in an order in which the lines of each key stand as before. -/
structure IsReordering (lines lines' : List (List Char)) : Prop where
  perm : lines.Perm lines'
  same_key : ∀ key,
    lines.filter (fun line => keyOf? line == some key) =
      lines'.filter (fun line => keyOf? line == some key)

theorem isDelimiter_eq_stem
    (line : List Char) :
    isDelimiter line = (stem line == Contract.headerDelimiter.toList) :=
  rfl

theorem entryOf?_stem
    (line : List Char) :
    entryOf? (stem line) = entryOf? line := by
  have hends : ∀ c : Char, (c = '\n' || c = '\r') = true → Text.isBlank c = true := by
    intro c hc
    rw [Bool.or_eq_true, decide_eq_true_eq, decide_eq_true_eq] at hc
    rcases hc with rfl | rfl
    · rfl
    · rfl
  rw [entryOf?, entryOf?, stem, Text.trim_dropEndWhile hends]

theorem filterMap_entryOf?_stem
    (lines : List (List Char)) :
    (lines.map stem).filterMap entryOf? = lines.filterMap entryOf? := by
  rw [List.filterMap_map]
  exact List.filterMap_congr fun line _ => entryOf?_stem line

section Reordering

variable {lines lines' : List (List Char)}

/-- The entries of a key come from the lines of that key. -/
theorem filter_filterMap_entryOf?
    (lines : List (List Char))
    (key : String) :
    (lines.filterMap entryOf?).filter (fun entry => entry.1 == key) =
      (lines.filter fun line => keyOf? line == some key).filterMap entryOf? := by
  induction lines with
  | nil =>
      rfl
  | cons line lines ih =>
      cases hentry : entryOf? line with
      | none =>
          have hkey : keyOf? line = none := by
            rw [keyOf?, hentry]
            rfl
          rw [List.filterMap_cons_none hentry, List.filter_cons_of_neg (by simp [hkey]), ih]
      | some entry =>
          have hkey : keyOf? line = some entry.1 := by
            rw [keyOf?, hentry]
            rfl
          rw [List.filterMap_cons_some hentry]
          by_cases hsame : entry.1 = key
          · rw [List.filter_cons_of_pos (by simpa using hsame),
              List.filter_cons_of_pos (by simpa [hkey] using hsame),
              List.filterMap_cons_some hentry, ih]
          · rw [List.filter_cons_of_neg (by simpa using hsame),
              List.filter_cons_of_neg (by simpa [hkey] using hsame), ih]

theorem IsReordering.field?_eq
    (h : IsReordering lines lines')
    (key : String) :
    (Header.ofEntries (lines.filterMap entryOf?)).field? key =
      (Header.ofEntries (lines'.filterMap entryOf?)).field? key := by
  rw [Header.field?_ofEntries, Header.field?_ofEntries, Header.lastInserted?,
    Header.lastInserted?, filter_filterMap_entryOf?, filter_filterMap_entryOf?, h.same_key]

theorem IsReordering.keys_perm
    (h : IsReordering lines lines') :
    (Header.ofEntries (lines.filterMap entryOf?)).keys.Perm
      (Header.ofEntries (lines'.filterMap entryOf?)).keys := by
  refine (List.perm_ext_iff_of_nodup (Header.nodup_keys_ofEntries _)
    (Header.nodup_keys_ofEntries _)).2 fun key => ?_
  rw [Header.mem_keys_ofEntries, Header.mem_keys_ofEntries]
  exact ((h.perm.filterMap entryOf?).map (·.1)).mem_iff

end Reordering

section Lookups

variable {header header' : Header}

/-- The checks that look fields up; the one that remains goes through the keys. -/
def fieldChecks : List (Check Header) :=
  missingName :: nameChecks ++ missingDescription :: descriptionChecks

theorem diagnostics_some
    (header : Header) :
    diagnostics (some header) = runChecks fieldChecks header ++ unknownField.run header := by
  have hchecks : checks = fieldChecks ++ [unknownField] :=
    rfl
  rw [diagnostics, hchecks, runChecks_append, runChecks_cons, runChecks_nil, List.append_nil]

/-- The checks of the fields depend on the fields of two keys only. -/
theorem runChecks_fieldChecks_congr
    (hname : header.field? "name" = header'.field? "name")
    (hdescription : header.field? "description" = header'.field? "description") :
    runChecks fieldChecks header = runChecks fieldChecks header' := by
  have hnames : name? header = name? header' := by
    rw [name?, name?, Header.nonEmpty?, Header.nonEmpty?, Header.get?, Header.get?, hname]
  have hdescriptions : description? header = description? header' := by
    rw [description?, description?, Header.nonEmpty?, Header.nonEmpty?, Header.get?, Header.get?,
      hdescription]
  simp only [fieldChecks, nameChecks, descriptionChecks, List.cons_append, List.nil_append,
    runChecks_cons, runChecks_nil, Check.run, missingName, nameTooLong, nameShape, nameWords,
    nameMarkup, missingDescription, descriptionTooLong, descriptionTooShort, descriptionMarkup,
    descriptionBlockScalar, descriptionFirstPerson, descriptionSecondPerson, descriptionTrigger,
    hnames, hdescriptions, hdescription]

theorem ruleId_of_mem_fieldChecks
    {d : Diagnostic}
    (h : d ∈ runChecks fieldChecks header) :
    d.ruleId ≠ "frontmatter/unknown-field" := by
  obtain ⟨check, hcheck, violation, -, rfl⟩ := mem_runChecks.1 h
  have hids : ∀ check ∈ fieldChecks, check.rule.id ≠ "frontmatter/unknown-field" := by
    decide
  exact hids check hcheck

theorem ruleId_of_mem_unknownField
    {d : Diagnostic}
    (h : d ∈ unknownField.run header) :
    d.ruleId = "frontmatter/unknown-field" := by
  obtain ⟨violation, -, rfl⟩ := List.mem_map.1 h
  rfl

/-- Without the reports on unknown keys, those of the field checks are left. -/
theorem filter_known_diagnostics
    (header : Header) :
    (diagnostics (some header)).filter (·.ruleId != "frontmatter/unknown-field") =
      runChecks fieldChecks header := by
  have hfields : (runChecks fieldChecks header).filter
      (·.ruleId != "frontmatter/unknown-field") = runChecks fieldChecks header :=
    List.filter_eq_self.2 fun d hd => bne_iff_ne.2 (ruleId_of_mem_fieldChecks hd)
  have hunknown : (unknownField.run header).filter
      (·.ruleId != "frontmatter/unknown-field") = [] :=
    List.filter_eq_nil_iff.2 fun d hd => by simp [ruleId_of_mem_unknownField hd]
  rw [diagnostics_some, List.filter_append, hfields, hunknown, List.append_nil]

theorem filter_unknown_diagnostics
    (header : Header) :
    (diagnostics (some header)).filter (·.ruleId == "frontmatter/unknown-field") =
      unknownField.run header := by
  have hfields : (runChecks fieldChecks header).filter
      (·.ruleId == "frontmatter/unknown-field") = [] :=
    List.filter_eq_nil_iff.2 fun d hd => by simp [ruleId_of_mem_fieldChecks hd]
  have hunknown : (unknownField.run header).filter
      (·.ruleId == "frontmatter/unknown-field") = unknownField.run header :=
    List.filter_eq_self.2 fun d hd => beq_iff_eq.2 (ruleId_of_mem_unknownField hd)
  rw [diagnostics_some, List.filter_append, hfields, hunknown, List.nil_append]

theorem run_unknownField_perm
    (h : header.keys.Perm header'.keys) :
    (unknownField.run header).Perm (unknownField.run header') :=
  ((h.filter _).map _).map _

end Lookups

section Cut

variable {text opening closing rest : List Char}
variable {inner inner' : List (List Char)}

theorem IsCut.isEndedLine
    (h : IsCut text opening inner closing rest) :
    ∀ line ∈ opening :: inner, Text.IsEndedLine line :=
  Text.isEndedLine_of_mem_of_segments (h.segments_eq.trans List.cons_append.symm)

/-- The lines between the delimiters of a cut may be replaced by others that are no delimiters. -/
theorem IsCut.replace
    (h : IsCut text opening inner closing rest)
    (hended : ∀ line ∈ inner', Text.IsEndedLine line)
    (hplain : ∀ line ∈ inner', isDelimiter line = false) :
    IsCut (opening ++ inner'.flatten ++ closing ++ rest) opening inner' closing rest where
  segments_eq := by
    have htail : Text.segments (closing ++ rest) = closing :: Text.segments rest := by
      have hlines := Text.segments_flatten_of_append
        (h.segments_eq.trans List.cons_append.symm)
      rwa [List.flatten_cons, Text.segments_flatten] at hlines
    have hfront : ∀ line ∈ opening :: inner', Text.IsEndedLine line :=
      List.forall_mem_cons.2 ⟨h.isEndedLine opening List.mem_cons_self, hended⟩
    have hlines := Text.segments_flatten_append hfront (closing ++ rest)
    rw [htail, List.flatten_cons, ← List.append_assoc] at hlines
    rw [hlines, List.cons_append]
  opening_delimits := h.opening_delimits
  inner_plain := hplain
  closing_delimits := h.closing_delimits

theorem isDelimiter_of_isReordering
    (hplain : ∀ line ∈ inner, isDelimiter line = false)
    (h : IsReordering (inner.map stem) (inner'.map stem)) :
    ∀ line ∈ inner', isDelimiter line = false := by
  intro line hline
  have hmem : stem line ∈ inner.map stem := h.perm.mem_iff.2 (List.mem_map_of_mem hline)
  obtain ⟨old, hold, hstem⟩ := List.mem_map.1 hmem
  rw [isDelimiter_eq_stem, ← hstem, ← isDelimiter_eq_stem, hplain old hold]

theorem header_flatten
    (hended : ∀ line ∈ inner, Text.IsEndedLine line) :
    header inner.flatten = Header.ofEntries ((inner.map stem).filterMap entryOf?) := by
  rw [header, entries_flatten hended, filterMap_entryOf?_stem]

theorem IsCut.document_eq
    (h : IsCut text opening inner closing rest) :
    (Document.ofText (String.ofList text)).header =
        some (Header.ofEntries ((inner.map stem).filterMap entryOf?)) ∧
      (Document.ofText (String.ofList text)).body = String.ofList (Text.trim rest) := by
  have hended : ∀ line ∈ inner, Text.IsEndedLine line := fun line hline =>
    h.isEndedLine line (List.mem_cons_of_mem opening hline)
  rw [Document.ofText, String.toList_ofList, h.split_eq, header_flatten hended]
  exact ⟨rfl, rfl⟩

end Cut

/--
A text has a header exactly if it is cut into an opening delimiter, the lines of a block, a closing
delimiter and a rest.  Let its block have the same lines in another order, in which those of each
key stand as before; their terminators may move with them or not.  Then the text still has a header
and the same body, the reports on the header are the same and in the same order but for those on
unknown keys, these are the same in some order, and the reports on the body are the same.  Apart
from the unknown keys, all that is reported of a header depends on its name and its description
alone.
-/
theorem diagnostics_reordered :
    (∀ text : List Char, (Document.ofText (String.ofList text)).header.isSome = true ↔
      ∃ opening inner closing rest, IsCut text opening inner closing rest) ∧
    (∀ (text opening closing rest : List Char) (inner inner' : List (List Char)),
      IsCut text opening inner closing rest →
      (∀ line ∈ inner', Text.IsEndedLine line) →
      IsReordering (inner.map stem) (inner'.map stem) →
      let before := Document.ofText (String.ofList text)
      let after :=
        Document.ofText (String.ofList (opening ++ inner'.flatten ++ closing ++ rest))
      after.header.isSome = true ∧
      (diagnostics before.header).filter (·.ruleId != "frontmatter/unknown-field") =
        (diagnostics after.header).filter (·.ruleId != "frontmatter/unknown-field") ∧
      ((diagnostics before.header).filter (·.ruleId == "frontmatter/unknown-field")).Perm
        ((diagnostics after.header).filter (·.ruleId == "frontmatter/unknown-field")) ∧
      before.body = after.body ∧
      Body.diagnostics before.body = Body.diagnostics after.body) ∧
    (∀ header header' : Header,
      header.field? "name" = header'.field? "name" →
      header.field? "description" = header'.field? "description" →
      (diagnostics (some header)).filter (·.ruleId != "frontmatter/unknown-field") =
        (diagnostics (some header')).filter (·.ruleId != "frontmatter/unknown-field")) := by
  refine ⟨fun text => ⟨fun h => ?_, ?_⟩, ?_, ?_⟩
  · obtain ⟨fields, hfields⟩ := Option.isSome_iff_exists.1 h
    obtain ⟨inside, rest, hlocate, -⟩ := ofText_header_eq_some_iff.1 hfields
    rw [String.toList_ofList] at hlocate
    obtain ⟨opening, inner, closing, hcut, -⟩ := locate?_eq_some_iff.1 hlocate
    exact ⟨opening, inner, closing, rest, hcut⟩
  · rintro ⟨opening, inner, closing, rest, hcut⟩
    rw [hcut.document_eq.1]
    rfl
  · intro text opening closing rest inner inner' hcut hended horder before after
    have hcut' := hcut.replace hended (isDelimiter_of_isReordering hcut.inner_plain horder)
    obtain ⟨hbefore, hbody⟩ := hcut.document_eq
    obtain ⟨hafter, hbody'⟩ := hcut'.document_eq
    have hsame : before.body = after.body := hbody.trans hbody'.symm
    simp only [before, after, hbefore, hafter] at hsame ⊢
    refine ⟨rfl, ?_, ?_, hsame, by rw [hsame]⟩
    · rw [filter_known_diagnostics, filter_known_diagnostics]
      exact runChecks_fieldChecks_congr (horder.field?_eq _) (horder.field?_eq _)
    · rw [filter_unknown_diagnostics, filter_unknown_diagnostics]
      exact run_unknownField_perm horder.keys_perm
  · intro header header' hname hdescription
    rw [filter_known_diagnostics, filter_known_diagnostics]
    exact runChecks_fieldChecks_congr hname hdescription

/-- The lines of a block with a key that comes twice, a comment and unknown keys. -/
def shuffledLines : List (List Char) :=
  ["x: 1\n".toList, "name: a\r\n".toList, "# c\n".toList, "name: b\n".toList, "y: 2\n".toList]

/-- The same lines in another order, with the carriage return where it was. -/
def reshuffledLines : List (List Char) :=
  ["y: 2\n".toList, "x: 1\r\n".toList, "name: a\n".toList, "name: b\n".toList, "# c\n".toList]

theorem isReordering_shuffledLines :
    IsReordering (shuffledLines.map stem) (reshuffledLines.map stem) := by
  refine ⟨by decide, fun key => ?_⟩
  by_cases hx : "x" = key
  · subst hx
    decide
  by_cases hname : "name" = key
  · subst hname
    decide
  by_cases hy : "y" = key
  · subst hy
    decide
  -- No line contributes to any other key.
  have hother : ∀ line ∈ shuffledLines.map stem ++ reshuffledLines.map stem,
      keyOf? line ∈ [some "x", some "name", some "y", none] := by
    decide
  have hne : ∀ line ∈ shuffledLines.map stem ++ reshuffledLines.map stem,
      ¬ (keyOf? line == some key) = true := by
    intro line hline
    rw [beq_iff_eq]
    intro hkey
    have hmem := hother line hline
    rw [hkey] at hmem
    simp [Ne.symm hx, Ne.symm hname, Ne.symm hy] at hmem
  rw [List.filter_eq_nil_iff.2 fun line hline => hne line (List.mem_append_left _ hline),
    List.filter_eq_nil_iff.2 fun line hline => hne line (List.mem_append_right _ hline)]

/-- Two texts with the shuffled lines in their header blocks: the later name counts in both, and the
unknown keys are reported in another order. -/
theorem diagnostics_reshuffled :
    IsReordering (shuffledLines.map stem) (reshuffledLines.map stem) ∧
    (diagnostics (Document.ofText
        "---\nx: 1\nname: a\r\n# c\nname: b\ny: 2\n---\nBody").header).filter
          (·.ruleId != "frontmatter/unknown-field") =
      (diagnostics (Document.ofText
        "---\ny: 2\nx: 1\r\nname: a\nname: b\n# c\n---\nBody").header).filter
          (·.ruleId != "frontmatter/unknown-field") := by
  have hcut : IsCut "---\nx: 1\nname: a\r\n# c\nname: b\ny: 2\n---\nBody".toList
      "---\n".toList shuffledLines "---\n".toList "Body".toList :=
    ⟨by decide, by decide, by decide, by decide⟩
  have hended : ∀ line ∈ reshuffledLines, Text.IsEndedLine line := by
    have hlast : ∀ line ∈ reshuffledLines,
        '\n' ∉ line.dropLast ∧ line = line.dropLast ++ ['\n'] := by
      decide
    exact fun line hline => ⟨line.dropLast, hlast line hline⟩
  exact ⟨isReordering_shuffledLines,
    (diagnostics_reordered.2.1 _ _ _ _ _ _ hcut hended isReordering_shuffledLines).2.1⟩

end LineOrder

end Frontmatter
end SkillAudit
