import Mathlib.Data.List.Basic
import Mathlib.Data.List.Infix
import SkillAudit.Frontmatter.Checks
import SkillAudit.Proofs.Text.Matching

/-!
# The written contract of a header

The contract of a header as it is written down: conditions on the characters of the name and the
description, with every threshold and every word in place, and what is reported where a condition
does not hold.  The checks of a header report exactly this, in this order.

* `hasNameShape_iff`: the shapes of a name, as a condition on its characters.
* `runChecks_nameChecks`, `runChecks_descriptionChecks`: the checks of one field.
* `diagnostics_eq_contract`: all checks, and what it means to match the written name pattern.
-/

namespace SkillAudit
namespace Frontmatter

section Contract

/-- A small letter, a digit or a hyphen. -/
def IsNameChar (c : Char) : Prop :=
  ('a' ≤ c ∧ c ≤ 'z') ∨ ('0' ≤ c ∧ c ≤ '9') ∨ c = '-'

instance (c : Char) : Decidable (IsNameChar c) :=
  inferInstanceAs (Decidable (_ ∨ _ ∨ _))

/-- Small letters, digits and hyphens, with no hyphen at either end. -/
def IsKebab (name : List Char) : Prop :=
  (∀ c ∈ name, IsNameChar c) ∧ name.head? ≠ some '-' ∧ name.getLast? ≠ some '-'

instance (name : List Char) : Decidable (IsKebab name) :=
  inferInstanceAs (Decidable (_ ∧ _ ∧ _))

/-- One diagnostic on the entry document, where a condition holds. -/
def reportIf
    (condition : Prop)
    [Decidable condition]
    (ruleId : String)
    (severity : Severity)
    (category : Category)
    (message : String) :
    List Diagnostic :=
  if condition then
    [{ ruleId, severity, category, message, file := some "SKILL.md" }]
  else
    []

/-- What is reported of a name that is not empty. -/
def nameContract (name : String) : List Diagnostic :=
  let small := Text.lowercase name.toList
  reportIf (64 < name.length) "name/too-long" .error .name
    ("name too long: " ++ toString name.length ++ " chars (max " ++ toString 64 ++ ")") ++
  reportIf (¬ IsKebab name.toList) "name/invalid-shape" .error .name
    ("invalid shape: '" ++ name ++ "' must be lowercase letters, digits, and interior hyphens") ++
  reportIf ("anthropic".toList <:+: small) "name/forbidden-word" .error .name
    "forbidden word 'anthropic' in name" ++
  reportIf ("claude".toList <:+: small) "name/forbidden-word" .error .name
    "forbidden word 'claude' in name" ++
  reportIf ('<' ∈ name.toList ∨ '>' ∈ name.toList) "name/markup" .error .name
    "markup characters disallowed in name"

/-- What is reported of a description that is not empty, with its written value. -/
def descriptionContract (raw description : String) : List Diagnostic :=
  let small := Text.lowercase description.toList
  reportIf (1024 < description.length) "description/too-long" .error .description
    ("description too long: " ++ toString description.length ++ " chars (max " ++
      toString 1024 ++ ")") ++
  reportIf (description.length < 30) "description/too-short" .warning .description
    ("description too short: " ++ toString description.length ++ " chars (recommend at least " ++
      toString 30 ++ ")") ++
  reportIf ('<' ∈ description.toList ∧ '>' ∈ description.toList) "description/markup" .error
    .description "markup characters disallowed in description" ++
  reportIf (">-".toList <+: raw.toList ∨ "|".toList <+: raw.toList) "description/block-scalar"
    .error .description
    ("block-scalar indicators (>- or |) break downstream indexing; " ++
      "use a single-quoted string") ++
  reportIf ("i ".toList <+: small ∨ "i can".toList <:+: small ∨ "i will".toList <:+: small)
    "description/first-person" .warning .description
    "description should be third person (not 'I can/will')" ++
  reportIf ("you can".toList <:+: small ∨ "you should".toList <:+: small)
    "description/second-person" .warning .description
    "description should be third person (not 'you can/should')" ++
  reportIf (¬ ("use when".toList <:+: small ∨ "use this".toList <:+: small))
    "description/no-trigger" .warning .description
    "missing usage-trigger language (add 'Use when...' for better triggering)"

/-- What is reported of a field: that it is missing, also when its value is empty, or else what
there is to report of its content. -/
def fieldContract
    (missing : List Diagnostic)
    (content : Field → List Diagnostic) :
    Option Field → List Diagnostic
  | none => missing
  | some field => if field.value = "" then missing else content field

/-- The keys that the contract knows. -/
def knownKeys : List String :=
  ["name", "description", "argument-hint", "disable-model-invocation", "user-invocable",
    "allowed-tools", "model", "context", "agent", "hooks", "license", "compatibility", "metadata"]

/-- What is reported of a header. -/
def contract (header : Header) : List Diagnostic :=
  fieldContract
    (reportIf True "frontmatter/missing-name" .error .frontmatter "missing name field")
    (fun field => nameContract field.value)
    (header.field? "name") ++
  fieldContract
    (reportIf True "frontmatter/missing-description" .error .frontmatter
      "missing description field")
    (fun field => descriptionContract field.raw field.value)
    (header.field? "description") ++
  header.keys.flatMap fun key =>
    reportIf (key ∉ knownKeys) "frontmatter/unknown-field" .warning .frontmatter
      ("unknown field '" ++ key ++ "'")

end Contract

section NameShape

open Text (Pattern Search)

theorem inRanges_nameEdge_iff
    {c : Char} :
    Pattern.inRanges [('a', 'z'), ('0', '9')] c = true ↔ IsNameChar c ∧ c ≠ '-' := by
  simp only [Pattern.inRanges, List.any_cons, List.any_nil, Bool.or_false, Bool.or_eq_true,
    Bool.and_eq_true, decide_eq_true_eq, IsNameChar]
  constructor
  · rintro (h | h)
    · refine ⟨Or.inl h, ?_⟩
      rintro rfl
      exact absurd h.1 (by decide)
    · refine ⟨Or.inr (Or.inl h), ?_⟩
      rintro rfl
      exact absurd h.1 (by decide)
  · rintro ⟨h | h | h, hne⟩
    · exact Or.inl h
    · exact Or.inr h
    · exact absurd h hne

theorem inRanges_nameInner_iff
    {c : Char} :
    Pattern.inRanges [('a', 'z'), ('0', '9'), ('-', '-')] c = true ↔ IsNameChar c := by
  simp only [Pattern.inRanges, List.any_cons, List.any_nil, Bool.or_false, Bool.or_eq_true,
    Bool.and_eq_true, decide_eq_true_eq, IsNameChar]
  have hhyphen : '-' ≤ c ∧ c ≤ '-' ↔ c = '-' := by
    constructor
    · rintro ⟨hlow, hhigh⟩
      exact Char.le_antisymm hhigh hlow
    · rintro rfl
      exact ⟨Char.le_refl _, Char.le_refl _⟩
  rw [hhyphen]

theorem getLast?_between
    {a b : Char}
    {inner : List Char} :
    (a :: (inner ++ [b])).getLast? = some b := by
  rw [← List.cons_append, List.getLast?_concat]

/-- The shapes of a name describe the texts of small letters, digits and inner hyphens that are not
empty. -/
theorem matches_nameShapes_iff
    {name : List Char} :
    (∃ shape ∈ Contract.nameShapes, shape.Matches name) ↔ name ≠ [] ∧ IsKebab name := by
  simp only [Contract.nameShapes, Contract.nameEdge, List.mem_cons, List.not_mem_nil, or_false,
    exists_eq_or_imp, exists_eq_left, Pattern.matches_andThen_iff, Pattern.matches_oneOf_iff,
    Pattern.matches_many_oneOf_iff, inRanges_nameEdge_iff, inRanges_nameInner_iff]
  constructor
  · rintro (⟨_, _, rfl, ⟨a, ha, rfl⟩, inner, _, rfl, hinner, b, hb, rfl⟩ | ⟨a, ha, rfl⟩)
    · refine ⟨by simp, ?_, ?_, ?_⟩
      · intro c hc
        simp only [List.singleton_append, List.mem_cons, List.mem_append, List.not_mem_nil,
          or_false] at hc
        rcases hc with rfl | hc | rfl
        · exact ha.1
        · exact hinner c hc
        · exact hb.1
      · simpa using ha.2
      · simpa [getLast?_between] using hb.2
    · exact ⟨by simp, by simpa using ha.1, by simpa using ha.2, by simpa using ha.2⟩
  · rintro ⟨hne, hall, hhead, hlast⟩
    -- A name of one character is an edge; a longer one has an edge on either side.
    cases name with
    | nil => exact absurd rfl hne
    | cons a rest =>
        have ha : IsNameChar a ∧ a ≠ '-' := ⟨hall a (by simp), by simpa using hhead⟩
        rcases List.eq_nil_or_concat rest with rfl | ⟨inner, b, rfl⟩
        · exact Or.inr ⟨a, ha, rfl⟩
        · rw [List.concat_eq_append] at hall hlast ⊢
          rw [getLast?_between] at hlast
          have hb : IsNameChar b ∧ b ≠ '-' := ⟨hall b (by simp), by simpa using hlast⟩
          have hinner : ∀ c ∈ inner, IsNameChar c := fun c hc => hall c (by simp [hc])
          exact Or.inl ⟨[a], inner ++ [b], rfl, ⟨a, ha, rfl⟩, inner, [b], rfl, hinner, b, hb, rfl⟩

theorem hasNameShape_iff
    {name : String} :
    hasNameShape name = true ↔ name ≠ "" ∧ IsKebab name.toList := by
  rw [hasNameShape, List.any_eq_true]
  simp only [Pattern.accepts_iff_matches]
  rw [matches_nameShapes_iff, ne_eq, ne_eq, String.toList_eq_nil_iff]

/-- The search for a name: each of its shapes, between both anchors. -/
def nameSearch : Search :=
  .either
    (.anchored
      (.andThen (.oneOf [('a', 'z'), ('0', '9')])
        (.andThen (.many (.oneOf [('a', 'z'), ('0', '9'), ('-', '-')]))
          (.oneOf [('a', 'z'), ('0', '9')]))))
    (.anchored (.oneOf [('a', 'z'), ('0', '9')]))

theorem found_nameSearch_iff
    {name : List Char} :
    nameSearch.Found name ↔ name ≠ [] ∧ IsKebab name := by
  rw [nameSearch, Search.found_either_iff, Search.found_anchored_iff, Search.found_anchored_iff,
    ← matches_nameShapes_iff]
  simp [Contract.nameShapes, Contract.nameEdge]

end NameShape

section Checks

/-- The checks of the content of a name. -/
def nameChecks : List (Check Header) :=
  [nameTooLong, nameShape, nameWords, nameMarkup]

/-- The checks of the content of a description. -/
def descriptionChecks : List (Check Header) :=
  [descriptionTooLong, descriptionTooShort, descriptionMarkup, descriptionBlockScalar,
    descriptionFirstPerson, descriptionSecondPerson, descriptionTrigger]

variable {header : Header}

theorem map_inEntryIf
    (rule : Rule)
    {found : Bool}
    {message : String}
    {condition : Prop}
    [Decidable condition]
    (hfound : found = true ↔ condition) :
    (Violation.inEntryIf found message).map rule.diagnostic =
      reportIf condition rule.id rule.severity rule.category message := by
  rw [Violation.inEntryIf, reportIf]
  by_cases h : condition
  · rw [if_pos (hfound.2 h), if_pos h]
    rfl
  · rw [if_neg (fun hc => h (hfound.1 hc)), if_neg h]
    rfl

/-- What a check with one condition on a text reports of it. -/
theorem run_onText
    (check : Check Header)
    {text : Option String}
    {content message : String}
    {test : String → List Violation}
    {found : Bool}
    {condition : Prop}
    [Decidable condition]
    (htext : text = some content)
    (hviolations : check.violations header = onText text test)
    (htest : test content = Violation.inEntryIf found message)
    (hfound : found = true ↔ condition) :
    check.run header =
      reportIf condition check.rule.id check.rule.severity check.rule.category message := by
  rw [Check.run, hviolations, htext, onText_some, htest]
  exact map_inEntryIf check.rule hfound

/-- What a check that goes through a list of words reports. -/
theorem run_filtered
    (check : Check Header)
    {words : List String}
    {found : String → Bool}
    {message : String → String}
    {condition : String → Prop}
    [DecidablePred condition]
    (hviolations :
      check.violations header = (words.filter found).map fun word => .inEntry (message word))
    (hfound : ∀ word, found word = true ↔ condition word) :
    check.run header =
      words.flatMap fun word =>
        reportIf (condition word) check.rule.id check.rule.severity check.rule.category
          (message word) := by
  rw [Check.run, hviolations]
  clear hviolations
  induction words with
  | nil =>
      rfl
  | cons word rest ih =>
      rw [List.flatMap_cons, ← map_inEntryIf check.rule (hfound word), ← ih, List.filter_cons]
      cases found word <;> rfl

theorem nonEmpty?_eq_some_iff
    {key value : String} :
    header.nonEmpty? key = some value ↔
      value ≠ "" ∧ ∃ field, header.field? key = some field ∧ field.value = value := by
  rw [Header.nonEmpty?, Header.get?, Option.filter_eq_some_iff, Option.map_eq_some_iff, bne_iff_ne,
    and_comm]

theorem mentionsOne_iff
    {words : List String}
    {text : List Char} :
    mentionsOne words text = true ↔ ∃ word ∈ words, word.toList <:+: text := by
  simp [mentionsOne, Text.occursIn_iff]

theorem runChecks_nameChecks
    {name : String}
    (hname : name? header = some name) :
    runChecks nameChecks header = nameContract name := by
  have hne : name ≠ "" := (nonEmpty?_eq_some_iff.1 hname).1
  have htooLong : nameTooLong.run header =
      reportIf (64 < name.length) "name/too-long" .error .name
        ("name too long: " ++ toString name.length ++ " chars (max " ++ toString 64 ++ ")") :=
    run_onText nameTooLong hname rfl rfl decide_eq_true_iff
  have hshape : nameShape.run header =
      reportIf (¬ IsKebab name.toList) "name/invalid-shape" .error .name
        ("invalid shape: '" ++ name ++
          "' must be lowercase letters, digits, and interior hyphens") := by
    refine run_onText nameShape hname rfl rfl ?_
    rw [Bool.not_eq_true', ← Bool.not_eq_true, hasNameShape_iff]
    simp [hne]
  have hwords : nameWords.run header =
      reportIf ("anthropic".toList <:+: Text.lowercase name.toList) "name/forbidden-word" .error
        .name "forbidden word 'anthropic' in name" ++
      reportIf ("claude".toList <:+: Text.lowercase name.toList) "name/forbidden-word" .error
        .name "forbidden word 'claude' in name" := by
    have hviolations : nameWords.violations header =
        (Contract.forbiddenNameWords.filter fun word =>
            Text.occursIn word.toList (Text.lowercase name.toList)).map
          fun word => .inEntry ("forbidden word '" ++ word ++ "' in name") := by
      simp only [nameWords, hname, onText_some, small]
    rw [run_filtered nameWords hviolations fun _ => Text.occursIn_iff,
      Contract.forbiddenNameWords, List.flatMap_cons, List.flatMap_cons, List.flatMap_nil,
      List.append_nil]
    rfl
  have hmarkup : nameMarkup.run header =
      reportIf ('<' ∈ name.toList ∨ '>' ∈ name.toList) "name/markup" .error .name
        "markup characters disallowed in name" :=
    run_onText nameMarkup hname rfl rfl (by simp)
  simp only [nameChecks, runChecks_cons, runChecks_nil, htooLong, hshape, hwords, hmarkup,
    nameContract, List.append_nil, List.append_assoc]

theorem runChecks_descriptionChecks
    {field : Field}
    (hfield : header.field? "description" = some field)
    (hne : field.value ≠ "") :
    runChecks descriptionChecks header = descriptionContract field.raw field.value := by
  have hdescription : description? header = some field.value :=
    nonEmpty?_eq_some_iff.2 ⟨hne, field, hfield, rfl⟩
  have htooLong : descriptionTooLong.run header =
      reportIf (1024 < field.value.length) "description/too-long" .error .description
        ("description too long: " ++ toString field.value.length ++ " chars (max " ++
          toString 1024 ++ ")") :=
    run_onText descriptionTooLong hdescription rfl rfl decide_eq_true_iff
  have htooShort : descriptionTooShort.run header =
      reportIf (field.value.length < 30) "description/too-short" .warning .description
        ("description too short: " ++ toString field.value.length ++
          " chars (recommend at least " ++ toString 30 ++ ")") :=
    run_onText descriptionTooShort hdescription rfl rfl decide_eq_true_iff
  have hmarkup : descriptionMarkup.run header =
      reportIf ('<' ∈ field.value.toList ∧ '>' ∈ field.value.toList) "description/markup" .error
        .description "markup characters disallowed in description" :=
    run_onText descriptionMarkup hdescription rfl rfl (by simp)
  have hblock : descriptionBlockScalar.run header =
      reportIf (">-".toList <+: field.raw.toList ∨ "|".toList <+: field.raw.toList)
        "description/block-scalar" .error .description
        ("block-scalar indicators (>- or |) break downstream indexing; " ++
          "use a single-quoted string") := by
    have hviolations : descriptionBlockScalar.violations header =
        Violation.inEntryIf (isBlockScalar field.raw)
          ("block-scalar indicators (>- or |) break downstream indexing; " ++
            "use a single-quoted string") := by
      simp only [descriptionBlockScalar, hdescription, hfield, onText_some, Option.map_some]
    rw [Check.run, hviolations]
    refine map_inEntryIf _ ?_
    simp [isBlockScalar, Contract.blockScalarIndicators, Text.startsWith_iff]
  have hfirst : descriptionFirstPerson.run header =
      reportIf ("i ".toList <+: small field.value ∨ "i can".toList <:+: small field.value ∨
          "i will".toList <:+: small field.value)
        "description/first-person" .warning .description
        "description should be third person (not 'I can/will')" := by
    refine run_onText descriptionFirstPerson hdescription rfl rfl ?_
    rw [isFirstPerson, Bool.or_eq_true, Text.startsWith_iff, mentionsOne_iff]
    simp [Contract.firstPersonStart, Contract.firstPersonPhrases]
  have hsecond : descriptionSecondPerson.run header =
      reportIf ("you can".toList <:+: small field.value ∨
          "you should".toList <:+: small field.value)
        "description/second-person" .warning .description
        "description should be third person (not 'you can/should')" := by
    refine run_onText descriptionSecondPerson hdescription rfl rfl ?_
    rw [mentionsOne_iff]
    simp [Contract.secondPersonPhrases]
  have htrigger : descriptionTrigger.run header =
      reportIf (¬ ("use when".toList <:+: small field.value ∨
          "use this".toList <:+: small field.value))
        "description/no-trigger" .warning .description
        "missing usage-trigger language (add 'Use when...' for better triggering)" := by
    refine run_onText descriptionTrigger hdescription rfl rfl ?_
    rw [Bool.not_eq_true', ← Bool.not_eq_true, mentionsOne_iff]
    simp [Contract.triggerPhrases]
  simp only [descriptionChecks, runChecks_cons, runChecks_nil, htooLong, htooShort, hmarkup, hblock,
    hfirst, hsecond, htrigger, descriptionContract, List.append_nil, List.append_assoc]
  rfl

theorem nonEmpty?_eq_none_iff
    {key : String} :
    header.nonEmpty? key = none ↔ ∀ field, header.field? key = some field → field.value = "" := by
  rw [Header.nonEmpty?, Header.get?, Option.filter_eq_none_iff]
  simp

theorem runChecks_nameChecks_of_none
    (hname : name? header = none) :
    runChecks nameChecks header = [] := by
  apply runChecks_eq_nil
  simp [nameChecks, nameTooLong, nameShape, nameWords, nameMarkup, hname]

theorem runChecks_descriptionChecks_of_none
    (hdescription : description? header = none) :
    runChecks descriptionChecks header = [] := by
  apply runChecks_eq_nil
  simp [descriptionChecks, descriptionTooLong, descriptionTooShort, descriptionMarkup,
    descriptionBlockScalar, descriptionFirstPerson, descriptionSecondPerson, descriptionTrigger,
    hdescription]

/-- The checks of a field that has to be there and the checks of its content report what the
contract says of the field. -/
theorem run_missing_append
    (missing : Check Header)
    (checks : List (Check Header))
    {key message : String}
    {content : Field → List Diagnostic}
    (hviolations :
      missing.violations header =
        Violation.inEntryIf (header.nonEmpty? key).isNone message)
    (hsilent : header.nonEmpty? key = none → runChecks checks header = [])
    (hcontent :
      ∀ field,
        header.field? key = some field →
          field.value ≠ "" → runChecks checks header = content field) :
    missing.run header ++ runChecks checks header =
      fieldContract
        (reportIf True missing.rule.id missing.rule.severity missing.rule.category message)
        content
        (header.field? key) := by
  have hrun : missing.run header =
      reportIf (header.nonEmpty? key = none) missing.rule.id missing.rule.severity
        missing.rule.category message := by
    rw [Check.run, hviolations]
    exact map_inEntryIf missing.rule Option.isNone_iff_eq_none
  rw [hrun]
  cases hfield : header.field? key with
  | none =>
      have hnone : header.nonEmpty? key = none := by
        rw [nonEmpty?_eq_none_iff, hfield]
        simp
      simp [fieldContract, reportIf, hnone, hsilent hnone]
  | some field =>
      by_cases hempty : field.value = ""
      · have hnone : header.nonEmpty? key = none := by
          rw [nonEmpty?_eq_none_iff, hfield]
          simpa using hempty
        simp [fieldContract, reportIf, hnone, hsilent hnone, hempty]
      · have hsome : header.nonEmpty? key = some field.value :=
          nonEmpty?_eq_some_iff.2 ⟨hempty, field, hfield, rfl⟩
        simp [fieldContract, reportIf, hsome, hempty, hcontent field hfield hempty]

theorem run_unknownField :
    unknownField.run header =
      header.keys.flatMap fun key =>
        reportIf (key ∉ knownKeys) "frontmatter/unknown-field" .warning .frontmatter
          ("unknown field '" ++ key ++ "'") := by
  refine run_filtered unknownField rfl ?_
  intro key
  rw [Bool.not_eq_true', ← Bool.not_eq_true, List.contains_iff_mem]
  rfl

/-- The checks of a header report what the written contract says, in its order: whether the name is
missing, else what is wrong with it; the same of the description; then each key that is not known.
The pattern of a name, as it is written, is found in a name exactly if that name is not empty, has
small letters, digits and hyphens only, and has no hyphen at either end. -/
theorem diagnostics_eq_contract :
    (∀ header : Header, diagnostics (some header) = contract header) ∧
    Contract.namePattern = "^[a-z0-9][a-z0-9-]*[a-z0-9]$|^[a-z0-9]$" ∧
    nameSearch.text = Contract.namePattern ∧
    ∀ name : String, nameSearch.Found name.toList ↔ name ≠ "" ∧ IsKebab name.toList := by
  refine ⟨?_, by decide, by decide, ?_⟩
  · intro header
    have hname : missingName.run header ++ runChecks nameChecks header =
        fieldContract
          (reportIf True "frontmatter/missing-name" .error .frontmatter "missing name field")
          (fun field => nameContract field.value)
          (header.field? "name") :=
      run_missing_append missingName nameChecks rfl runChecks_nameChecks_of_none
        fun field hfield hne =>
          runChecks_nameChecks (nonEmpty?_eq_some_iff.2 ⟨hne, field, hfield, rfl⟩)
    have hdescription : missingDescription.run header ++ runChecks descriptionChecks header =
        fieldContract
          (reportIf True "frontmatter/missing-description" .error .frontmatter
            "missing description field")
          (fun field => descriptionContract field.raw field.value)
          (header.field? "description") :=
      run_missing_append missingDescription descriptionChecks rfl
        runChecks_descriptionChecks_of_none
        fun field hfield hne => runChecks_descriptionChecks hfield hne
    have hchecks : checks =
        (missingName :: nameChecks) ++ (missingDescription :: descriptionChecks) ++
          [unknownField] := by
      rfl
    rw [diagnostics, hchecks, runChecks_append, runChecks_append, runChecks_cons, runChecks_cons,
      runChecks_cons, runChecks_nil, List.append_nil, hname, hdescription, run_unknownField,
      contract]
  · intro name
    rw [found_nameSearch_iff, ne_eq, ne_eq, String.toList_eq_nil_iff]

end Checks

end Frontmatter
end SkillAudit
