import SkillAudit.Text.Pattern

/-!
# What patterns match

Matching by derivatives decides the texts that a pattern describes.  A pattern that is looked for in
a text may stand between anchors: one for the start of the text and one for its end.  Alternatives
that have both anchors are found in a text exactly when one of them describes the whole of it.

* `matches_after_iff`: what has to follow a character, by induction on the pattern.
* `accepts_iff_matches`: matching decides the described texts, by induction on the text.
* `found_anchored_iff`: a search for anchored alternatives.
-/

namespace SkillAudit
namespace Text
namespace Pattern

section Derivatives

variable {p q : Pattern}
variable {c : Char}
variable {s : List Char}

theorem not_matches_nothing :
    ¬ Matches nothing s := by
  intro h
  cases h

theorem matches_blank_iff :
    Matches blank s ↔ s = [] := by
  constructor
  · intro h
    cases h
    rfl
  · rintro rfl
    exact .blank

theorem matches_oneOf_iff
    {ranges : List (Char × Char)} :
    Matches (oneOf ranges) s ↔ ∃ c, inRanges ranges c = true ∧ s = [c] := by
  constructor
  · intro h
    cases h with
    | oneOf hc => exact ⟨_, hc, rfl⟩
  · rintro ⟨c, hc, rfl⟩
    exact .oneOf hc

theorem matches_andThen_iff :
    Matches (andThen p q) s ↔
      ∃ front rest, s = front ++ rest ∧ Matches p front ∧ Matches q rest := by
  constructor
  · intro h
    cases h with
    | andThen hfront hrest => exact ⟨_, _, rfl, hfront, hrest⟩
  · rintro ⟨front, rest, rfl, hfront, hrest⟩
    exact .andThen hfront hrest

theorem matches_either_iff :
    Matches (either p q) s ↔ Matches p s ∨ Matches q s := by
  constructor
  · intro h
    cases h with
    | left h => exact Or.inl h
    | right h => exact Or.inr h
  · rintro (h | h)
    · exact .left h
    · exact .right h

/-- A repetition starts with the first of its parts that is not empty. -/
theorem matches_many_cons_iff :
    Matches (many p) (c :: s) ↔
      ∃ front rest, s = front ++ rest ∧ Matches p (c :: front) ∧ Matches (many p) rest := by
  constructor
  · intro h
    generalize hmany : many p = pattern at h
    generalize htext : c :: s = text at h
    induction h with
    | manyNil =>
        cases htext
    | @manyCons _ front rest hfront hrest _ ih =>
        cases hmany
        cases front with
        | nil =>
            exact ih rfl htext
        | cons d front =>
            obtain ⟨rfl, rfl⟩ := List.cons.inj htext
            exact ⟨front, rest, rfl, hfront, hrest⟩
    | _ =>
        cases hmany
  · rintro ⟨front, rest, rfl, hfront, hrest⟩
    exact .manyCons hfront hrest

theorem acceptsEmpty_iff :
    p.acceptsEmpty = true ↔ Matches p [] := by
  induction p with
  | nothing =>
      simp [acceptsEmpty, not_matches_nothing]
  | blank =>
      simp [acceptsEmpty, matches_blank_iff]
  | oneOf ranges =>
      simp [acceptsEmpty, matches_oneOf_iff]
  | andThen front rest ihfront ihrest =>
      rw [acceptsEmpty, Bool.and_eq_true, ihfront, ihrest, matches_andThen_iff]
      constructor
      · rintro ⟨hfront, hrest⟩
        exact ⟨[], [], rfl, hfront, hrest⟩
      · rintro ⟨a, b, hempty, hfront, hrest⟩
        obtain ⟨rfl, rfl⟩ := List.nil_eq_append_iff.1 hempty
        exact ⟨hfront, hrest⟩
  | either a b iha ihb =>
      simp [acceptsEmpty, matches_either_iff, iha, ihb]
  | many p _ =>
      simp [acceptsEmpty, Matches.manyNil]

theorem matches_joined_iff :
    Matches (joined p q) s ↔ Matches (andThen p q) s := by
  unfold joined
  split
  · simp [matches_andThen_iff, not_matches_nothing]
  · rw [matches_andThen_iff]
    constructor
    · intro h
      exact ⟨[], s, rfl, .blank, h⟩
    · rintro ⟨front, rest, rfl, hfront, hrest⟩
      rw [matches_blank_iff.1 hfront]
      exact hrest
  · rfl

theorem matches_united_iff :
    Matches (united p q) s ↔ Matches p s ∨ Matches q s := by
  unfold united
  split
  · simp [not_matches_nothing]
  · simp [not_matches_nothing]
  · exact matches_either_iff

/-- A text that starts with the front pattern starts with a character of it, unless that pattern
matches the empty text. -/
theorem matches_andThen_cons_iff :
    Matches (andThen p q) (c :: s) ↔
      (∃ front rest, s = front ++ rest ∧ Matches p (c :: front) ∧ Matches q rest) ∨
        (Matches p [] ∧ Matches q (c :: s)) := by
  rw [matches_andThen_iff]
  constructor
  · rintro ⟨front, rest, htext, hfront, hrest⟩
    cases front with
    | nil =>
        rw [List.nil_append] at htext
        exact Or.inr ⟨hfront, htext ▸ hrest⟩
    | cons d front =>
        obtain ⟨rfl, rfl⟩ := List.cons.inj htext
        exact Or.inl ⟨front, rest, rfl, hfront, hrest⟩
  · rintro (⟨front, rest, rfl, hfront, hrest⟩ | ⟨hfront, hrest⟩)
    · exact ⟨c :: front, rest, rfl, hfront, hrest⟩
    · exact ⟨[], c :: s, rfl, hfront, hrest⟩

theorem matches_after_iff :
    Matches (p.after c) s ↔ Matches p (c :: s) := by
  induction p generalizing s with
  | nothing =>
      simp [after, not_matches_nothing]
  | blank =>
      simp [after, not_matches_nothing, matches_blank_iff]
  | oneOf ranges =>
      rw [after, matches_oneOf_iff]
      split
      · next hc =>
          rw [matches_blank_iff]
          constructor
          · rintro rfl
            exact ⟨c, hc, rfl⟩
          · rintro ⟨d, -, hsingle⟩
            exact (List.cons.inj hsingle).2
      · next hc =>
          simp only [not_matches_nothing, false_iff]
          rintro ⟨d, hd, hsingle⟩
          exact hc ((List.cons.inj hsingle).1 ▸ hd)
  | andThen front rest ihfront ihrest =>
      have hjoined : Matches (joined (front.after c) rest) s ↔
          ∃ a b, s = a ++ b ∧ Matches front (c :: a) ∧ Matches rest b := by
        simp only [matches_joined_iff, matches_andThen_iff, ihfront]
      rw [matches_andThen_cons_iff, after]
      cases hempty : front.acceptsEmpty with
      | true =>
          rw [if_pos rfl, matches_united_iff, hjoined, ihrest]
          simp [acceptsEmpty_iff.1 hempty]
      | false =>
          have hnot : ¬ Matches front [] := by
            rw [← acceptsEmpty_iff, hempty]
            exact Bool.false_ne_true
          simp [hjoined, hnot]
  | either a b iha ihb =>
      rw [after, matches_united_iff, matches_either_iff, iha, ihb]
  | many p ih =>
      rw [after, matches_joined_iff, matches_andThen_iff, matches_many_cons_iff]
      simp only [ih]

/-- Matching by derivatives decides the described texts. -/
theorem accepts_iff_matches :
    p.accepts s = true ↔ Matches p s := by
  induction s generalizing p with
  | nil =>
      exact acceptsEmpty_iff
  | cons c rest ih =>
      rw [accepts, ih, matches_after_iff]

theorem matches_many_oneOf_iff
    {ranges : List (Char × Char)} :
    Matches (many (oneOf ranges)) s ↔ ∀ c ∈ s, inRanges ranges c = true := by
  induction s with
  | nil =>
      simp [Matches.manyNil]
  | cons c rest ih =>
      rw [matches_many_cons_iff, List.forall_mem_cons, ← ih]
      constructor
      · rintro ⟨front, tail, rfl, hfront, htail⟩
        obtain ⟨d, hd, hsingle⟩ := matches_oneOf_iff.1 hfront
        obtain ⟨rfl, rfl⟩ := List.cons.inj hsingle
        exact ⟨hd, htail⟩
      · rintro ⟨hc, hrest⟩
        exact ⟨[], rest, rfl, .oneOf hc, hrest⟩

end Derivatives

end Pattern

/-- A pattern with anchors, which is looked for in a text. -/
inductive Search where
  /-- The start of the text. -/
  | start
  /-- The end of the text. -/
  | finish
  | inner (p : Pattern)
  | andThen (front rest : Search)
  | either (a b : Search)

namespace Search

/-- The written form. -/
def text : Search → String
  | start => "^"
  | finish => "$"
  | inner p => p.text
  | andThen front rest => front.text ++ rest.text
  | either a b => a.text ++ "|" ++ b.text

/-- What a search describes, between what stands before and behind it in the text. -/
inductive Finds : Search → (before inside behind : List Char) → Prop
  | start {behind : List Char} : Finds start [] [] behind
  | finish {before : List Char} : Finds finish before [] []
  | inner {p : Pattern} {before inside behind : List Char} (h : p.Matches inside) :
      Finds (inner p) before inside behind
  | andThen {a b : Search} {before s t behind : List Char}
      (ha : Finds a before s (t ++ behind))
      (hb : Finds b (before ++ s) t behind) :
      Finds (andThen a b) before (s ++ t) behind
  | left {a b : Search} {before inside behind : List Char} (h : Finds a before inside behind) :
      Finds (either a b) before inside behind
  | right {a b : Search} {before inside behind : List Char} (h : Finds b before inside behind) :
      Finds (either a b) before inside behind

/-- Something in the text is as it is looked for. -/
def Found (search : Search) (text : List Char) : Prop :=
  ∃ before inside behind, text = before ++ inside ++ behind ∧ search.Finds before inside behind

/-- A pattern between both anchors. -/
def anchored (p : Pattern) : Search :=
  andThen start (andThen (inner p) finish)

theorem finds_anchored_iff
    {p : Pattern}
    {before inside behind : List Char} :
    (anchored p).Finds before inside behind ↔ before = [] ∧ behind = [] ∧ p.Matches inside := by
  constructor
  · intro h
    cases h with
    | andThen hstart hrest =>
        cases hstart
        cases hrest with
        | andThen hinner hfinish =>
            cases hfinish
            cases hinner with
            | inner hmatches => exact ⟨rfl, rfl, by simpa using hmatches⟩
  · rintro ⟨rfl, rfl, hmatches⟩
    have hfinish : finish.Finds ([] ++ inside) [] [] := .finish
    have hrest : (andThen (inner p) finish).Finds [] (inside ++ []) [] :=
      .andThen (.inner hmatches) hfinish
    have hall := Finds.andThen (a := start) (s := []) .start hrest
    simpa [anchored] using hall

/-- An anchored pattern is found in a text that it describes as a whole. -/
theorem found_anchored_iff
    {p : Pattern}
    {text : List Char} :
    (anchored p).Found text ↔ p.Matches text := by
  simp only [Found, finds_anchored_iff]
  constructor
  · rintro ⟨before, inside, behind, rfl, rfl, rfl, hmatches⟩
    simpa using hmatches
  · intro hmatches
    exact ⟨[], text, [], by simp, rfl, rfl, hmatches⟩

theorem found_either_iff
    {a b : Search}
    {text : List Char} :
    (either a b).Found text ↔ a.Found text ∨ b.Found text := by
  constructor
  · rintro ⟨before, inside, behind, htext, hfinds⟩
    cases hfinds with
    | left h => exact Or.inl ⟨before, inside, behind, htext, h⟩
    | right h => exact Or.inr ⟨before, inside, behind, htext, h⟩
  · rintro (⟨before, inside, behind, htext, h⟩ | ⟨before, inside, behind, htext, h⟩)
    · exact ⟨before, inside, behind, htext, .left h⟩
    · exact ⟨before, inside, behind, htext, .right h⟩

end Search
end Text
end SkillAudit
