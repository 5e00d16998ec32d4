import Mathlib.Data.List.DropRight
import Mathlib.Data.List.TakeWhile
import SkillAudit.Text.Blank

/-!
# Trimmed texts

A text is trimmed exactly if neither its first nor its last character is blank.  Trimming gives such
a text, a part of the one that is trimmed, and blanks around a text make no difference to it.

* `trim_eq_self_iff`: which texts are trimmed.
* `trim_trim`, `trim_isInfix`: what trimming gives.
* `trim_append_blanks`: blanks around a text do not count.
* `exists_eq_append_trim`: what trimming takes away.
-/

namespace SkillAudit
namespace Text

section Trimming

/-- Dropping at the end is what the list library calls dropping from the right. -/
theorem dropEndWhile_eq_rdropWhile
    (p : Char → Bool)
    (text : List Char) :
    dropEndWhile p text = text.rdropWhile p :=
  rfl

/-- What is dropped from the end has no part in what is left. -/
theorem dropEndWhile_append_of_forall
    {p : Char → Bool}
    {tail : List Char}
    (htail : ∀ c ∈ tail, p c = true)
    (front : List Char) :
    dropEndWhile p (front ++ tail) = dropEndWhile p front := by
  have hall : ∀ c ∈ tail.reverse, p c = true := fun c hc => htail c (List.mem_reverse.1 hc)
  rw [dropEndWhile, List.reverse_append, List.dropWhile_append_of_pos hall]
  rfl

theorem trimEnd_isPrefix
    (text : List Char) :
    trimEnd text <+: text := by
  rw [trimEnd, dropEndWhile_eq_rdropWhile]
  exact List.rdropWhile_prefix _ _

theorem trim_isInfix
    (text : List Char) :
    trim text <:+: text :=
  (trimEnd_isPrefix _).isInfix.trans (List.dropWhile_suffix _).isInfix

theorem mem_of_mem_trim
    {c : Char}
    {text : List Char}
    (h : c ∈ trim text) :
    c ∈ text :=
  (trim_isInfix text).subset h

/-- What is not blank at the end protects what stands before it. -/
theorem trimEnd_append_of_not_blank
    {back : List Char}
    (hback : ¬ ∀ c ∈ back, isBlank c = true)
    (front : List Char) :
    trimEnd (front ++ back) = front ++ trimEnd back := by
  have hne : back.reverse.dropWhile isBlank ≠ [] := by
    rw [Ne, List.dropWhile_eq_nil_iff]
    exact fun h => hback fun c hc => h c (List.mem_reverse.2 hc)
  rw [trimEnd, dropEndWhile, List.reverse_append, List.dropWhile_append,
    if_neg (by simpa using hne), List.reverse_append, List.reverse_reverse, trimEnd, dropEndWhile]

theorem trimEnd_eq_self
    {text : List Char}
    (h : ∀ c, text.getLast? = some c → isBlank c = false) :
    trimEnd text = text := by
  rw [trimEnd, dropEndWhile_eq_rdropWhile, List.rdropWhile_eq_self_iff]
  intro hne
  rw [h _ (List.getLast?_eq_some_getLast hne)]
  exact Bool.false_ne_true

theorem getLast?_trimEnd
    {c : Char}
    {text : List Char}
    (h : (trimEnd text).getLast? = some c) :
    isBlank c = false := by
  have hne : trimEnd text ≠ [] := by
    intro hnil
    rw [hnil] at h
    cases h
  have hlast := List.rdropWhile_last_not isBlank text hne
  rw [List.getLast?_eq_some_getLast hne, Option.some.injEq] at h
  rw [← h]
  exact Bool.eq_false_iff.2 hlast

theorem dropWhile_isBlank_eq_self
    {text : List Char}
    (h : ∀ c, text.head? = some c → isBlank c = false) :
    text.dropWhile isBlank = text := by
  cases text with
  | nil =>
      rfl
  | cons c rest =>
      rw [List.dropWhile_cons, h c rfl]
      rfl

theorem getLast?_trim
    {c : Char}
    {text : List Char}
    (h : (trim text).getLast? = some c) :
    isBlank c = false :=
  getLast?_trimEnd h

/-- The first character that trimming leaves is the first one that is not blank. -/
theorem head?_dropWhile_of_head?_trim
    {c : Char}
    {text : List Char}
    (h : (trim text).head? = some c) :
    (text.dropWhile isBlank).head? = some c := by
  obtain ⟨rest, hrest⟩ := trimEnd_isPrefix (text.dropWhile isBlank)
  rw [← hrest, List.head?_append]
  exact congrArg (·.or rest.head?) h

theorem head?_trim
    {c : Char}
    {text : List Char}
    (h : (trim text).head? = some c) :
    isBlank c = false := by
  have hnot := List.head?_dropWhile_not isBlank text
  rw [head?_dropWhile_of_head?_trim h] at hnot
  exact hnot

/-- A text is trimmed if neither its first nor its last character is blank. -/
theorem trim_eq_self_iff
    {text : List Char} :
    trim text = text ↔
      ∀ c, text.head? = some c ∨ text.getLast? = some c → isBlank c = false := by
  constructor
  · intro h c hc
    rw [← h] at hc
    exact hc.elim head?_trim getLast?_trim
  · intro h
    rw [trim, dropWhile_isBlank_eq_self fun c hc => h c (Or.inl hc)]
    exact trimEnd_eq_self fun c hc => h c (Or.inr hc)

@[simp] theorem trim_trim
    (text : List Char) :
    trim (trim text) = trim text :=
  trim_eq_self_iff.2 fun _ hc => hc.elim head?_trim getLast?_trim

/-- Blanks in front of a text do not count. -/
theorem trim_blanks_append
    {before : List Char}
    (hbefore : ∀ c ∈ before, isBlank c = true)
    (text : List Char) :
    trim (before ++ text) = trim text := by
  rw [trim, List.dropWhile_append_of_pos hbefore, trim]

theorem trim_append_blanks_behind
    (text : List Char)
    {after : List Char}
    (hafter : ∀ c ∈ after, isBlank c = true) :
    trim (text ++ after) = trim text := by
  rw [trim, List.dropWhile_append]
  split
  · next hnil =>
      rw [trim, List.isEmpty_iff.1 hnil, List.dropWhile_eq_nil_iff.2 hafter]
  · exact dropEndWhile_append_of_forall hafter _

/-- A text is its trimmed form between blanks. -/
theorem exists_eq_append_trim
    (text : List Char) :
    ∃ before after,
      (∀ c ∈ before, isBlank c = true) ∧ (∀ c ∈ after, isBlank c = true) ∧
        text = before ++ (trim text ++ after) := by
  refine ⟨text.takeWhile isBlank, (text.dropWhile isBlank).rtakeWhile isBlank,
    fun c hc => List.mem_takeWhile_imp hc, fun c hc => List.mem_rtakeWhile_imp hc, ?_⟩
  have hback : trim text ++ (text.dropWhile isBlank).rtakeWhile isBlank =
      text.dropWhile isBlank :=
    List.rdropWhile_append_rtakeWhile
  rw [hback, List.takeWhile_append_dropWhile]

/-- Nothing is left of a text exactly if it has only blanks. -/
theorem trim_eq_nil_iff
    {text : List Char} :
    trim text = [] ↔ ∀ c ∈ text, isBlank c = true := by
  constructor
  · intro h c hc
    obtain ⟨before, after, hbefore, hafter, htext⟩ := exists_eq_append_trim text
    rw [h, List.nil_append] at htext
    rw [htext] at hc
    exact (List.mem_append.1 hc).elim (hbefore c) (hafter c)
  · intro h
    have hblanks := trim_blanks_append h []
    rwa [List.append_nil] at hblanks

/-- Blanks may be dropped from the end before a text is trimmed. -/
theorem trim_dropEndWhile
    {p : Char → Bool}
    (hp : ∀ c, p c = true → isBlank c = true)
    (text : List Char) :
    trim (dropEndWhile p text) = trim text := by
  have hparts : dropEndWhile p text ++ text.rtakeWhile p = text :=
    List.rdropWhile_append_rtakeWhile
  have hblank : ∀ c ∈ text.rtakeWhile p, isBlank c = true := fun c hc =>
    hp c (List.mem_rtakeWhile_imp hc)
  have htrim := trim_append_blanks_behind (dropEndWhile p text) hblank
  rw [hparts] at htrim
  exact htrim.symm

/-- Blanks around a text do not count. -/
theorem trim_append_blanks
    {before after : List Char}
    (hbefore : ∀ c ∈ before, isBlank c = true)
    (hafter : ∀ c ∈ after, isBlank c = true)
    (text : List Char) :
    trim (before ++ text ++ after) = trim text := by
  rw [trim_append_blanks_behind _ hafter, trim_blanks_append hbefore]

end Trimming

end Text
end SkillAudit
