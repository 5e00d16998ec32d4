import SkillAudit.Proofs.Text.Trimming
import SkillAudit.Script.Checks

/-!
# What an interpreter says of a script

An interpreter that refuses a script says why on some line of an answer.  The judgement takes the
first line that is not blank, without the blanks around it.  A Python interpreter is handed a
program that ends with a code of its own for a syntax error and prints the error; so its exit code
decides, and what it printed is only shown.

* `firstLine_eq_iff`: the line that is taken.
* `judgePython_eq_invalid_iff`: the judgement of a run of a Python interpreter.
* `checkFile_python_eq_valid_iff`, `checkFile_python_eq_invalid_iff`: what comes of a Python script.
-/

namespace SkillAudit
namespace Script

section Lines

variable {lines : List (List Char)}
variable {line other : List Char}

/-- Nothing but blanks. -/
def IsBlankLine (line : List Char) : Prop :=
  ∀ c ∈ line, Text.isBlank c = true

theorem isBlankLine_nil :
    IsBlankLine [] :=
  fun _ hc => nomatch hc

theorem isBlankLine_iff :
    IsBlankLine line ↔ (Text.trim line).isEmpty = true := by
  rw [List.isEmpty_iff, Text.trim_eq_nil_iff, IsBlankLine]

/-- The first of some lines that is not blank. -/
def IsFirstOf (lines : List (List Char)) (line : List Char) : Prop :=
  ∃ before after,
    lines = before ++ line :: after ∧
    (∀ earlier ∈ before, IsBlankLine earlier) ∧
    ¬ IsBlankLine line

theorem IsFirstOf.unique
    (h : IsFirstOf lines line)
    (hother : IsFirstOf lines other) :
    line = other := by
  obtain ⟨before, after, hlines, hbefore, hline⟩ := h
  obtain ⟨before', after', hlines', hbefore', hline'⟩ := hother
  rw [hlines, List.append_eq_append_iff] at hlines'
  -- The one that stands further behind would have the other one among the blank lines before it.
  rcases hlines' with ⟨between, hlonger, hrest⟩ | ⟨between, hlonger, hrest⟩
  · cases between with
    | nil => exact (List.cons.inj hrest).1
    | cons first more =>
        obtain ⟨rfl, -⟩ := List.cons.inj hrest
        exact absurd (hbefore' line (by simp [hlonger])) hline
  · cases between with
    | nil => exact (List.cons.inj hrest).1.symm
    | cons first more =>
        obtain ⟨rfl, -⟩ := List.cons.inj hrest
        exact absurd (hbefore other (by simp [hlonger])) hline'

theorem find?_eq_some_iff_isFirst :
    lines.find? (fun line => !(Text.trim line).isEmpty) = some line ↔ IsFirstOf lines line := by
  have hline : (!(Text.trim line).isEmpty) = true ↔ ¬ IsBlankLine line := by
    rw [isBlankLine_iff, Bool.not_eq_true', Bool.not_eq_true]
  have hearlier (earlier : List Char) :
      (!!(Text.trim earlier).isEmpty) = true ↔ IsBlankLine earlier := by
    rw [Bool.not_not, isBlankLine_iff]
  simp only [List.find?_eq_some_iff_append, hline, hearlier, IsFirstOf]
  constructor
  · rintro ⟨hplain, before, after, hlines, hbefore⟩
    exact ⟨before, after, hlines, hbefore, hplain⟩
  · rintro ⟨before, after, hlines, hbefore, hplain⟩
    exact ⟨hplain, before, after, hlines, hbefore⟩

/-- Either some line is the first one, or all lines are blank. -/
theorem exists_isFirst_or_blank
    (lines : List (List Char)) :
    (∃ line, IsFirstOf lines line) ∨ ∀ line ∈ lines, IsBlankLine line := by
  cases hfind : lines.find? (fun line => !(Text.trim line).isEmpty) with
  | some line =>
      exact Or.inl ⟨line, find?_eq_some_iff_isFirst.1 hfind⟩
  | none =>
      refine Or.inr fun line hline => ?_
      rw [isBlankLine_iff]
      simpa using List.find?_eq_none.1 hfind line hline

variable {text : String}

theorem firstLine_eq
    (text : String) :
    firstLine text = String.ofList
      ((((Text.lines text.toList).find? fun line => !(Text.trim line).isEmpty).map
        Text.trim).getD []) := by
  rw [firstLine, List.find?_map]
  rfl

/-- The first line that is not blank is taken, without the blanks around it. -/
theorem firstLine_of_isFirst
    (h : IsFirstOf (Text.lines text.toList) line) :
    firstLine text = String.ofList (Text.trim line) := by
  rw [firstLine_eq, find?_eq_some_iff_isFirst.2 h]
  rfl

/-- Of blank lines nothing is taken. -/
theorem firstLine_of_blank
    (h : ∀ line ∈ Text.lines text.toList, IsBlankLine line) :
    firstLine text = "" := by
  have hnone : (Text.lines text.toList).find? (fun line => !(Text.trim line).isEmpty) = none := by
    rw [List.find?_eq_none]
    intro line hline
    simpa using isBlankLine_iff.1 (h line hline)
  rw [firstLine_eq, hnone]
  rfl

/-- What is taken of some lines: the first one that is not blank, without the blanks around it, or
nothing where all of them are blank. -/
def IsTakenOf (lines : List (List Char)) (detail : String) : Prop :=
  (∃ line, IsFirstOf lines line ∧ detail = String.ofList (Text.trim line)) ∨
    (∀ line ∈ lines, IsBlankLine line) ∧ detail = ""

theorem firstLine_eq_iff
    {detail : String} :
    firstLine text = detail ↔ IsTakenOf (Text.lines text.toList) detail := by
  constructor
  · rintro rfl
    rcases exists_isFirst_or_blank (Text.lines text.toList) with ⟨line, hline⟩ | hblank
    · exact Or.inl ⟨line, hline, firstLine_of_isFirst hline⟩
    · exact Or.inr ⟨hblank, firstLine_of_blank hblank⟩
  · rintro (⟨line, hline, rfl⟩ | ⟨hblank, rfl⟩)
    · exact firstLine_of_isFirst hline
    · exact firstLine_of_blank hblank

end Lines

section Python

variable {run : Run}
variable {detail : String}

/-- The lines that a run printed. -/
def Run.outputLines (run : Run) : List (List Char) :=
  Text.lines (Text.Utf8.decodeLenient run.output).toList

theorem judgePython_eq_valid_iff :
    Language.judgePython run = .valid ↔ run.exitCode = some 0 := by
  unfold Language.judgePython
  split_ifs with hsuccess herror <;> simp [hsuccess]

/-- A script is found invalid if the run ended with the code for that; what is said is taken of the
lines that it printed. -/
theorem judgePython_eq_invalid_iff :
    Language.judgePython run = .invalid detail ↔
      run.exitCode = some Language.syntaxExitCode ∧ IsTakenOf run.outputLines detail := by
  rw [Run.outputLines, ← firstLine_eq_iff]
  unfold Language.judgePython
  split_ifs with hsuccess herror
  · simp [hsuccess, Language.syntaxExitCode]
  · simp [herror]
  · simp [herror]

variable {tools : Toolchain}
variable {program file shown : String}

/-- A Python script is found valid if its interpreter was started and succeeded, as it also does
where it cannot read the script. -/
theorem checkFile_python_eq_valid_iff :
    checkFile tools .python program file shown = .valid ↔
      ∃ run, tools.launch program (Language.arguments .python file shown) = some run ∧
        run.exitCode = some 0 := by
  rw [checkFile]
  cases tools.launch program (Language.arguments .python file shown) <;>
    simp [Language.judge, judgePython_eq_valid_iff]

/-- A Python script is found invalid if its interpreter was started and found a syntax error. -/
theorem checkFile_python_eq_invalid_iff :
    checkFile tools .python program file shown = .invalid detail ↔
      ∃ run, tools.launch program (Language.arguments .python file shown) = some run ∧
        run.exitCode = some Language.syntaxExitCode ∧ IsTakenOf run.outputLines detail := by
  rw [checkFile]
  cases tools.launch program (Language.arguments .python file shown) <;>
    simp [Language.judge, judgePython_eq_invalid_iff]

end Python

end Script
end SkillAudit
