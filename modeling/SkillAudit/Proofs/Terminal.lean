import Mathlib.Data.List.TakeWhile
import SkillAudit.Proofs.Text.LineCuts
import SkillAudit.Style

/-!
# What a terminal makes of a styled text

A terminal takes a text apart into letters and control sequences: an escape and a bracket, then
digits and semicolons, then the letter `m`.  The letters are shown; a sequence changes the look of
what follows, and the one with the parameter zero ends every look.  Spans whose texts have no escape
are shown as their texts, and leave no look behind them.

* `pieces_control`, `pieces_letter`: how a text is taken apart.
* `flatMap_text_pieces`: nothing is lost.
* `erase_renderAll`: without the control sequences, spans are their texts.
* `endsOpen_of_mem_lines`: no look goes on behind the end of a line.
-/

namespace SkillAudit
namespace Terminal

/-- A letter that is shown, or a control sequence with its parameters. -/
inductive Piece where
  | letter (c : Char)
  | control (parameters : List Char)
  deriving DecidableEq, Repr

/-- What the parameters of a control sequence are written with. -/
def isParameter (c : Char) : Bool :=
  c.isDigit || c == ';'

/-- The parameters of the control sequence at the start of a text, and what stands behind it. -/
def control? : List Char → Option (List Char × List Char)
  | '\x1b' :: '[' :: rest =>
      match rest.dropWhile isParameter with
      | 'm' :: behind => some (rest.takeWhile isParameter, behind)
      | _ => none
  | _ => none

section Controls

variable {text parameters behind : List Char}

/-- A control sequence is at the start exactly if the text is written so. -/
theorem control?_eq_some_iff :
    control? text = some (parameters, behind) ↔
      text = '\x1b' :: '[' :: (parameters ++ 'm' :: behind) ∧
        ∀ c ∈ parameters, isParameter c = true := by
  have hmark : isParameter 'm' = false := by
    decide
  constructor
  · intro h
    unfold control? at h
    split at h
    · next rest =>
        split at h
        · next behind' hdrop =>
            cases h
            refine ⟨?_, fun c hc => List.mem_takeWhile_imp hc⟩
            rw [← hdrop, List.takeWhile_append_dropWhile]
        · cases h
    · cases h
  · rintro ⟨rfl, hparameters⟩
    have htake : (parameters ++ 'm' :: behind).takeWhile isParameter = parameters := by
      rw [List.takeWhile_append_of_pos hparameters, List.takeWhile_cons, hmark]
      simp
    have hdrop : (parameters ++ 'm' :: behind).dropWhile isParameter = 'm' :: behind := by
      rw [List.dropWhile_append_of_pos hparameters, List.dropWhile_cons, hmark]
      simp
    simp only [control?, hdrop, htake]

theorem length_lt_of_control?
    (h : control? text = some (parameters, behind)) :
    behind.length < text.length := by
  rw [(control?_eq_some_iff.1 h).1]
  simp
  omega

theorem control?_eq_none_of_ne
    {c : Char}
    (hc : c ≠ '\x1b') :
    control? (c :: text) = none := by
  unfold control?
  split
  · next heq => exact absurd (List.cons.inj heq).1 hc
  · rfl

end Controls

/-- A text, taken apart into its letters and control sequences. -/
def pieces (text : List Char) : List Piece :=
  match _hcontrol : control? text with
  | some (parameters, behind) => .control parameters :: pieces behind
  | none =>
      match text with
      | [] => []
      | c :: rest => .letter c :: pieces rest
  termination_by text.length
  decreasing_by
    · exact length_lt_of_control? ‹_›
    · exact Nat.lt_succ_self _

/-- How a piece is written. -/
def Piece.text : Piece → List Char
  | .letter c => [c]
  | .control parameters => '\x1b' :: '[' :: (parameters ++ ['m'])

/-- The letter of a piece that is shown. -/
def Piece.letter? : Piece → Option Char
  | .letter c => some c
  | .control _ => none

/-- Whether a look is in force after a piece; the parameter zero ends every look. -/
def Piece.looks (look : Bool) : Piece → Bool
  | .letter _ => look
  | .control parameters => parameters != ['0']

/-- The text without its control sequences. -/
def erase (text : List Char) : List Char :=
  (pieces text).filterMap Piece.letter?

/-- Whether a look that the text opened is in force at its end. -/
def endsOpen (text : List Char) : Bool :=
  (pieces text).foldl Piece.looks false

section Pieces

variable {text other parameters : List Char}

@[simp] theorem pieces_nil : pieces [] = [] := by
  rw [pieces]
  rfl

theorem pieces_control
    (hparameters : ∀ c ∈ parameters, isParameter c = true)
    (behind : List Char) :
    pieces ('\x1b' :: '[' :: (parameters ++ 'm' :: behind)) =
      .control parameters :: pieces behind := by
  have h := control?_eq_some_iff.2
    (⟨rfl, hparameters⟩ : '\x1b' :: '[' :: (parameters ++ 'm' :: behind) = _ ∧ _)
  rw [pieces]
  split
  · next h' =>
      rw [h] at h'
      cases h'
      rfl
  · next h' =>
      rw [h] at h'
      cases h'

theorem pieces_letter
    {c : Char}
    (hc : control? (c :: text) = none) :
    pieces (c :: text) = .letter c :: pieces text := by
  rw [pieces]
  split
  · next h =>
      rw [hc] at h
      cases h
  · rfl

/-- Nothing of a text is lost when it is taken apart. -/
theorem flatMap_text_pieces
    (text : List Char) :
    (pieces text).flatMap Piece.text = text := by
  induction hlength : text.length using Nat.strong_induction_on generalizing text with
  | _ n ih =>
      cases hcontrol : control? text with
      | some found =>
          obtain ⟨parameters, behind⟩ := found
          have hshorter := length_lt_of_control? hcontrol
          obtain ⟨rfl, hparameters⟩ := control?_eq_some_iff.1 hcontrol
          rw [pieces_control hparameters, List.flatMap_cons, ih _ (hlength ▸ hshorter) behind rfl]
          simp [Piece.text]
      | none =>
          cases text with
          | nil => simp
          | cons c rest =>
              have hshorter : rest.length < n := by
                rw [← hlength]
                exact Nat.lt_succ_self _
              rw [pieces_letter hcontrol, List.flatMap_cons, ih _ hshorter rest rfl]
              rfl

/-- A text without escapes is letters, whatever stands behind it. -/
theorem pieces_append_of_not_mem
    (h : '\x1b' ∉ text)
    (behind : List Char) :
    pieces (text ++ behind) = text.map .letter ++ pieces behind := by
  induction text with
  | nil =>
      rfl
  | cons c rest ih =>
      obtain ⟨hc, hrest⟩ := not_or.1 (List.mem_cons.not.1 h)
      rw [List.cons_append, pieces_letter (control?_eq_none_of_ne (Ne.symm hc)), ih hrest]
      rfl

end Pieces

/-- The text has no escape, so no control sequence. -/
def IsPlain (text : String) : Prop :=
  '\x1b' ∉ text.toList

instance (text : String) : Decidable (IsPlain text) :=
  inferInstanceAs (Decidable ('\x1b' ∉ text.toList))

@[simp] theorem isPlain_append
    {front back : String} :
    IsPlain (front ++ back) ↔ IsPlain front ∧ IsPlain back := by
  simp [IsPlain]

section Spans

variable {look : Look}
variable {text : String}

theorem isParameter_of_mem_code
    {code : String}
    (hcode : code ∈ look.codes) :
    ∀ c ∈ code.toList, isParameter c = true := by
  refine List.all_eq_true.1 ?_
  rcases List.mem_append.1 hcode with hcode | hcode
  · obtain ⟨weight, -, rfl⟩ := List.mem_map.1 hcode
    cases weight <;> decide
  · obtain ⟨color, -, rfl⟩ := List.mem_map.1 hcode
    cases color <;> decide

/-- The codes of a look are parameters. -/
theorem isParameter_of_mem_codes
    (look : Look) :
    ∀ c ∈ (";".intercalate look.codes).toList, isParameter c = true := by
  have hcode : ∀ code ∈ look.codes, ∀ c ∈ code.toList, isParameter c = true :=
    fun code hcode => isParameter_of_mem_code hcode
  have hbetween : ∀ c ∈ ";".toList, isParameter c = true :=
    List.all_eq_true.1 (by decide)
  generalize look.codes = codes at hcode
  rw [String.toList_intercalate]
  induction codes with
  | nil =>
      exact List.forall_mem_nil _
  | cons code rest ih =>
      obtain ⟨hfirst, hrest⟩ := List.forall_mem_cons.1 hcode
      cases rest with
      | nil =>
          simpa using hfirst
      | cons next more =>
          rw [List.map_cons, List.map_cons, List.intercalate_cons_cons, ← List.map_cons]
          refine List.forall_mem_append.2 ⟨List.forall_mem_append.2 ⟨hfirst, hbetween⟩, ih hrest⟩

/-- In a text without escapes there is nothing to open a look again for. -/
theorem reopen_of_not_mem
    {letters : List Char}
    (h : '\x1b' ∉ letters)
    (opening : List Char) :
    Span.reopen opening letters = letters := by
  induction letters with
  | nil =>
      rfl
  | cons c rest ih =>
      obtain ⟨hc, hrest⟩ := not_or.1 (List.mem_cons.not.1 h)
      rw [Span.reopen, ih hrest]
      rintro more rfl
      exact absurd rfl hc

/-- The pieces of a span whose text has no escape. -/
def drawn : Span → List Piece
  | .plain text => text.toList.map .letter
  | .styled look text =>
      .control (";".intercalate look.codes).toList :: (text.toList.map .letter ++ [.control ['0']])

/-- A span is taken apart into its pieces, whatever stands behind it. -/
theorem pieces_render_append
    {span : Span}
    (hspan : IsPlain span.text)
    (behind : List Char) :
    pieces (span.render true ++ behind) = drawn span ++ pieces behind := by
  cases span with
  | plain text =>
      exact pieces_append_of_not_mem hspan behind
  | styled look text =>
      have hletters : '\x1b' ∉ text.toList := hspan
      have hzero : ∀ c ∈ ['0'], isParameter c = true := List.all_eq_true.1 (by decide)
      have hrender : (Span.styled look text).render true ++ behind =
          '\x1b' :: '[' :: ((";".intercalate look.codes).toList ++ 'm' ::
            (text.toList ++ '\x1b' :: '[' :: (['0'] ++ 'm' :: behind))) := by
        simp [Span.render, reopen_of_not_mem hletters, Look.opening, Span.reset]
      rw [hrender, pieces_control (isParameter_of_mem_codes look),
        pieces_append_of_not_mem hletters, pieces_control hzero, drawn]
      simp

/-- Without the control sequences, spans are their texts. -/
theorem erase_renderAll
    {spans : List Span}
    (hspans : ∀ span ∈ spans, IsPlain span.text) :
    erase (Span.renderAll true spans).toList = (Span.renderAll false spans).toList := by
  rw [erase, Span.renderAll, Span.renderAll, String.toList_ofList, String.toList_ofList]
  induction spans with
  | nil =>
      rw [List.flatMap_nil, pieces_nil]
      rfl
  | cons span rest ih =>
      obtain ⟨hspan, hrest⟩ := List.forall_mem_cons.1 hspans
      have hletters : (drawn span).filterMap Piece.letter? = span.text.toList := by
        cases span <;>
          simp [drawn, Piece.letter?, List.filterMap_map, List.filterMap_cons, Function.comp_def]
      rw [List.flatMap_cons, List.flatMap_cons, pieces_render_append hspan, List.filterMap_append,
        ih hrest, hletters, Span.render_off]

end Spans

section Lines

variable {line other text back : List Char}

/-- The text is taken apart on its own, whatever stands behind it, and leaves no look in force. -/
structure IsClosed (text : List Char) : Prop where
  apart : ∀ behind, pieces (text ++ behind) = pieces text ++ pieces behind
  ended : endsOpen text = false

theorem isClosed_of_not_mem
    (h : '\x1b' ∉ text) :
    IsClosed text where
  apart behind := by
    have halone := pieces_append_of_not_mem h []
    rw [List.append_nil, pieces_nil, List.append_nil] at halone
    rw [pieces_append_of_not_mem h, halone]
  ended := by
    have halone := pieces_append_of_not_mem h []
    rw [List.append_nil, pieces_nil, List.append_nil] at halone
    rw [endsOpen, halone, List.foldl_map]
    exact List.foldl_fixed text

/-- A span whose text has no escape is closed. -/
theorem isClosed_render
    {span : Span}
    (hspan : IsPlain span.text) :
    IsClosed (span.render true) := by
  have halone : pieces (span.render true) = drawn span := by
    have h := pieces_render_append hspan []
    rwa [List.append_nil, pieces_nil, List.append_nil] at h
  refine ⟨fun behind => by rw [pieces_render_append hspan, halone], ?_⟩
  rw [endsOpen, halone]
  cases span with
  | plain text =>
      rw [drawn, List.foldl_map]
      exact List.foldl_fixed text.toList
  | styled look text =>
      rw [drawn, List.foldl_cons, List.foldl_append]
      rfl

theorem IsClosed.append
    (hline : IsClosed line)
    (hother : IsClosed other) :
    IsClosed (line ++ other) where
  apart behind := by
    rw [List.append_assoc, hline.apart, hother.apart, hline.apart, List.append_assoc]
  ended := by
    have hended := hline.ended
    rw [endsOpen] at hended
    rw [endsOpen, hline.apart, List.foldl_append, hended]
    exact hother.ended

/-- If every line of two texts is closed, every line of the joined text is. -/
theorem isClosed_of_mem_splitOn_append
    (htext : ∀ line ∈ Text.splitOn '\n' text, IsClosed line)
    (hback : ∀ line ∈ Text.splitOn '\n' back, IsClosed line) :
    ∀ line ∈ Text.splitOn '\n' (text ++ back), IsClosed line := by
  obtain ⟨above, last, first, below, hfront, hbehind, hjoined⟩ := Text.splitOn_append '\n' text back
  rw [hfront, List.forall_mem_append, List.forall_mem_singleton] at htext
  rw [hbehind, List.forall_mem_cons] at hback
  rw [hjoined, List.forall_mem_append, List.forall_mem_cons]
  exact ⟨htext.1, htext.2.append hback.1, hback.2⟩

/-- A span without escapes whose styled text is on one line has closed lines only. -/
theorem isClosed_of_mem_splitOn_render
    {span : Span}
    (hspan : IsPlain span.text)
    (hstyled : ∀ look text, span = .styled look text → '\n' ∉ text.toList) :
    ∀ line ∈ Text.splitOn '\n' (span.render true), IsClosed line := by
  intro line hline
  cases span with
  | plain text =>
      obtain ⟨-, before, after, htext, -⟩ := Text.mem_splitOn_iff.1 hline
      have htext : text.toList = before ++ (line ++ after) := htext
      refine isClosed_of_not_mem fun hmem => hspan ?_
      rw [Span.text_plain, htext]
      exact List.mem_append_right _ (List.mem_append_left _ hmem)
  | styled look text =>
      have hcodes : '\n' ∉ (";".intercalate look.codes).toList := by
        intro hmem
        have hfeed := isParameter_of_mem_codes look '\n' hmem
        revert hfeed
        decide
      have hletters : '\x1b' ∉ text.toList := hspan
      have hwhole : '\n' ∉ (Span.styled look text).render true := by
        simp [Span.render, reopen_of_not_mem hletters, Look.opening, Span.reset,
          hstyled look text rfl] at hcodes ⊢
        exact hcodes
      rw [Text.splitOn_of_not_mem hwhole, List.mem_singleton] at hline
      rw [hline]
      exact isClosed_render hspan

/-- No look goes on behind the end of a line, if the styled texts are on one line. -/
theorem endsOpen_of_mem_lines
    {spans : List Span}
    (hspans : ∀ span ∈ spans, IsPlain span.text)
    (hstyled : ∀ look text, .styled look text ∈ spans → '\n' ∉ text.toList) :
    ∀ line ∈ Text.splitOn '\n' (Span.renderAll true spans).toList, endsOpen line = false := by
  suffices hclosed :
      ∀ line ∈ Text.splitOn '\n' (Span.renderAll true spans).toList, IsClosed line from
    fun line hline => (hclosed line hline).ended
  rw [Span.renderAll, String.toList_ofList]
  induction spans with
  | nil =>
      rw [List.flatMap_nil, Text.splitOn, List.forall_mem_singleton]
      exact isClosed_of_not_mem List.not_mem_nil
  | cons span rest ih =>
      obtain ⟨hspan, hrest⟩ := List.forall_mem_cons.1 hspans
      rw [List.flatMap_cons]
      refine isClosed_of_mem_splitOn_append (isClosed_of_mem_splitOn_render hspan ?_)
        (ih hrest fun look text hmem => hstyled look text (List.mem_cons_of_mem _ hmem))
      rintro look text rfl
      exact hstyled look text List.mem_cons_self

end Lines

end Terminal
end SkillAudit
