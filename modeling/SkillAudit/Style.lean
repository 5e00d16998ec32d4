/-!
# Styled text

A text for a terminal is a list of spans, each plain or with a look.  With colors on, a look is
opened by a control sequence and closed by a reset; where the text of the span itself holds a
reset, the look is opened again after it.  With colors off only the texts are left.

* `render_off`: with colors off a line is the texts of its spans.
-/

namespace SkillAudit

/-- How the letters of a span are drawn. -/
inductive Weight where
  | bold
  | dimmed
  | underlined
  deriving DecidableEq, Repr

/-- The color of a span. -/
inductive Color where
  | red
  | green
  | yellow
  deriving DecidableEq, Repr

/-- The look of a span. -/
structure Look where
  weights : List Weight := []
  color : Option Color := none
  deriving DecidableEq, Repr

/-- A piece of a text with its look. -/
inductive Span where
  | plain (text : String)
  | styled (look : Look) (text : String)
  deriving DecidableEq, Repr

/-- The code of a weight. -/
def Weight.code : Weight → String
  | .bold => "1"
  | .dimmed => "2"
  | .underlined => "4"

/-- The code of a color. -/
def Color.code : Color → String
  | .red => "31"
  | .green => "32"
  | .yellow => "33"

namespace Look

/-- Bold letters without a color. -/
def bold : Look := { weights := [.bold] }

/-- Bold letters of a color. -/
def boldIn (color : Color) : Look := { weights := [.bold], color := some color }

/-- Letters of a color. -/
def plainIn (color : Color) : Look := { color := some color }

/-- The look of a heading. -/
def heading : Look := { weights := [.bold, .underlined] }

/-- The look of a rule between blocks. -/
def rule : Look := { weights := [.dimmed] }

/-- The codes of a look, weights first. -/
def codes (look : Look) : List String :=
  look.weights.map Weight.code ++ look.color.toList.map Color.code

/-- The control sequence that opens a look. -/
def opening (look : Look) : List Char :=
  '\x1b' :: '[' :: (";".intercalate look.codes).toList ++ ['m']

end Look

namespace Span

/-- The control sequence that closes every look. -/
def reset : List Char := ['\x1b', '[', '0', 'm']

/-- The text with the opening put after every reset in it. -/
def reopen (opening : List Char) : List Char → List Char
  | '\x1b' :: '[' :: '0' :: 'm' :: rest => reset ++ opening ++ reopen opening rest
  | c :: rest => c :: reopen opening rest
  | [] => []

/-- The text of a span without its look. -/
def text : Span → String
  | plain text => text
  | styled _ text => text

/-- A span as it is sent to a terminal. -/
def render (colored : Bool) : Span → List Char
  | plain text => text.toList
  | styled look text =>
      if colored then
        look.opening ++ reopen look.opening text.toList ++ reset
      else
        text.toList

/-- Spans as they are sent to a terminal. -/
def renderAll (colored : Bool) (spans : List Span) : String :=
  String.ofList (spans.flatMap (render colored))

@[simp] theorem text_plain
    (text : String) :
    (plain text).text = text := by
  rfl

@[simp] theorem text_styled
    (look : Look)
    (text : String) :
    (styled look text).text = text := by
  rfl

/-- With colors off a span is its text. -/
@[simp] theorem render_off
    (span : Span) :
    span.render false = span.text.toList := by
  cases span <;> rfl

end Span
end SkillAudit
