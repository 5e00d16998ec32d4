/-!
# Patterns of a whole text

Regular patterns over characters, with their written form and matching by derivatives.  A pattern
always speaks of a whole text; alternatives are separate patterns.
-/

namespace SkillAudit
namespace Text

/-- A regular pattern. -/
inductive Pattern where
  /-- No text at all. -/
  | nothing
  /-- The empty text. -/
  | blank
  /-- One character from one of the ranges. -/
  | oneOf (ranges : List (Char × Char))
  | andThen (front rest : Pattern)
  | either (a b : Pattern)
  | many (p : Pattern)
  deriving DecidableEq, Repr

namespace Pattern

/-- Whether the character lies in one of the ranges. -/
def inRanges (ranges : List (Char × Char)) (c : Char) : Bool :=
  ranges.any fun (low, high) => low ≤ c && c ≤ high

/-- Whether the empty text matches. -/
def acceptsEmpty : Pattern → Bool
  | nothing => false
  | blank => true
  | oneOf _ => false
  | andThen front rest => front.acceptsEmpty && rest.acceptsEmpty
  | either a b => a.acceptsEmpty || b.acceptsEmpty
  | many _ => true

/-- One pattern after another, without the parts that cannot matter. -/
def joined : Pattern → Pattern → Pattern
  | nothing, _ => nothing
  | blank, rest => rest
  | front, rest => andThen front rest

/-- One pattern or another, without the parts that cannot matter. -/
def united : Pattern → Pattern → Pattern
  | nothing, b => b
  | a, nothing => a
  | a, b => either a b

/-- What has to follow the character for the whole to match. -/
def after (c : Char) : Pattern → Pattern
  | nothing => nothing
  | blank => nothing
  | oneOf ranges => if inRanges ranges c then blank else nothing
  | andThen front rest =>
      if front.acceptsEmpty then
        united (joined (front.after c) rest) (rest.after c)
      else
        joined (front.after c) rest
  | either a b => united (a.after c) (b.after c)
  | many p => joined (p.after c) (many p)

/-- Whether the whole text matches. -/
def accepts (p : Pattern) : List Char → Bool
  | [] => p.acceptsEmpty
  | c :: rest => (p.after c).accepts rest

/-- The written form of a range. -/
def rangeText (range : Char × Char) : String :=
  if range.1 = range.2 then range.1.toString
  else range.1.toString ++ "-" ++ range.2.toString

/-- The written form of a pattern. -/
def text : Pattern → String
  | nothing => ""
  | blank => ""
  | oneOf ranges => "[" ++ String.join (ranges.map rangeText) ++ "]"
  | andThen front rest => front.text ++ rest.text
  | either a b => a.text ++ "|" ++ b.text
  | many p => p.text ++ "*"

/-- The texts that a pattern describes. -/
inductive Matches : Pattern → List Char → Prop
  | blank : Matches blank []
  | oneOf {ranges : List (Char × Char)} {c : Char} (h : inRanges ranges c = true) :
      Matches (oneOf ranges) [c]
  | andThen {p q : Pattern} {s t : List Char} (hs : Matches p s) (ht : Matches q t) :
      Matches (andThen p q) (s ++ t)
  | left {p q : Pattern} {s : List Char} (h : Matches p s) : Matches (either p q) s
  | right {p q : Pattern} {s : List Char} (h : Matches q s) : Matches (either p q) s
  | manyNil {p : Pattern} : Matches (many p) []
  | manyCons {p : Pattern} {s t : List Char} (hs : Matches p s) (ht : Matches (many p) t) :
      Matches (many p) (s ++ t)

end Pattern
end Text
end SkillAudit
