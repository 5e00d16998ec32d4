import SkillAudit.Text.Search

/-!
# Regular expressions with groups

Expressions in two written forms, the basic one and the extended one, and the places where they
match in a line.  Of several matches the leftmost counts, and of those that start there the longest.
-/

namespace SkillAudit
namespace Text

/-- A regular expression. -/
inductive Regex where
  | char (c : Char)
  | any
  /-- One character inside or outside of the ranges. -/
  | set (negated : Bool) (ranges : List (Char × Char))
  | start
  | finish
  /-- The start of a word, the end of one, or both. -/
  | edge (opens closes : Bool)
  | insideWord
  /-- No character of a word stands before, or none after. -/
  | apart (before : Bool)
  | group (index : Nat) (inner : Regex)
  /-- What a group matched before. -/
  | earlier (index : Nat)
  | sequence (parts : List Regex)
  | choice (parts : List Regex)
  | times (least : Nat) (most : Option Nat) (inner : Regex)

namespace Regex

/-- A letter or digit. -/
def isAlnum (c : Char) : Bool :=
  ('0' ≤ c && c ≤ '9') || ('a' ≤ c && c ≤ 'z') || ('A' ≤ c && c ≤ 'Z')

/-- A character of a word. -/
def isWordChar (c : Char) : Bool :=
  isAlnum c || c = '_'

/-- The ranges of the characters of a named class. -/
def classRanges? (name : String) : Option (List (Char × Char)) :=
  match name with
  | "alpha" => some [('a', 'z'), ('A', 'Z')]
  | "digit" => some [('0', '9')]
  | "alnum" => some [('a', 'z'), ('A', 'Z'), ('0', '9')]
  | "upper" => some [('A', 'Z')]
  | "lower" => some [('a', 'z')]
  | "space" => some [(' ', ' '), ('\t', '\x0d')]
  | "blank" => some [(' ', ' '), ('\t', '\t')]
  | "punct" => some [('!', '/'), (':', '@'), ('[', '\x60'), ('\x7b', '~')]
  | "print" => some [(' ', '~')]
  | "graph" => some [('!', '~')]
  | "cntrl" => some [('\x00', '\x1f'), ('\x7f', '\x7f')]
  | "xdigit" => some [('0', '9'), ('a', 'f'), ('A', 'F')]
  | _ => none

/-- The members of a set up to its closing bracket, and the text after it. -/
def readMembers : (fuel : Nat) → (first : Bool) → List Char →
    Option (List (Char × Char) × List Char)
  | 0, _, _ => none
  | fuel + 1, first, text =>
      let add (ranges : List (Char × Char)) (rest : List Char) :
          Option (List (Char × Char) × List Char) :=
        (readMembers fuel false rest).map fun (more, after) => (ranges ++ more, after)
      match text with
      | [] => none
      | '[' :: ':' :: rest =>
          let name := rest.takeWhile (· != ':')
          match classRanges? (String.ofList name), rest.drop name.length with
          | some ranges, ':' :: ']' :: after => add ranges after
          | _, _ => none
      | ']' :: rest => if first then add [(']', ']')] rest else some ([], rest)
      | low :: '-' :: high :: rest =>
          if high = ']' then add [(low, low), ('-', '-')] (']' :: rest)
          else add [(low, high)] rest
      | c :: rest => add [(c, c)] rest

/-- The set after its opening bracket, and the text after it. -/
def readSet (text : List Char) : Option (Regex × List Char) :=
  match text with
  | '^' :: rest =>
      (readMembers (rest.length + 1) true rest).map fun (ranges, after) => (.set true ranges, after)
  | _ =>
      (readMembers (text.length + 1) true text).map fun (ranges, after) =>
        (.set false ranges, after)

/-- The number at the start of a text. -/
def readNumber (text : List Char) : Option Nat × List Char :=
  let digits := text.takeWhile fun c => '0' ≤ c && c ≤ '9'
  if digits.isEmpty then
    (none, text)
  else
    (some (digits.foldl (fun n c => n * 10 + (c.toNat - '0'.toNat)) 0), text.drop digits.length)

/-- The bounds of a repetition after the opening brace, and the text after the closing one. -/
def readBounds (extended : Bool) (text : List Char) :
    Option ((Nat × Option Nat) × List Char) := do
  let (least, rest) := readNumber text
  let (most, rest) :=
    match rest with
    | ',' :: rest => readNumber rest
    | _ => (least, rest)
  let after ←
    match extended, rest with
    | true, '}' :: after => some after
    | false, '\\' :: '}' :: after => some after
    | _, _ => none
  return ((least.getD 0, most), after)

/-- What a letter after a backslash stands for beside itself. -/
def letterMeaning? (c : Char) : Option Regex :=
  let word : List (Char × Char) := [('a', 'z'), ('A', 'Z'), ('0', '9'), ('_', '_')]
  let blank : List (Char × Char) := [(' ', ' '), ('\t', '\x0d')]
  match c with
  | 'w' => some (.set false word)
  | 'W' => some (.set true word)
  | 's' => some (.set false blank)
  | 'S' => some (.set true blank)
  | 'b' => some (.edge true true)
  | '<' => some (.edge true false)
  | '>' => some (.edge false true)
  | 'B' => some .insideWord
  | _ => none

/-- Whether an alternative ends here. -/
def endsPart (extended : Bool) (text : List Char) : Bool :=
  match extended, text with
  | _, [] => true
  | true, '|' :: _ => true
  | true, ')' :: _ => true
  | false, '\\' :: '|' :: _ => true
  | false, '\\' :: ')' :: _ => true
  | _, _ => false

mutual

/-- Alternatives, the number of groups so far, and the text after them. -/
def readChoice (extended : Bool) :
    (fuel groups : Nat) → List Char → Option (Regex × Nat × List Char)
  | 0, _, _ => none
  | fuel + 1, groups, text => do
      let (first, groups, rest) ← readParts extended fuel groups true text
      let more? :=
        match extended, rest with
        | true, '|' :: rest => some rest
        | false, '\\' :: '|' :: rest => some rest
        | _, _ => none
      match more? with
      | some rest =>
          let (second, groups, after) ← readChoice extended fuel groups rest
          return (.choice [.sequence first, second], groups, after)
      | none => return (.sequence first, groups, rest)

/-- The parts of one alternative; `fresh` says that nothing stands before them. -/
def readParts (extended : Bool) :
    (fuel groups : Nat) → (fresh : Bool) → List Char → Option (List Regex × Nat × List Char)
  | 0, _, _, _ => none
  | fuel + 1, groups, fresh, text => do
      if endsPart extended text then
        return ([], groups, text)
      else
        let (part, groups, rest) ← readPart extended fuel groups fresh text
        let (part, rest) ← repeated extended fuel part rest
        let stays : Bool :=
          match part with
          | .start => !extended
          | _ => false
        let (parts, groups, after) ← readParts extended fuel groups (fresh && stays) rest
        return (part :: parts, groups, after)

/-- A part with the repetitions after it. -/
def repeated (extended : Bool) : (fuel : Nat) → Regex → List Char → Option (Regex × List Char)
  | 0, _, _ => none
  | fuel + 1, part, text =>
      let again (least : Nat) (most : Option Nat) (rest : List Char) :
          Option (Regex × List Char) :=
        repeated extended fuel (.times least most part) rest
      let anchored : Bool :=
        match part with
        | .start => !extended
        | _ => false
      if anchored then
        some (part, text)
      else
        match extended, text with
        | _, '*' :: rest => again 0 none rest
        | true, '+' :: rest => again 1 none rest
        | true, '?' :: rest => again 0 (some 1) rest
        | false, '\\' :: '+' :: rest => again 1 none rest
        | false, '\\' :: '?' :: rest => again 0 (some 1) rest
        | true, '\x7b' :: rest => do
            let ((least, most), after) ← readBounds extended rest
            again least most after
        | false, '\\' :: '\x7b' :: rest => do
            let ((least, most), after) ← readBounds extended rest
            again least most after
        | _, _ => some (part, text)

/-- One part without a repetition. -/
def readPart (extended : Bool) :
    (fuel groups : Nat) → (fresh : Bool) → List Char → Option (Regex × Nat × List Char)
  | 0, _, _, _ => none
  | fuel + 1, groups, fresh, text =>
      let grouped (rest : List Char) : Option (Regex × Nat × List Char) := do
        let (inner, inside, rest) ← readChoice extended fuel (groups + 1) rest
        match extended, rest with
        | true, ')' :: after => return (.group (groups + 1) inner, inside, after)
        | false, '\\' :: ')' :: after => return (.group (groups + 1) inner, inside, after)
        | _, _ => none
      match extended, text with
      | _, [] => none
      | true, '(' :: rest => grouped rest
      | false, '\\' :: '(' :: rest => grouped rest
      | _, '.' :: rest => some (.any, groups, rest)
      | _, '[' :: rest => (readSet rest).map fun (members, after) => (members, groups, after)
      | true, '^' :: rest => some (.start, groups, rest)
      | false, '^' :: rest => some (if fresh then .start else .char '^', groups, rest)
      | _, '$' :: rest =>
          some (if extended || endsPart extended rest then .finish else .char '$', groups, rest)
      | _, '\\' :: c :: rest =>
          if '1' ≤ c && c ≤ '9' then
            some (.earlier (c.toNat - '0'.toNat), groups, rest)
          else if c = 'n' then
            some (.char '\n', groups, rest)
          else if c = 't' then
            some (.char '\t', groups, rest)
          else
            some ((letterMeaning? c).getD (.char c), groups, rest)
      | _, ['\\'] => none
      | _, c :: rest => some (.char c, groups, rest)

end

/-- The expression that a whole text is the written form of. -/
def ofText? (extended : Bool) (text : List Char) : Option Regex :=
  match readChoice extended (8 * text.length + 8) 0 text with
  | some (regex, _, []) => some regex
  | _ => none

/-- The expression for a text that stands for itself. -/
def verbatim (text : List Char) : Regex :=
  .sequence (text.map .char)

/-- A place in a line, with what the groups matched on the way to it. -/
structure Place where
  before : Option Char
  rest : List Char
  groups : List (Nat × List Char) := []

/-- A letter without its case. -/
def folded (c : Char) : Char :=
  if 'A' ≤ c ∧ c ≤ 'Z' then Char.ofNat (c.toNat + 32) else c

/-- A letter in the other case. -/
def otherCase (c : Char) : Char :=
  if 'a' ≤ c ∧ c ≤ 'z' then Char.ofNat (c.toNat - 32) else folded c

/-- The place after one more character, if the character is as asked for. -/
def Place.step (place : Place) (accepts : Char → Bool) : List Place :=
  match place.rest with
  | c :: rest => if accepts c then [{ place with before := some c, rest }] else []
  | [] => []

/-- Whether the place lies where a word starts or ends. -/
def Place.atEdge (place : Place) (opens closes : Bool) : Bool :=
  let inside := place.before.any isWordChar
  let follows := place.rest.head?.any isWordChar
  (opens && !inside && follows) || (closes && inside && !follows)

/-- The place after a text that has to come next. -/
def Place.skip (place : Place) (same : Char → Char → Bool) : List Char → List Place
  | [] => [place]
  | c :: text =>
      match place.rest with
      | d :: rest =>
          if same c d then Place.skip { place with before := some d, rest } same text else []
      | [] => []

/-- Where a match that starts at a place may end, the places that are preferred first. -/
def ends (ignoresCase : Bool) : (fuel : Nat) → Regex → Place → List Place
  | 0, _, _ => []
  | fuel + 1, regex, place =>
      let same (c d : Char) : Bool := c = d || (ignoresCase && folded c = folded d)
      match regex with
      | .char c => place.step (same c)
      | .any => place.step fun _ => true
      | .set negated ranges =>
          let inside (c : Char) : Bool := ranges.any fun (low, high) => low ≤ c && c ≤ high
          place.step fun c =>
            (inside c || (ignoresCase && inside (otherCase c))) != negated
      | .start => if place.before.isNone then [place] else []
      | .finish => if place.rest.isEmpty then [place] else []
      | .edge opens closes => if place.atEdge opens closes then [place] else []
      | .insideWord => if place.atEdge true true then [] else [place]
      | .apart before =>
          let neighbour := if before then place.before else place.rest.head?
          if neighbour.any isWordChar then [] else [place]
      | .group index inner =>
          (ends ignoresCase fuel inner place).map fun next =>
            let text := place.rest.take (place.rest.length - next.rest.length)
            { next with groups := (index, text) :: next.groups }
      | .earlier index =>
          match place.groups.lookup index with
          | some text => place.skip same text
          | none => []
      | .sequence [] => [place]
      | .sequence (part :: parts) =>
          (ends ignoresCase fuel part place).flatMap (ends ignoresCase fuel (.sequence parts))
      | .choice parts => parts.flatMap fun part => ends ignoresCase fuel part place
      | .times least most inner =>
          let more :=
            if most = some 0 then []
            else
              (ends ignoresCase fuel inner place).flatMap fun next =>
                if next.rest.length < place.rest.length || 0 < least then
                  ends ignoresCase fuel (.times (least - 1) (most.map (· - 1)) inner) next
                else
                  []
          if least = 0 then more ++ [place] else more

/-- The longest of several places, the first of those that are as long. -/
def longest : List Place → Option Place
  | [] => none
  | place :: rest =>
      match longest rest with
      | some other => if other.rest.length < place.rest.length then some other else some place
      | none => some place

/-- A match in a line. -/
structure Match where
  before : List Char
  text : List Char
  after : List Char
  groups : List (Nat × List Char)

/-- How many steps a match in a text may take. -/
def stepsFor (text : List Char) : Nat := 50 * text.length + 1000

/-- The match that starts here, the longest one; `backwards` is what stands before. -/
def matchHere (ignoresCase : Bool) (regex : Regex) (backwards text : List Char) : Option Match :=
  let place : Place := { before := backwards.head?, rest := text }
  (longest (ends ignoresCase (stepsFor text) regex place)).map fun found =>
    { before := backwards.reverse
      text := text.take (text.length - found.rest.length)
      after := found.rest
      groups := found.groups }

/-- The leftmost match, of several there the longest. -/
def findFrom (ignoresCase : Bool) (regex : Regex) (backwards : List Char) :
    List Char → Option Match
  | [] => matchHere ignoresCase regex backwards []
  | c :: rest =>
      (matchHere ignoresCase regex backwards (c :: rest)).orElse fun _ =>
        findFrom ignoresCase regex (c :: backwards) rest

/-- The first match in a line. -/
def find (ignoresCase : Bool) (regex : Regex) (line : List Char) : Option Match :=
  findFrom ignoresCase regex [] line

/-- Whether the line holds a match. -/
def occursIn (ignoresCase : Bool) (regex : Regex) (line : List Char) : Bool :=
  (find ignoresCase regex line).isSome

/-- Whether the line as a whole is a match. -/
def matchesLine (ignoresCase : Bool) (regex : Regex) (line : List Char) : Bool :=
  (ends ignoresCase (stepsFor line) regex { before := none, rest := line }).any fun place =>
    place.rest.isEmpty

end Regex
end Text
end SkillAudit
