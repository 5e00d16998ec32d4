import SkillAudit.Text.Regex

/-!
# Patterns of names

The patterns by which names are chosen: a star for any text, a question mark for one character, and
sets of characters between brackets.  A quoted character of a pattern stands for itself.
-/

namespace SkillAudit
namespace Text

/-- A pattern of names: characters, each with whether it is quoted. -/
abbrev Glob := List (Bool × Char)

namespace Glob

/-- The pattern of a text without quotes. -/
def ofText (text : List Char) : Glob :=
  text.map fun c => (false, c)

/-- The characters of a pattern. -/
def text (glob : Glob) : List Char :=
  glob.map (·.2)

/-- Whether some character may have a meaning of its own. -/
def hasMeaning (glob : Glob) : Bool :=
  glob.any fun (quoted, c) => !quoted && (c = '*' || c = '?' || c = '[')

/-- A set at the start of a pattern after its opening bracket: its members and what follows it. -/
def cutSet : (fuel : Nat) → (first : Bool) → Glob → Option (List (Char × Char) × Glob)
  | 0, _, _ => none
  | fuel + 1, first, glob =>
      let add (ranges : List (Char × Char)) (rest : Glob) :
          Option (List (Char × Char) × Glob) :=
        (cutSet fuel false rest).map fun (more, after) => (ranges ++ more, after)
      match glob with
      | [] => none
      | (false, '[') :: (_, ':') :: rest =>
          let name := (rest.map (·.2)).takeWhile (· != ':')
          match Regex.classRanges? (String.ofList name), rest.drop name.length with
          | some ranges, (_, ':') :: (_, ']') :: after => add ranges after
          | _, _ => add [('[', '[')] ((true, ':') :: rest)
      | (quoted, c) :: rest =>
          if !quoted && c = ']' && !first then
            some ([], rest)
          else
            match rest with
            | (false, '-') :: (quotedHigh, high) :: after =>
                if !quotedHigh && high = ']' then add [(c, c)] rest else add [(c, high)] after
            | _ => add [(c, c)] rest

/-- All ends of a list, the whole list first. -/
def endsOf : List Char → List (List Char)
  | [] => [[]]
  | c :: rest => (c :: rest) :: endsOf rest

/-- Whether a pattern matches a whole text, in a bounded number of steps. -/
def matchesWithin : (fuel : Nat) → Glob → List Char → Bool
  | 0, _, _ => false
  | _, [], text => text.isEmpty
  | fuel + 1, (quoted, p) :: pattern, text =>
      let plain : Bool :=
        match text with
        | c :: rest => p = c && matchesWithin fuel pattern rest
        | [] => false
      if quoted then
        plain
      else if p = '*' then
        if pattern.isEmpty then true else (endsOf text).any (matchesWithin fuel pattern)
      else if p = '?' then
        match text with
        | _ :: rest => matchesWithin fuel pattern rest
        | [] => false
      else if p = '[' then
        let negated := pattern.head? = some (false, '!')
        let members := if negated then pattern.tail else pattern
        match cutSet (members.length + 1) true members, text with
        | some (ranges, after), c :: rest =>
            (ranges.any fun (low, high) => low ≤ c && c ≤ high) != negated &&
              matchesWithin fuel after rest
        | some _, [] => false
        | none, _ => plain
      else
        plain

/-- Whether a pattern matches a whole text. -/
def accepts (glob : Glob) (text : List Char) : Bool :=
  matchesWithin (glob.length + 1) glob text

/-- A text without what a pattern matches at one end, the shortest or the longest part. -/
def trim (glob : Glob) (atEnd longest : Bool) (text : List Char) : List Char :=
  let lengths := List.range (text.length + 1)
  let lengths := if longest then lengths.reverse else lengths
  let part (n : Nat) : List Char :=
    if atEnd then text.drop (text.length - n) else text.take n
  match lengths.find? fun n => glob.accepts (part n) with
  | some n => if atEnd then text.take (text.length - n) else text.drop n
  | none => text

end Glob
end Text
end SkillAudit
