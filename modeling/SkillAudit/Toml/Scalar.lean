import SkillAudit.Text.Lines
import SkillAudit.Text.Search
import SkillAudit.Toml.Value

/-!
# Bare values

The values that are written without quotes or brackets: truth values, numbers, dates and times.
Each reader takes a whole word and accepts it or not.  Some words are accepted as numbers although
no number can be read from them.
-/

namespace SkillAudit
namespace Toml

/-- A decimal digit. -/
def isDigit (c : Char) : Bool :=
  '0' ≤ c && c ≤ '9'

/-- The value of a digit of any radix up to sixteen. -/
def digitValue? (c : Char) : Option Nat :=
  if isDigit c then some (c.toNat - '0'.toNat)
  else if 'a' ≤ c ∧ c ≤ 'f' then some (c.toNat - 'a'.toNat + 10)
  else if 'A' ≤ c ∧ c ≤ 'F' then some (c.toNat - 'A'.toNat + 10)
  else none

/-- The digits of a radix, with single underscores between them. -/
def digits? (radix : Nat) (word : List Char) : Option (List Nat) := do
  let groups := Text.splitOn '_' word
  if groups.any (·.isEmpty) then
    none
  else
    groups.flatten.mapM fun c => do
      let value ← digitValue? c
      if value < radix then some value else none

/-- The number that digits of a radix stand for. -/
def numberOf (radix : Nat) (digits : List Nat) : Nat :=
  digits.foldl (fun n d => n * radix + d) 0

/-- The decimal digits of a whole number: no zero stands before other digits. -/
def wholeDigits? (word : List Char) : Option (List Nat) :=
  match word with
  | '0' :: _ :: _ => none
  | _ => digits? 10 word

/-- The sign of a word and the word after it. -/
def cutSign : List Char → Bool × List Char
  | '-' :: rest => (true, rest)
  | '+' :: rest => (false, rest)
  | word => (false, word)

/-- A number with a sign. -/
def signed (negative : Bool) (n : Nat) : Int :=
  if negative then -(n : Int) else n

/-- A whole number in decimal, or without a sign in another radix. -/
def integer? (word : List Char) : Option Int :=
  match word with
  | '0' :: 'x' :: rest => (digits? 16 rest).map fun ds => (numberOf 16 ds : Int)
  | '0' :: 'o' :: rest => (digits? 8 rest).map fun ds => (numberOf 8 ds : Int)
  | '0' :: 'b' :: rest => (digits? 2 rest).map fun ds => (numberOf 2 ds : Int)
  | _ =>
      let (negative, rest) := cutSign word
      (wholeDigits? rest).map fun ds => signed negative (numberOf 10 ds)

/-- The exponent of a number: digits with an optional sign. -/
def exponent? (word : List Char) : Option Int :=
  let (negative, rest) := cutSign word
  (digits? 10 rest).map fun ds => signed negative (numberOf 10 ds)

/-- The part of a number before its exponent, and the exponent. -/
def cutExponent (word : List Char) : List Char × Option (List Char) :=
  match Text.cutAt? 'e' (word.map fun c => if c = 'E' then 'e' else c) with
  | some (front, rest) => (front, some rest)
  | none => (word, none)

/-- A number with a fraction, an exponent or both. -/
def decimal? (word : List Char) : Option Decimal := do
  let (front, exponent) := cutExponent (cutSign word).2
  let power ←
    match exponent with
    | some rest => exponent? rest
    | none => some 0
  match Text.cutAt? '.' front with
  | some (whole, fraction) =>
      let whole ← wholeDigits? whole
      let fraction ← digits? 10 fraction
      return ⟨numberOf 10 (whole ++ fraction), power - fraction.length⟩
  | none =>
      if exponent.isSome then
        return ⟨numberOf 10 (← wholeDigits? front), power⟩
      else
        none

/-- Whether the word is an infinity or an indefinite number. -/
def isSpecial (word : List Char) : Bool :=
  let rest := String.ofList (cutSign word).2
  rest == "inf" || rest == "nan"

/-- The number of exactly so many digits. -/
def fixed? (length : Nat) (word : List Char) : Option Nat :=
  if word.length = length && word.all isDigit then
    some (numberOf 10 (word.map fun c => c.toNat - '0'.toNat))
  else
    none

/-- How many days a month has. -/
def daysIn (year month : Nat) : Nat :=
  if month = 2 then
    if year % 4 = 0 ∧ (year % 100 ≠ 0 ∨ year % 400 = 0) then 29 else 28
  else if month = 4 ∨ month = 6 ∨ month = 9 ∨ month = 11 then 30
  else 31

/-- Whether the word is a date. -/
def isDate (word : List Char) : Bool :=
  match Text.splitOn '-' word with
  | [year, month, day] =>
      match fixed? 4 year, fixed? 2 month, fixed? 2 day with
      | some year, some month, some day =>
          1 ≤ month && month ≤ 12 && 1 ≤ day && day ≤ daysIn year month
      | _, _, _ => false
  | _ => false

/-- Whether the word is a number of two digits up to a bound. -/
def isUpTo (bound : Nat) (word : List Char) : Bool :=
  match fixed? 2 word with
  | some n => n ≤ bound
  | none => false

/-- Whether the word is a number of seconds, with or without a fraction. -/
def isSeconds (word : List Char) : Bool :=
  match Text.cutAt? '.' word with
  | some (whole, fraction) => isUpTo 60 whole && !fraction.isEmpty && fraction.all isDigit
  | none => isUpTo 60 word

/-- Whether the word is a time of day; the seconds may be missing. -/
def isTime (word : List Char) : Bool :=
  match Text.splitOn ':' word with
  | [hour, minute] => isUpTo 23 hour && isUpTo 59 minute
  | [hour, minute, second] => isUpTo 23 hour && isUpTo 59 minute && isSeconds second
  | _ => false

/-- Whether the word is a distance from the zero meridian, less than a day. -/
def isOffset (word : List Char) : Bool :=
  match Text.splitOn ':' word with
  | [hour, minute] => isUpTo 23 hour && isUpTo 59 minute
  | _ => false

/-- Whether the word is a time of day with or without a zone. -/
def isZonedTime (word : List Char) : Bool :=
  match word.reverse with
  | 'Z' :: front | 'z' :: front => isTime front.reverse
  | _ =>
      let time := word.takeWhile fun c => c != '+' && c != '-'
      match word.drop time.length with
      | [] => isTime time
      | _ :: offset => isTime time && isOffset offset

/-- Whether the word is a date, a time of day, or a date with a time. -/
def isMoment (word : List Char) : Bool :=
  match word.drop 10 with
  | [] => isDate word || isTime word
  | separator :: time =>
      if separator = 'T' || separator = 't' || separator = ' ' then
        isDate (word.take 10) && isZonedTime time
      else
        isTime word

/-- A digit of radix sixteen. -/
def isHexDigit (c : Char) : Bool :=
  (digitValue? c).isSome

/-- Whether every underscore of a number stands between two digits of radix sixteen; the parts are
those between the underscores, and only their ends are looked at. -/
def areJoined : List (List Char) → Bool
  | [] | [_] => true
  | part :: next :: rest =>
      (part.length ≤ 1 || part.getLast?.any isHexDigit) && next.head?.any isHexDigit &&
        areJoined (next :: rest)

/-- A whole number with underscores of which only the digits beside the underscores are looked at;
what stands elsewhere may make it unreadable. -/
def looseInteger? (word : List Char) : Option Toml :=
  let (negative, value) := cutSign word
  let whole := value.takeWhile isDigit
  let parts := Text.splitOn '_' word
  let starts : Bool :=
    match whole with
    | [] => value.length < word.length
    | c :: _ => c != '0'
  if starts && (value.drop whole.length).head? = some '_' && areJoined parts &&
      !value.any fun c => c = '.' || c = 'e' || c = 'E' then
    some <|
      match digits? 10 (value.filter (· != '_')) with
      | some ds => .integer (signed negative (numberOf 10 ds))
      | none => .unreadable
  else
    none

/-- A radix without digits after it. -/
def isBareRadix (word : List Char) : Bool :=
  ["0x", "0o", "0b"].contains (String.ofList word)

/-- The value of a bare word. -/
def scalar? (word : List Char) : Option Toml :=
  match String.ofList word with
  | "true" => some (.bool true)
  | "false" => some (.bool false)
  | _ =>
      if isSpecial word then some .special
      else if isMoment word then some .moment
      else if isBareRadix word then some .unreadable
      else
        ((integer? word).map Toml.integer).or <|
          ((decimal? word).map Toml.decimal).or (looseInteger? word)

end Toml
end SkillAudit
