/-!
# Numerals

Natural numbers as they are written in digits of a radix, and the three spellings that tell their
radix themselves: decimal, octal after a zero, and hexadecimal after a zero and an `x`.
-/

namespace SkillAudit
namespace Text
namespace Numeral

/-- The value of a digit, if it is one in some radix up to sixteen. -/
def digit? (c : Char) : Option Nat :=
  if c.isDigit then some (c.toNat - '0'.toNat)
  else if 'a' ≤ c ∧ c ≤ 'f' then some (c.toNat - 'a'.toNat + 10)
  else if 'A' ≤ c ∧ c ≤ 'F' then some (c.toNat - 'A'.toNat + 10)
  else none

/-- Whether a character is a digit of a radix. -/
def isDigitOf (radix : Nat) (c : Char) : Bool :=
  match digit? c with
  | some n => n < radix
  | none => false

/-- The number that digits stand for. -/
def value (radix : Nat) (digits : List Char) : Nat :=
  digits.foldl (fun n c => n * radix + (digit? c).getD 0) 0

/-- The number at the start of a text and what follows it; without a number the whole text
follows. -/
def cut (text : List Char) : Option Nat × List Char :=
  let ofRadix (radix : Nat) (text : List Char) : Option Nat × List Char :=
    match text.takeWhile (isDigitOf radix) with
    | [] => (none, text)
    | digits => (some (value radix digits), text.drop digits.length)
  match text with
  | '0' :: 'x' :: rest | '0' :: 'X' :: rest =>
      match ofRadix 16 rest with
      | (some n, after) => (some n, after)
      | (none, _) => (some 0, text.tail)
  | '0' :: _ => ofRadix 8 text
  | _ => ofRadix 10 text

/-- The decimal number at the start of a text and what follows it. -/
def cutDecimal (text : List Char) : Option Nat × List Char :=
  match text.takeWhile Char.isDigit with
  | [] => (none, text)
  | digits => (some (value 10 digits), text.drop digits.length)

/-- The number at the start of a text with a sign, and what follows it; blanks may stand in front.
The digits are taken off by `cut`. -/
def cutSigned (cut : List Char → Option Nat × List Char) (text : List Char) :
    Option Int × List Char :=
  let trimmed := text.dropWhile fun c => c = ' ' || ('\t' ≤ c && c ≤ '\r')
  let (negative, digits) :=
    match trimmed with
    | '-' :: rest => (true, rest)
    | '+' :: rest => (false, rest)
    | _ => (false, trimmed)
  match cut digits with
  | (some n, rest) => (some (if negative then -(n : Int) else (n : Int)), rest)
  | (none, _) => (none, text)

/-- A number written in a radix. -/
def inRadix (radix n : Nat) : List Char :=
  Nat.toDigits radix n

/-- A number written in decimal digits, with a sign if it is negative. -/
def decimal (n : Int) : List Char :=
  if n < 0 then '-' :: inRadix 10 n.natAbs else inRadix 10 n.natAbs

end Numeral
end Text
end SkillAudit
