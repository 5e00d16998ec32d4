import SkillAudit.Text.Bytes
import SkillAudit.Text.Numeral

/-!
# Arithmetic in the shell

Expressions over whole numbers of 64 bits.  A name stands for the number in its value, and for zero
without one; an expression may also set names.  What the value does not depend on is not
calculated.
-/

namespace SkillAudit
namespace Shell
namespace Arithmetic

/-- Why an expression has no value. -/
inductive Fault where
  | expectingOperand
  | expectingEnd
  | expectingColon
  | expectingBracket
  | divisionByZero
  | notANumber (text : List Char)
  deriving DecidableEq, Repr

/-- How a fault of an expression is told. -/
def Fault.reason (expression : List Char) (fault : Fault) : String :=
  let about (text : String) : String :=
    "arithmetic expression: " ++ text ++ ": \"" ++ Text.shown expression ++ "\""
  match fault with
  | .expectingOperand => about "expecting primary"
  | .expectingEnd => about "expecting EOF"
  | .expectingColon => about "expecting ':'"
  | .expectingBracket => about "expecting ')'"
  | .divisionByZero => about "division by zero"
  | .notANumber text => "Illegal number: " ++ Text.shown text

/-- A part of an expression. -/
inductive Token where
  | number (n : Nat)
  | name (text : String)
  | mark (text : String)
  deriving DecidableEq, Repr

/-- An expression, which may break off where it is malformed. -/
inductive Expression where
  | number (n : Nat)
  | named (name : String)
  | signed (operator : String) (operand : Expression)
  | combined (operator : String) (first second : Expression)
  | choice (condition first second : Expression)
  /-- The new value of a name: what the operator makes of its value and another one, which is the
  value itself for an empty operator. -/
  | assigned (name operator : String) (value : Expression)
  | broken (fault : Fault)
  /-- An expression after which something else had to come. -/
  | cutShort (complete : Expression) (fault : Fault)
  deriving DecidableEq, Repr

/-- Why an expression is malformed. -/
def Expression.fault? : Expression → Option Fault
  | .number _ | .named _ => none
  | .signed _ operand => operand.fault?
  | .combined _ first second => first.fault?.or second.fault?
  | .choice condition first second => (condition.fault?.or first.fault?).or second.fault?
  | .assigned _ _ value => value.fault?
  | .broken fault => some fault
  | .cutShort _ fault => some fault

/-- The operators between two operands, weakest first. -/
def levels : List (List String) :=
  [["||"], ["&&"], ["|"], ["^"], ["&"], ["==", "!="], ["<=", ">=", "<", ">"], ["<<", ">>"],
    ["+", "-"], ["*", "/", "%"]]

/-- The operators that set a name. -/
def assignments : List String :=
  ["=", "*=", "/=", "%=", "+=", "-=", "<<=", ">>=", "&=", "^=", "|="]

/-- The marks of an expression, so that a longer one comes before its start. -/
def marks : List (List Char) :=
  (["<<=", ">>="] ++ ["||", "&&", "==", "!=", "<=", ">=", "<<", ">>", "*=", "/=", "%=", "+=",
    "-=", "&=", "^=", "|="] ++ ["|", "^", "&", "<", ">", "+", "-", "*", "/", "%", "!", "~", "(",
    ")", "?", ":", "="]).map String.toList

/-- A blank of an expression. -/
def isBlank (c : Char) : Bool :=
  c = ' ' || ('\t' ≤ c && c ≤ '\r')

/-- The largest number. -/
def largest : Nat :=
  Nat.pow 2 63 - 1

/-- The parts of an expression, up to what cannot be a part. -/
def tokens : (fuel : Nat) → List Char → List Token
  | 0, _ => []
  | _, [] => []
  | fuel + 1, c :: rest =>
      let text := c :: rest
      if isBlank c then
        tokens fuel rest
      else if c.isDigit then
        match Text.Numeral.cut text with
        | (some n, after) => .number (min n largest) :: tokens fuel after
        | (none, _) => [.mark "\\"]
      else if c.isAlpha || c = '_' then
        let word := text.takeWhile fun d => d.isAlphanum || d = '_'
        .name (String.ofList word) :: tokens fuel (text.drop word.length)
      else
        match marks.find? fun mark => text.take mark.length = mark with
        | some mark => .mark (String.ofList mark) :: tokens fuel (text.drop mark.length)
        | none => [.mark "\\"]

/-- The expression at the start of some tokens and the tokens after it, of which there are none when
it is malformed. -/
abbrev Reading := Expression × Option (List Token)

mutual

/-- The expression at the start of some tokens. -/
def readAssignment : (fuel : Nat) → List Token → Reading
  | 0, _ => (.broken .expectingOperand, none)
  | fuel + 1, tokens =>
      match tokens with
      | .name name :: .mark operator :: rest =>
          if assignments.contains operator then
            let (value, rest) := readAssignment fuel rest
            (.assigned name (String.ofList operator.toList.dropLast) value, rest)
          else
            readChoice fuel tokens
      | _ => readChoice fuel tokens

/-- The expression at the start of some tokens that sets no name at its top. -/
def readChoice : (fuel : Nat) → List Token → Reading
  | 0, _ => (.broken .expectingOperand, none)
  | fuel + 1, tokens =>
      match readLevel fuel levels tokens with
      | (condition, some (.mark "?" :: rest)) =>
          match readAssignment fuel rest with
          | (first, some (.mark ":" :: rest)) =>
              let (second, rest) := readChoice fuel rest
              (.choice condition first second, rest)
          | (first, some _) =>
              (.choice condition (.cutShort first .expectingColon) (.broken .expectingColon), none)
          | (first, none) =>
              (.choice condition first (.broken (first.fault?.getD .expectingOperand)), none)
      | reading => reading

/-- The expression of the given levels at the start of some tokens. -/
def readLevel : (fuel : Nat) → List (List String) → List Token → Reading
  | 0, _, _ => (.broken .expectingOperand, none)
  | fuel + 1, [], tokens => readOperand fuel tokens
  | fuel + 1, operators :: more, tokens =>
      match readLevel fuel more tokens with
      | (first, some rest) => readLevelRest fuel operators more first rest
      | reading => reading

/-- What follows the first operand of a level. -/
def readLevelRest :
    (fuel : Nat) → List String → List (List String) → Expression → List Token → Reading
  | 0, _, _, _, _ => (.broken .expectingOperand, none)
  | fuel + 1, operators, more, first, tokens =>
      match tokens with
      | .mark operator :: rest =>
          if operators.contains operator then
            match readLevel fuel more rest with
            | (second, some rest) =>
                readLevelRest fuel operators more (.combined operator first second) rest
            | (second, none) => (.combined operator first second, none)
          else
            (first, some tokens)
      | _ => (first, some tokens)

/-- The operand at the start of some tokens with the signs before it. -/
def readOperand : (fuel : Nat) → List Token → Reading
  | 0, _ => (.broken .expectingOperand, none)
  | fuel + 1, tokens =>
      match tokens with
      | .number n :: rest => (.number n, some rest)
      | .name name :: rest => (.named name, some rest)
      | .mark "(" :: rest =>
          match readAssignment fuel rest with
          | (value, some (.mark ")" :: rest)) => (value, some rest)
          | (value, some _) => (.cutShort value .expectingBracket, none)
          | reading => reading
      | .mark operator :: rest =>
          if ["-", "+", "!", "~"].contains operator then
            let (value, rest) := readOperand fuel rest
            (.signed operator value, rest)
          else
            (.broken .expectingOperand, none)
      | [] => (.broken .expectingOperand, none)

end

/-- The expression that a text is. -/
def ofText (text : List Char) : Expression :=
  let tokens := tokens (text.length + 1) text
  match readAssignment (30 * tokens.length + 30) tokens with
  | (expression, some (_ :: _)) => .cutShort expression .expectingEnd
  | (expression, _) => expression

/-- Whether a condition holds, as a number. -/
def ofBool (b : Bool) : Int :=
  if b then 1 else 0

/-- A number in the range of 64 bits with a sign. -/
def wrapped (n : Int) : Int :=
  n.bmod (Nat.pow 2 64)

/-- The bits of a number, as a natural number. -/
def bits (n : Int) : Nat :=
  (n % (Nat.pow 2 64 : Nat)).toNat

/-- The value of an operator on two numbers. -/
def combine (operator : String) (a b : Int) : Except Fault Int :=
  match operator with
  | "|" => .ok (wrapped (bits a ||| bits b : Nat))
  | "^" => .ok (wrapped (bits a ^^^ bits b : Nat))
  | "&" => .ok (wrapped (bits a &&& bits b : Nat))
  | "==" => .ok (ofBool (a == b))
  | "!=" => .ok (ofBool (a != b))
  | "<=" => .ok (ofBool (a ≤ b))
  | ">=" => .ok (ofBool (b ≤ a))
  | "<" => .ok (ofBool (a < b))
  | ">" => .ok (ofBool (b < a))
  | "<<" => .ok (wrapped (a * (Nat.pow 2 (bits b % 64) : Nat)))
  | ">>" => .ok (Int.fdiv a (Nat.pow 2 (bits b % 64) : Nat))
  | "+" => .ok (wrapped (a + b))
  | "-" => .ok (wrapped (a - b))
  | "*" => .ok (wrapped (a * b))
  | "/" => if b = 0 then .error .divisionByZero else .ok (wrapped (a.tdiv b))
  | "%" => if b = 0 then .error .divisionByZero else .ok (a.tmod b)
  | _ => .ok b

/-- The number in a value; a blank value is zero. -/
def numberIn (value : List Char) : Except Fault Int :=
  if value.all isBlank then
    .ok 0
  else
    match Text.Numeral.cutSigned Text.Numeral.cut value with
    | (some n, rest) =>
        if rest.all isBlank && -(largest : Int) - 1 ≤ n && n ≤ largest then .ok n
        else .error (.notANumber value)
    | (none, _) => .error (.notANumber value)

/-- The names that an expression has set so far, the last one first. -/
abbrev Changes := List (String × Int)

/-- The number of a name. -/
def numberOf (look : String → List Char) (changes : Changes) (name : String) :
    Except Fault Int :=
  match changes.lookup name with
  | some n => .ok n
  | none => numberIn (look name)

/-- What is not calculated has to be well formed still. -/
def skip {α : Type} (expression : Expression) (result : α) : Except Fault α :=
  match expression.fault? with
  | some fault => .error fault
  | none => .ok result

/-- The value of an expression and the names that it has set.  Of several faults the first one in
the text is told. -/
def evaluate (look : String → List Char) (changes : Changes) :
    Expression → Except Fault (Int × Changes)
  | .number n => .ok (n, changes)
  | .named name => do return (← numberOf look changes name, changes)
  | .signed operator operand => do
      let (n, changes) ← evaluate look changes operand
      let value :=
        match operator with
        | "-" => wrapped (-n)
        | "!" => ofBool (n == 0)
        | "~" => -n - 1
        | _ => n
      return (value, changes)
  | .combined operator first second => do
      let (a, changes) ← evaluate look changes first
      match operator, a == 0 with
      | "&&", true => skip second (0, changes)
      | "||", false => skip second (1, changes)
      | _, _ =>
          let (b, changes) ← evaluate look changes second
          if operator = "&&" || operator = "||" then return (ofBool (b != 0), changes)
          else return (← combine operator a b, changes)
  | .choice condition first second => do
      let (n, changes) ← evaluate look changes condition
      if n == 0 then
        let changes ← skip first changes
        evaluate look changes second
      else
        let (n, changes) ← evaluate look changes first
        skip second (n, changes)
  | .assigned name operator value => do
      let (n, changes) ← evaluate look changes value
      let n ←
        if operator = "" then pure n
        else combine operator (← numberOf look changes name) n
      return (n, (name, n) :: changes)
  | .broken fault => .error fault
  | .cutShort complete fault => do
      let _ ← evaluate look changes complete
      .error fault

end Arithmetic
end Shell
end SkillAudit
