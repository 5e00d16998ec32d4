import SkillAudit.Program.Call
import SkillAudit.Text.Numeral

/-!
# Conditions on texts, numbers and files

The program whose status says whether a condition holds.  A word counts as an operator only where
one can stand, so that any text can be an operand.  What is no condition is a fault, which is told
apart from a condition that does not hold.
-/

namespace SkillAudit
namespace Program

/-- Why words are no condition. -/
inductive ConditionFault where
  | missingBracket
  | unexpectedOperator (word : List Char)
  | argumentExpected (operator : List Char)
  | closingExpected
  | notANumber (word : List Char)
  deriving DecidableEq, Repr

/-- How a fault is told. -/
def ConditionFault.reason : ConditionFault → String
  | .missingBracket => "missing ]"
  | .unexpectedOperator word => Text.shown word ++ ": unexpected operator"
  | .argumentExpected operator => Text.shown operator ++ ": argument expected"
  | .closingExpected => "closing paren expected"
  | .notANumber word => "Illegal number: " ++ Text.shown word

namespace Condition

/-- What a word is in a condition. -/
inductive Role where
  | missing
  | operand
  | unary
  | binary
  | negation
  | conjunction
  | disjunction
  | opens
  | closes
  deriving DecidableEq, Repr

/-- The operators before one operand. -/
def unaryOperators : List String :=
  ["-b", "-c", "-d", "-e", "-f", "-g", "-h", "-k", "-n", "-p", "-r", "-s", "-t", "-u", "-w", "-x",
    "-z", "-G", "-L", "-O", "-S"]

/-- The operators between two operands. -/
def binaryOperators : List String :=
  ["=", "!=", "<", ">", "-eq", "-ne", "-gt", "-ge", "-lt", "-le", "-nt", "-ot", "-ef"]

/-- What a word is when operators may stand in its place. -/
def roleOfWord (word : List Char) : Role :=
  match String.ofList word with
  | "!" => .negation
  | "-a" => .conjunction
  | "-o" => .disjunction
  | "(" => .opens
  | ")" => .closes
  | text =>
      if unaryOperators.contains text then .unary
      else if binaryOperators.contains text then .binary
      else .operand

/-- What the first of some words is: an operator that has nothing to work on is an operand. -/
def roleOf : List (List Char) → Role
  | [] => .missing
  | word :: rest =>
      match roleOfWord word, rest with
      | .unary, [] => .operand
      | .unary, second :: _ :: _ =>
          if roleOfWord second = .binary then .operand else .unary
      | .opens, [] => .operand
      | role, _ => role

/-- The number that a word stands for. -/
def number (word : List Char) : Except ConditionFault Int :=
  match Text.Numeral.cutSigned Text.Numeral.cutDecimal word with
  | (some n, rest) =>
      let limit : Int := (Nat.pow 2 63 : Nat)
      if -limit ≤ n && n < limit && rest.all fun c => c = ' ' || ('\t' ≤ c && c ≤ '\r') then
        .ok n
      else .error (.notANumber word)
  | (none, _) => .error (.notANumber word)

/-- Whether the entry that a path names is a link. -/
def isLink (files : FileSystem) (path : String) : Bool :=
  match files.land path false with
  | .ok (.found ((_, .link _) :: _)) => true
  | _ => false

/-- Whether a condition on one operand holds. -/
def holdsOfOne (files : FileSystem) (operator : String) (operand : List Char) : Bool :=
  let path := Text.shown operand
  match operator with
  | "-n" => !operand.isEmpty
  | "-z" => operand.isEmpty
  | "-e" | "-r" | "-w" | "-O" | "-G" => files.pathExists path
  | "-f" => files.isFile path
  | "-d" => files.isDirectory path
  | "-x" => files.isExecutable path || files.isDirectory path
  | "-s" =>
      match files.readBytes path with
      | .ok bytes => !bytes.isEmpty
      | .error _ => files.isDirectory path
  | "-h" | "-L" => isLink files path
  | _ => false

/-- Whether a condition on two operands holds. -/
def holdsOfTwo (files : FileSystem) (operator : String) (a b : List Char) :
    Except ConditionFault Bool := do
  let texts (order : List Nat → List Nat → Bool) : Bool :=
    order (a.map Char.toNat) (b.map Char.toNat)
  let numbers (order : Int → Int → Bool) : Except ConditionFault Bool := do
    let x ← number a
    let y ← number b
    return order x y
  let isThere (word : List Char) : Bool := files.pathExists (Text.shown word)
  match operator with
  | "=" => return a == b
  | "!=" => return a != b
  | "<" => return texts fun x y => x < y
  | ">" => return texts fun x y => y < x
  | "-eq" => numbers fun x y => x == y
  | "-ne" => numbers fun x y => x != y
  | "-lt" => numbers fun x y => x < y
  | "-le" => numbers fun x y => x ≤ y
  | "-gt" => numbers fun x y => y < x
  | "-ge" => numbers fun x y => y ≤ x
  | "-nt" => return isThere a && !isThere b
  | "-ot" => return !isThere a && isThere b
  | _ =>
      match files.canonical (Text.shown a), files.canonical (Text.shown b) with
      | .ok first, .ok second => return first == second
      | _, _ => return false

/-- Whether a condition holds, the last word that belongs to it, and the words after it. -/
abbrev Verdict := Except ConditionFault (Bool × List Char × List (List Char))

mutual

/-- Whether one of several conditions holds. -/
def anyHolds (files : FileSystem) : (fuel : Nat) → Role → List (List Char) → Verdict
  | 0, _, _ => .error .closingExpected
  | fuel + 1, role, words => do
      let (first, last, rest) ← allHold files fuel role words
      if roleOf rest = .disjunction then
        let (second, last, rest) ← anyHolds files fuel (roleOf rest.tail) rest.tail
        return (first || second, last, rest)
      else
        return (first, last, rest)

/-- Whether several conditions hold. -/
def allHold (files : FileSystem) : (fuel : Nat) → Role → List (List Char) → Verdict
  | 0, _, _ => .error .closingExpected
  | fuel + 1, role, words => do
      let (first, last, rest) ← holds files fuel role words
      if roleOf rest = .conjunction then
        let (second, last, rest) ← allHold files fuel (roleOf rest.tail) rest.tail
        return (first && second, last, rest)
      else
        return (first, last, rest)

/-- Whether one condition holds; its first word has the given role. -/
def holds (files : FileSystem) : (fuel : Nat) → Role → List (List Char) → Verdict
  | 0, _, _ => .error .closingExpected
  | _, _, [] => .ok (false, [], [])
  | fuel + 1, role, word :: rest =>
      match role with
      | .missing => .ok (false, [], word :: rest)
      | .negation => do
          let (value, last, rest) ← holds files fuel (roleOf rest) rest
          return (!value, last, rest)
      | .opens =>
          if roleOf rest = .closes then
            .ok (false, [')'], rest.tail)
          else do
            let (value, _, rest) ← anyHolds files fuel (roleOf rest) rest
            if roleOf rest = .closes then return (value, [')'], rest.tail)
            else .error .closingExpected
      | .unary =>
          match rest with
          | [] => .error (.argumentExpected word)
          | operand :: rest =>
              .ok (holdsOfOne files (String.ofList word) operand, operand, rest)
      | _ =>
          if roleOf rest = .binary then
            match rest with
            | operator :: second :: rest => do
                return (← holdsOfTwo files (String.ofList operator) word second, second, rest)
            | _ => .error (.argumentExpected (rest.headD []))
          else
            .ok (!word.isEmpty, word, rest)

end

/-- Whether a condition that is all of some words holds. -/
def evaluateAll (files : FileSystem) (role : Role) (words : List (List Char)) :
    Except ConditionFault Bool :=
  match anyHolds files (4 * words.length + 4) role words with
  | .ok (value, _, []) => .ok value
  | .ok (_, last, _ :: _) => .error (.unexpectedOperator last)
  | .error fault => .error fault

/-- Whether the condition of some words holds.  Three words around an operator are always taken for
its operands, and the words of a short condition may be negated or stand in brackets. -/
def evaluate (files : FileSystem) (words : List (List Char)) : Except ConditionFault Bool :=
  let short : List (List Char) → Except ConditionFault Bool
    | [] => .ok false
    | [a, operator, b] =>
        if roleOfWord operator = .binary then evaluateAll files .operand [a, operator, b]
        else if a = ['('] && b = [')'] then evaluateAll files (roleOf [operator]) [operator]
        else evaluateAll files (roleOf [a, operator, b]) [a, operator, b]
    | words => evaluateAll files (roleOf words) words
  match words with
  | [['!'], a, b, c] => (short [a, b, c]).map (!·)
  | [['('], a, b, [')']] => evaluateAll files (roleOf [a, b]) [a, b]
  | _ => short words

end Condition

/-- The words of a condition, of which the last one closes the bracket that a call by that name
opens. -/
def conditionWords (bracketed : Bool) (arguments : List (List Char)) :
    Except ConditionFault (List (List Char)) :=
  if !bracketed then .ok arguments
  else if arguments.getLast? = some [']'] then .ok arguments.dropLast
  else .error .missingBracket

/-- Whether the condition of a call by a name holds. -/
def conditionResult (files : FileSystem) (name : List Char) (arguments : List (List Char)) :
    Except ConditionFault Bool := do
  Condition.evaluate files (← conditionWords (name.getLast? = some '[') arguments)

/-- Tell by the status whether a condition holds. -/
def Call.test (call : Call) : Effect :=
  match conditionResult call.files call.name call.arguments with
  | .ok true => call.done
  | .ok false => call.done.withStatus 1
  | .error fault => call.failing fault.reason 2

end Program
end SkillAudit
