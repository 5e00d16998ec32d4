import SkillAudit.Machine
import SkillAudit.Program.Files

/-!
# Programs on names and numbers

Taking paths apart, calculating, counting, and telling what the machine and the environment are.
-/

namespace SkillAudit
namespace Program

/-- A name without an ending, unless it is nothing else. -/
def withoutEnding (ending name : List Char) : List Char :=
  if ending.length < name.length && name.drop (name.length - ending.length) = ending then
    name.take (name.length - ending.length)
  else
    name

/-- Show the last names of paths. -/
def Call.baseName (call : Call) : Effect :=
  call.parsed { flags := "az", valued := "s", mixed := false } 1 fun words =>
    match words.operands with
    | [] => call.missingOperand
    | first :: rest =>
        if words.has 'a' || words.has 's' then
          let ending := (words.value? 's').getD []
          call.done.print (ofLines ((first :: rest).map fun p => withoutEnding ending (lastName p)))
        else
          match rest with
          | [] => call.done.print (lastName first ++ ['\n'])
          | [ending] => call.done.print (withoutEnding ending (lastName first) ++ ['\n'])
          | _ :: extra :: _ =>
              (call.failing ("extra operand " ++ quoted extra) 1).printError
                (Text.bytesOf ("Try '" ++ Text.shown call.name ++
                  " --help' for more information.\n"))

/-- A path without its last name. -/
def directoryOf (path : List Char) : List Char :=
  let trimmed := path.reverse.dropWhile (· = '/')
  let above := (trimmed.dropWhile (· != '/')).dropWhile (· = '/')
  if above.isEmpty then
    if path.head? = some '/' then ['/'] else ['.']
  else
    above.reverse

/-- Show paths without their last names. -/
def Call.directoryName (call : Call) : Effect :=
  call.parsed { flags := "z" } 1 fun words =>
    if words.operands.isEmpty then call.missingOperand
    else call.done.print (ofLines (words.operands.map directoryOf))

/-! ## Calculating -/

/-- Why an expression has no value. -/
inductive CalculationFault where
  | malformed
  | notANumber
  | divisionByZero
  deriving DecidableEq, Repr

/-- The name of a fault. -/
def CalculationFault.reason : CalculationFault → String
  | .malformed => "syntax error"
  | .notANumber => "non-integer argument"
  | .divisionByZero => "division by zero"

/-- Whether a value counts as false. -/
def isNull (value : List Char) : Bool :=
  value.isEmpty || integer? value = some 0

/-- A number as a value. -/
def ofInt (n : Int) : List Char :=
  (toString n).toList

/-- A value as a number. -/
def asInt (value : List Char) : Except CalculationFault Int :=
  match integer? value with
  | some n => .ok n
  | none => .error .notANumber

/-- What an expression matches at the start of a value: its first group, or how much it matches. -/
def matchedStart (value pattern : List Char) : Except CalculationFault (List Char) :=
  match Text.Regex.ofText? false pattern with
  | none => .error .malformed
  | some regex =>
      let grouped := (Text.occursIn ['\\', '('] pattern)
      match regex.matchHere false [] value with
      | some found =>
          .ok (if grouped then (found.groups.lookup 1).getD [] else ofInt found.text.length)
      | none => .ok (if grouped then [] else ['0'])

/-- The value of an operator on two values. -/
def combined (operator : String) (a b : List Char) : Except CalculationFault (List Char) :=
  let truth (condition : Bool) : Except CalculationFault (List Char) :=
    .ok (if condition then ['1'] else ['0'])
  let order : Ordering :=
    match integer? a, integer? b with
    | some x, some y => compare x y
    | _, _ => compare (a.map Char.toNat) (b.map Char.toNat)
  let arithmetic (f : Int → Int → Except CalculationFault Int) :
      Except CalculationFault (List Char) := do
    return ofInt (← f (← asInt a) (← asInt b))
  match operator with
  | "|" => .ok (if !isNull a then a else if isNull b then ['0'] else b)
  | "&" => .ok (if isNull a || isNull b then ['0'] else a)
  | "=" | "==" => truth (order = .eq)
  | "!=" => truth (order != .eq)
  | "<" => truth (order = .lt)
  | "<=" => truth (order != .gt)
  | ">" => truth (order = .gt)
  | ">=" => truth (order != .lt)
  | "+" => arithmetic fun x y => .ok (x + y)
  | "-" => arithmetic fun x y => .ok (x - y)
  | "*" => arithmetic fun x y => .ok (x * y)
  | "/" => arithmetic fun x y => if y = 0 then .error .divisionByZero else .ok (x.tdiv y)
  | "%" => arithmetic fun x y => if y = 0 then .error .divisionByZero else .ok (x.tmod y)
  | ":" => matchedStart a b
  | _ => .error .malformed

/-- The operators, weakest first. -/
def operatorLevels : List (List String) :=
  [["|"], ["&"], ["=", "==", "!=", "<", "<=", ">", ">="], ["+", "-"], ["*", "/", "%"], [":"]]

mutual

/-- The value of an expression of some levels, and the words after it. -/
def evaluateLevel :
    (fuel : Nat) → List (List String) → List (List Char) →
      Except CalculationFault (List Char × List (List Char))
  | 0, _, _ => .error .malformed
  | fuel + 1, [], words => evaluateOperand fuel words
  | fuel + 1, operators :: levels, words => do
      let (first, rest) ← evaluateLevel fuel levels words
      evaluateRest fuel operators levels first rest

/-- What follows the first operand of a level. -/
def evaluateRest :
    (fuel : Nat) → List String → List (List String) → List Char → List (List Char) →
      Except CalculationFault (List Char × List (List Char))
  | 0, _, _, _, _ => .error .malformed
  | fuel + 1, operators, levels, first, words =>
      match words with
      | operator :: rest =>
          if operators.contains (Text.shown operator) then do
            let (second, rest) ← evaluateLevel fuel levels rest
            evaluateRest fuel operators levels (← combined (Text.shown operator) first second) rest
          else
            .ok (first, words)
      | [] => .ok (first, [])

/-- The value of an operand. -/
def evaluateOperand :
    (fuel : Nat) → List (List Char) → Except CalculationFault (List Char × List (List Char))
  | 0, _ => .error .malformed
  | fuel + 1, words =>
      match words with
      | [] => .error .malformed
      | first :: rest =>
          match Text.shown first, rest with
          | "(", _ => do
              let (value, rest) ← evaluateLevel fuel operatorLevels rest
              match rest with
              | [')'] :: rest => .ok (value, rest)
              | _ => .error .malformed
          | "length", text :: rest => .ok (ofInt text.length, rest)
          | "match", text :: pattern :: rest => do .ok (← matchedStart text pattern, rest)
          | "index", text :: members :: rest =>
              let before := text.takeWhile fun c => !members.contains c
              .ok (if before.length < text.length then ofInt (before.length + 1) else ['0'], rest)
          | "substr", text :: start :: length :: rest =>
              match integer? start, integer? length with
              | some start, some length =>
                  if start ≤ 0 || length ≤ 0 then .ok ([], rest)
                  else .ok ((text.drop (start.toNat - 1)).take length.toNat, rest)
              | _, _ => .ok ([], rest)
          | "+", text :: rest => .ok (text, rest)
          | _, _ => .ok (first, rest)

end

/-- Show the value of an expression. -/
def Call.calculate (call : Call) : Effect :=
  if call.arguments.isEmpty then call.missingOperand.withStatus 2
  else
    match evaluateLevel (30 * call.arguments.length + 30) operatorLevels call.arguments with
    | .ok (value, []) =>
        (call.done.print (value ++ ['\n'])).withStatus (if isNull value then 1 else 0)
    | .ok (_, _ :: _) => call.failing CalculationFault.malformed.reason 2
    | .error fault => call.failing fault.reason 2

/-- The numbers from one to another, in a bounded number of steps. -/
def numbersFrom (step last : Int) : (fuel : Nat) → Int → List Int
  | 0, _ => []
  | fuel + 1, n =>
      if (0 < step && last < n) || (step < 0 && n < last) then []
      else n :: numbersFrom step last fuel (n + step)

/-- Show numbers one after another. -/
def Call.sequence (call : Call) : Effect :=
  let isNumber (a : List Char) : Bool := (integer? a).isSome
  let separator :=
    match call.arguments with
    | ['-', 's'] :: value :: _ => value
    | _ => ['\n']
  let wide := call.arguments.contains ['-', 'w']
  match (call.arguments.filter isNumber).mapM integer? with
  | some (first :: rest) =>
      let (first, step, last) :=
        match rest with
        | [] => (1, 1, first)
        | [last] => (first, 1, last)
        | step :: last :: _ => (first, step, last)
      if step = 0 then call.failing "invalid Zero increment value: '0'" 1
      else
        let numbers := numbersFrom step last ((last - first).natAbs + 1) first
        let width := (numbers.map fun n => (ofInt n).length).foldl max 0
        let shown := numbers.map fun n =>
          let digits := ofInt n
          if wide then List.replicate (width - digits.length) '0' ++ digits else digits
        call.done.print
          (if shown.isEmpty then [] else separator.intercalate shown ++ ['\n'])
  | _ => call.missingOperand

/-! ## The machine -/

/-- Show variables. -/
def Call.showVariables (call : Call) : Effect :=
  match call.arguments with
  | [] =>
      call.done.print (ofLines (call.environment.map fun (name, value) =>
        Text.bytesOf name ++ '=' :: value))
  | names =>
      names.foldl
        (fun effect name =>
          match call.environment.lookup (Text.shown name) with
          | some value => effect.print (value ++ ['\n'])
          | none => effect.withStatus 1)
        call.done

/-- Show the working directory. -/
def Call.showDirectory (call : Call) : Effect :=
  call.done.print
    (Text.bytesOf ("/" ++ Path.ofNames call.files.workingDirectory) ++ ['\n'])

/-- Show the name of the system. -/
def Call.showSystem (call : Call) : Effect :=
  call.parsed { flags := "s" } 1 fun _ => call.done.print (Text.bytesOf "Linux\n")

/-- Whether a text is a span of time: a number, and perhaps a letter for its unit. -/
def isSpan (text : List Char) : Bool :=
  let whole := text.takeWhile Char.isDigit
  match text.drop whole.length with
  | '.' :: rest =>
      let part := rest.takeWhile Char.isDigit
      !(whole.isEmpty && part.isEmpty) && isUnit (rest.drop part.length)
  | rest => !whole.isEmpty && isUnit rest
where
  isUnit : List Char → Bool
    | [] => true
    | [c] => "smhd".toList.contains c
    | _ => false

/-- Wait for a span of time, which nothing here can show. -/
def Call.pause (call : Call) : Effect :=
  call.parsed {} 1 fun words =>
    let wrong := words.operands.filter (!isSpan ·)
    if words.operands.isEmpty then call.missingOperand
    else if wrong.isEmpty then call.done
    else
      call.advised <| wrong.foldl
        (fun effect operand =>
          call.complain effect ("invalid time interval " ++ quoted operand) 1)
        call.done

/-- Show where programs are found. -/
def Call.locate (call : Call) : Effect :=
  let path := (call.environment.lookup "PATH").map Text.shown
  call.arguments.foldl
    (fun effect name =>
      let candidates :=
        if name.contains '/' then [Text.shown name]
        else ((path.map Machine.searchDirectories).getD []).map fun directory =>
          Text.shown (inside (Text.bytesOf directory) name)
      match candidates.find? call.files.isExecutable with
      | some found => effect.print (Text.bytesOf found ++ ['\n'])
      | none => effect.withStatus 1)
    call.done

end Program
end SkillAudit
