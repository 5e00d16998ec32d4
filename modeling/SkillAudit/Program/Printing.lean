import SkillAudit.Program.Call
import SkillAudit.Text.Numeral

/-!
# Programs that print their arguments

One joins its arguments with blanks; the other follows a format again and again until no argument is
left.  A number that cannot be read counts as what was read of it, and is complained about.
-/

namespace SkillAudit
namespace Program

/-- The character that a letter after a backslash stands for. -/
def letterEscape? : Char → Option Char
  | 'a' => some '\x07'
  | 'b' => some '\x08'
  | 'e' => some '\x1b'
  | 'f' => some '\x0c'
  | 'n' => some '\n'
  | 'r' => some '\r'
  | 't' => some '\t'
  | 'v' => some '\x0b'
  | '\\' => some '\\'
  | _ => none

/-- The octal digits at the start of a text, at most so many. -/
def octalDigits (most : Nat) (text : List Char) : List Char :=
  (text.take most).takeWhile (Text.Numeral.isDigitOf 8)

/-- The byte of a number. -/
def byteOf (n : Nat) : Char :=
  Char.ofNat (n % 256)

/-- A text with its escapes decoded, and whether it says to stop printing.  A number has up to three
octal digits after a zero that starts it; with `hexadecimal` one may also be written after an
`x`. -/
def decodeEscapes (hexadecimal : Bool) : (fuel : Nat) → List Char → List Char × Bool
  | 0, _ => ([], false)
  | _, [] => ([], false)
  | fuel + 1, '\\' :: c :: rest =>
      let keep (taken : List Char) (after : List Char) : List Char × Bool :=
        let (more, stop) := decodeEscapes hexadecimal fuel after
        (taken ++ more, stop)
      let ofDigits (radix : Nat) (digits after : List Char) : List Char × Bool :=
        keep [byteOf (Text.Numeral.value radix digits)] (after.drop digits.length)
      let hexDigits := (rest.take 2).takeWhile (Text.Numeral.isDigitOf 16)
      if c = 'c' then
        ([], true)
      else if c = '0' then
        ofDigits 8 (octalDigits 3 rest) rest
      else if Text.Numeral.isDigitOf 8 c && !hexadecimal then
        ofDigits 8 (octalDigits 3 (c :: rest)) (c :: rest)
      else if c = 'x' && hexadecimal && !hexDigits.isEmpty then
        ofDigits 16 hexDigits rest
      else
        match letterEscape? c with
        | some d => keep [d] rest
        | none => keep ['\\', c] rest
  | fuel + 1, c :: rest =>
      let (more, stop) := decodeEscapes hexadecimal fuel rest
      (c :: more, stop)

/-- What is printed for arguments that are joined with blanks. -/
def joinedLine (decodes hexadecimal ended : Bool) (arguments : List (List Char)) : List Char :=
  let text := [' '].intercalate arguments
  let (shown, stop) :=
    if decodes then decodeEscapes hexadecimal (text.length + 1) text else (text, false)
  if stop || !ended then shown else shown ++ ['\n']

/-- Read the options of the program that joins its arguments: whether escapes are decoded and
whether a line break ends what is printed. -/
def readEchoOptions : (decodes ended : Bool) → List (List Char) → Bool × Bool × List (List Char)
  | decodes, ended, [] => (decodes, ended, [])
  | decodes, ended, word :: rest =>
      match word with
      | '-' :: c :: letters =>
          if (c :: letters).all "neE".toList.contains then
            let decodes := (c :: letters).foldl
              (fun decodes d => if d = 'e' then true else if d = 'E' then false else decodes)
              decodes
            readEchoOptions decodes (ended && !(c :: letters).contains 'n') rest
          else
            (decodes, ended, word :: rest)
      | _ => (decodes, ended, word :: rest)

/-- Print arguments. -/
def Call.echo (call : Call) : Effect :=
  let (decodes, ended, arguments) := readEchoOptions false true call.arguments
  call.done.print (joinedLine decodes true ended arguments)

/-! ## Formats -/

/-- What a format printed and what is wrong with its arguments. -/
structure Formatted where
  text : List Char := []
  complaints : List String := []
  status : Nat := 0
  /-- Whether printing is over. -/
  stopped : Bool := false

/-- A directive of a format. -/
structure Directive where
  flags : List Char
  width : Nat
  precision : Option Nat
  letter : Char

namespace Directive

/-- A text filled up to the width. -/
def fill (directive : Directive) (text : List Char) : List Char :=
  let missing := directive.width - text.length
  if directive.flags.contains '-' then text ++ List.replicate missing ' '
  else List.replicate missing ' ' ++ text

/-- A number with its sign or mark in front, filled up to the width. -/
def fillNumber (directive : Directive) (front digits : List Char) : List Char :=
  let digits := List.replicate (directive.precision.getD 1 - digits.length) '0' ++ digits
  if directive.flags.contains '0' && !directive.flags.contains '-' &&
      directive.precision.isNone then
    front ++ List.replicate (directive.width - front.length - digits.length) '0' ++ digits
  else
    directive.fill (front ++ digits)

/-- What is printed for a number. -/
def ofNumber (directive : Directive) (n : Int) : List Char :=
  let unsigned := (n % Nat.pow 2 64).toNat
  let marked := directive.flags.contains '#'
  match directive.letter with
  | 'd' | 'i' =>
      let front :=
        if n < 0 then ['-']
        else if directive.flags.contains '+' then ['+']
        else if directive.flags.contains ' ' then [' ']
        else []
      directive.fillNumber front (Text.Numeral.inRadix 10 n.natAbs)
  | 'o' =>
      directive.fillNumber (if marked && unsigned != 0 then ['0'] else [])
        (Text.Numeral.inRadix 8 unsigned)
  | 'x' =>
      directive.fillNumber (if marked && unsigned != 0 then ['0', 'x'] else [])
        (Text.Numeral.inRadix 16 unsigned)
  | 'X' =>
      directive.fillNumber (if marked && unsigned != 0 then ['0', 'X'] else [])
        ((Text.Numeral.inRadix 16 unsigned).map Char.toUpper)
  | _ => directive.fillNumber [] (Text.Numeral.inRadix 10 unsigned)

end Directive

/-- The number that an argument stands for, and what is wrong with it. -/
def numberOf (argument : List Char) : Int × Option String :=
  match argument with
  | '\'' :: c :: _ | '"' :: c :: _ => ((c.toNat : Int), none)
  | [] => (0, none)
  | _ =>
      match Text.Numeral.cutSigned Text.Numeral.cut argument with
      | (none, _) => (0, some (Text.shown argument ++ ": expected numeric value"))
      | (some n, rest) =>
          let limit : Int := (Nat.pow 2 63 : Nat)
          if limit ≤ n || n < -limit then
            (if n < 0 then -limit else limit - 1,
              some (Text.shown argument ++ ": Numerical result out of range"))
          else if rest.isEmpty then
            (n, none)
          else
            (n, some (Text.shown argument ++ ": not completely converted"))

/-- What a directive makes of an argument. -/
def Directive.apply (directive : Directive) (argument : List Char) : Option Formatted :=
  match directive.letter with
  | 's' =>
      some { text := directive.fill (argument.take (directive.precision.getD argument.length)) }
  | 'b' =>
      let (shown, stopped) := decodeEscapes false (argument.length + 1) argument
      some { text := directive.fill shown, stopped }
  | 'c' => some { text := directive.fill [argument.headD '\x00'] }
  | 'd' | 'i' | 'o' | 'u' | 'x' | 'X' =>
      let (n, complaint) := numberOf argument
      some {
        text := directive.ofNumber n
        complaints := complaint.toList
        status := if complaint.isSome then 1 else 0 }
  | _ => none

/-- A number in a directive, or the next argument in the place of a star. -/
def readAmount (text : List Char) (arguments : List (List Char)) :
    Option Int × List Char × List (List Char) :=
  match text with
  | '*' :: rest => (some (numberOf (arguments.headD [])).1, rest, arguments.tail)
  | _ =>
      match text.takeWhile Char.isDigit with
      | [] => (none, text, arguments)
      | digits =>
          (some (Text.Numeral.value 10 digits : Nat), text.drop digits.length, arguments)

/-- The directive after a percent sign, with what follows it and the arguments it leaves. -/
def readDirective (text : List Char) (arguments : List (List Char)) :
    Directive × List Char × List (List Char) :=
  let flags := text.takeWhile "#-+ 0".toList.contains
  let (width, text, arguments) := readAmount (text.drop flags.length) arguments
  let flags := if width.getD 0 < 0 then '-' :: flags else flags
  let width := (width.getD 0).natAbs
  match text with
  | '.' :: text =>
      let (precision, text, arguments) := readAmount text arguments
      let precision := precision.getD 0
      ({ flags, width, letter := text.headD '\x00'
         precision := if precision < 0 then none else some precision.toNat },
        text.tail, arguments)
  | _ => ({ flags, width, letter := text.headD '\x00', precision := none }, text.tail, arguments)

/-- One pass over a format: what is printed, the arguments left, and whether it used any. -/
def formatOnce :
    (fuel : Nat) → List Char → List (List Char) → Formatted × List (List Char) × Bool
  | 0, _, arguments => ({}, arguments, false)
  | _, [], arguments => ({}, arguments, false)
  | fuel + 1, c :: rest, arguments =>
      let keep (taken after : List Char) : Formatted × List (List Char) × Bool :=
        let (more, left, used) := formatOnce fuel after arguments
        ({ more with text := taken ++ more.text }, left, used)
      match c, rest with
      | '%', '%' :: after => keep ['%'] after
      | '%', _ =>
          let (directive, after, left) := readDirective rest arguments
          if directive.letter = '\x00' then
            ({ complaints := ["missing format character"], status := 2, stopped := true },
              arguments, false)
          else
            match directive.apply (left.headD []) with
            | none =>
                let written := '%' :: rest.take (rest.length - after.length)
                ({ complaints := [Text.shown written ++ ": invalid directive"]
                   status := 2
                   stopped := true },
                  arguments, false)
            | some shown =>
                if shown.stopped then
                  (shown, left.tail, true)
                else
                  let (more, left, _) := formatOnce fuel after left.tail
                  ({ more with
                      text := shown.text ++ more.text
                      complaints := shown.complaints ++ more.complaints
                      status := max shown.status more.status },
                    left, true)
      | '\\', d :: after =>
          if Text.Numeral.isDigitOf 8 d then
            let digits := octalDigits 3 rest
            keep [byteOf (Text.Numeral.value 8 digits)] (rest.drop digits.length)
          else
            match letterEscape? d with
            | some e => keep [e] after
            | none => keep ['\\', d] after
      | _, _ => keep [c] rest

/-- What is printed for a format and its arguments. -/
def formatAll (format : List Char) : (fuel : Nat) → List (List Char) → Formatted
  | 0, _ => {}
  | fuel + 1, arguments =>
      let (shown, left, used) := formatOnce (format.length + 1) format arguments
      if left.isEmpty || !used || shown.stopped then
        shown
      else
        let more := formatAll format fuel left
        { more with
          text := shown.text ++ more.text
          complaints := shown.complaints ++ more.complaints
          status := max shown.status more.status }

/-- What is printed for the arguments of a call of the program that follows a format. -/
def printfResult (arguments : List (List Char)) : Formatted :=
  let arguments := if arguments.head? = some ['-', '-'] then arguments.tail else arguments
  match arguments with
  | [] => { complaints := ["usage: printf format [arg ...]"], status := 2 }
  | format :: rest => formatAll format (rest.length + 1) rest

/-- Print arguments by a format. -/
def Call.printf (call : Call) : Effect :=
  let shown := printfResult call.arguments
  let effect := shown.complaints.foldl
    (fun effect text => effect.printError (call.message text)) call.done
  (effect.print shown.text).withStatus (min shown.status 1)

end Program
end SkillAudit
