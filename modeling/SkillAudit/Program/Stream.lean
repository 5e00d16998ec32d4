import SkillAudit.Program.Call

/-!
# Programs that pass text on

The programs that show what they read, whole or in part, and the one that counts it.
-/

namespace SkillAudit
namespace Program

/-- Whether a line has nothing but its line break. -/
def isEmptyLine (line : List Char) : Bool :=
  line.all (· = '\n')

/-- A number at the right end of a field of blanks. -/
def padded (width n : Nat) : List Char :=
  let digits := (toString n).toList
  List.replicate (width - digits.length) ' ' ++ digits

/-- Lines with what the options of showing text ask for. -/
def decorated (words : Words) (text : List Char) : List Char :=
  let marksEnds := words.has 'E' || words.has 'A' || words.has 'e'
  let marksTabs := words.has 'T' || words.has 'A' || words.has 't'
  let step (state : List Char × Nat × Bool) (line : List Char) : List Char × Nat × Bool :=
    let (shown, n, blankBefore) := state
    let blank := isEmptyLine line
    if words.has 's' && blank && blankBefore then
      state
    else
      let numbered := if words.has 'b' then !blank else words.has 'n'
      let n := if numbered then n + 1 else n
      let front := if numbered then padded 6 n ++ ['\t'] else []
      let body := line.flatMap fun c =>
        if marksTabs && c = '\t' then ['^', 'I']
        else if marksEnds && c = '\n' then ['$', '\n']
        else [c]
      (shown ++ front ++ body, n, blank)
  ((Text.segments text).foldl step ([], 0, false)).1

/-- Show files one after another. -/
def Call.cat (call : Call) : Effect :=
  call.parsed { flags := "AbeEnstTuv" } 1 fun words =>
    let (found, effect) := call.readAll words.operands plainWording 1
    let text := (found.map (·.2)).flatten
    effect.print (if words.options.isEmpty then text else decorated words text)

/-- A first argument of digits after a dash as an option for a number. -/
def withCount (arguments : List (List Char)) : List (List Char) :=
  match arguments with
  | ('-' :: c :: digits) :: rest =>
      if (c :: digits).all Char.isDigit then ['-', 'n'] :: (c :: digits) :: rest else arguments
  | _ => arguments

/-- The texts of several files, each under its name where there is more than one. -/
def underNames (words : Words) (parts : List (List Char × List Char)) : List Char :=
  let titled := !words.has 'q' && (1 < words.operands.length || words.has 'v')
  let show_ (index : Nat) (part : List Char × List Char) : List Char :=
    if titled then
      let name := if part.1 = ['-'] then Text.bytesOf "standard input" else part.1
      (if index = 0 then [] else ['\n']) ++ Text.bytesOf "==> " ++ name ++
        Text.bytesOf " <==\n" ++ part.2
    else
      part.2
  (parts.zipIdx.map fun (part, index) => show_ index part).flatten

/-- How an operand that cannot be opened is spoken of. -/
def openWording (operand : List Char) (reason : String) : String :=
  "cannot open '" ++ Text.shown operand ++ "' for reading: " ++ reason

/-- The first units of a text: so many, or all but so many. -/
def frontPart (units : List (List Char)) (count : Int) : List Char :=
  let most := if count < 0 then units.length - count.natAbs else count.toNat
  (units.take most).flatten

/-- The units of which a text is counted: its lines, or its bytes. -/
def unitsOf (byBytes : Bool) (text : List Char) : List (List Char) :=
  if byBytes then text.map fun c => [c] else Text.segments text

/-- Show the start of files. -/
def Call.head (call : Call) : Effect :=
  let call := { call with arguments := withCount call.arguments }
  call.parsed { flags := "qvz", valued := "nc", long := [("lines", 'n'), ("bytes", 'c')] } 1
    fun words =>
      let byBytes := words.has 'c'
      match integer? ((words.value? (if byBytes then 'c' else 'n')).getD ['1', '0']) with
      | none =>
          call.failing
            ("invalid number of " ++ (if byBytes then "bytes" else "lines") ++ ": '" ++
              Text.shown ((words.value? (if byBytes then 'c' else 'n')).getD []) ++ "'") 1
      | some count =>
          let (found, effect) := call.readAll words.operands openWording 1
          let part (text : List Char) : List Char := frontPart (unitsOf byBytes text) count
          let shown := underNames words (found.map fun (name, text) => (name, part text))
          let left :=
            if words.operands.isEmpty && call.sized then call.input.drop shown.length
            else effect.input
          { effect.print shown with input := left }

/-- The last units of a text: so many, or those from a place on. -/
def backPart (units : List (List Char)) (count : List Char) : Option (List Char) :=
  match count with
  | '+' :: digits => (natural? digits).map fun n => (units.drop (n - 1)).flatten
  | '-' :: digits => (natural? digits).map fun n => (units.drop (units.length - n)).flatten
  | _ => (natural? count).map fun n => (units.drop (units.length - n)).flatten

/-- Show the end of files. -/
def Call.tail (call : Call) : Effect :=
  let arguments :=
    match call.arguments with
    | ('+' :: digits) :: rest =>
        if digits.all Char.isDigit then ['-', 'n'] :: ('+' :: digits) :: rest else call.arguments
    | arguments => withCount arguments
  let call := { call with arguments }
  call.parsed { flags := "qvzfF", valued := "nc", long := [("lines", 'n'), ("bytes", 'c')] } 1
    fun words =>
      let byBytes := words.has 'c'
      let count := (words.value? (if byBytes then 'c' else 'n')).getD ['1', '0']
      let (found, effect) := call.readAll words.operands openWording 1
      let parts := found.mapM fun (name, text) =>
        (backPart (unitsOf byBytes text) count).map fun part => (name, part)
      match parts with
      | some parts => effect.print (underNames words parts)
      | none =>
          call.failing
            ("invalid number of " ++ (if byBytes then "bytes" else "lines") ++ ": '" ++
              Text.shown count ++ "'") 1

/-- Show the lines of files, the last one first. -/
def Call.reverseLines (call : Call) : Effect :=
  call.parsed {} 1 fun words =>
    let (found, effect) := call.readAll words.operands
      (fun operand reason =>
        "failed to open '" ++ Text.shown operand ++ "' for reading: " ++ reason) 1
    effect.print (found.map fun part => (Text.segments part.2).reverse.flatten).flatten

/-- Show every line of files backwards. -/
def Call.reverseText (call : Call) : Effect :=
  call.parsed {} 1 fun words =>
    let (found, effect) := call.readAll words.operands
      (fun operand reason => "cannot open " ++ Text.shown operand ++ ": " ++ reason) 1
    let turned (line : List Char) : List Char :=
      if line.getLast? = some '\n' then line.dropLast.reverse ++ ['\n'] else line.reverse
    effect.print (found.map fun part => ((Text.segments part.2).map turned).flatten).flatten

/-- A character between two words. -/
def isSpace (c : Char) : Bool :=
  c = ' ' || ('\t' ≤ c && c ≤ '\x0d')

/-- How many words a text has. -/
def wordCount (inside : Bool) : List Char → Nat
  | [] => 0
  | c :: rest =>
      if isSpace c then wordCount false rest
      else if inside then wordCount true rest
      else wordCount true rest + 1

/-- The counts of a text that are asked for. -/
def countsOf (words : Words) (text : List Char) : List Nat :=
  let all := words.options.isEmpty
  let lines := text.count '\n'
  let longest := ((linesOf text).map List.length).foldl max 0
  (if all || words.has 'l' then [lines] else []) ++
    (if all || words.has 'w' then [wordCount false text] else []) ++
    (if words.has 'm' then [text.length] else []) ++
    (if all || words.has 'c' then [text.length] else []) ++
    (if words.has 'L' then [longest] else [])

/-- Count lines, words and bytes. -/
def Call.countWords (call : Call) : Effect :=
  let grammar : Grammar :=
    { flags := "lwcmL"
      long := [("lines", 'l'), ("words", 'w'), ("bytes", 'c'), ("chars", 'm'),
        ("max-line-length", 'L')] }
  call.parsed grammar 1 fun words =>
    let (found, effect) := call.readAll words.operands plainWording 1
    let counts := found.map fun (name, text) => (name, countsOf words text)
    let columns := (countsOf words []).length
    let single := words.operands.length ≤ 1
    let unsized := found.any fun part => part.1 = ['-'] && !call.sized
    let sized := found.filter fun part => part.1 ≠ ['-'] || call.sized
    let total := (sized.map (·.2)).flatten.length
    let width :=
      if single && columns = 1 then 1
      else max (toString total).length (if unsized then 7 else 1)
    let line (name : List Char) (numbers : List Nat) : List Char :=
      let name := if name.isEmpty then [] else ' ' :: name
      [' '].intercalate (numbers.map (padded width)) ++ name ++ ['\n']
    let sums := (counts.map (·.2)).foldl (List.zipWith (· + ·)) (List.replicate columns 0)
    let totals := if single then [] else line ['t', 'o', 't', 'a', 'l'] sums
    let shown := counts.map fun (name, numbers) =>
      line (if words.operands.isEmpty then [] else name) numbers
    effect.print (shown.flatten ++ totals)

/-- Write the input to files and pass it on. -/
def Call.split (call : Call) : Effect :=
  call.parsed { flags := "ai", long := [("append", 'a')] } 1 fun words =>
    let effect : Effect := { (call.done).print call.input with input := [] }
    words.operands.foldl
      (fun effect operand =>
        let path := Text.shown operand
        let before :=
          if words.has 'a' then (effect.files.readBytes path).toOption.getD [] else []
        match effect.files.write path (before ++ Text.toBytes call.input) with
        | .ok files => { effect with files }
        | .error fault => call.complain effect (plainWording operand fault.reason) 1)
      effect

end Program
end SkillAudit
