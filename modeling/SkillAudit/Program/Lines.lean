import SkillAudit.Program.Stream
import SkillAudit.Text.Regex

/-!
# Programs that work on lines

Sorting lines, dropping lines that repeat, cutting parts out of lines, and replacing characters.
-/

namespace SkillAudit
namespace Program

/-! ## Sorting -/

/-- How two keys are compared. -/
structure KeyOrder where
  numeric : Bool := false
  folded : Bool := false
  ignoresBlanks : Bool := false
  reversed : Bool := false

/-- A part of a line by which lines are sorted: the field and character where it starts, and those
where it ends. -/
structure SortKey where
  start : Nat × Nat
  stop : Option (Nat × Nat)
  order : KeyOrder

/-- The order that letters ask for. -/
def KeyOrder.with (order : KeyOrder) (letters : List Char) : KeyOrder :=
  { numeric := order.numeric || letters.contains 'n'
    folded := order.folded || letters.contains 'f'
    ignoresBlanks := order.ignoresBlanks || letters.contains 'b'
    reversed := order.reversed || letters.contains 'r' }

/-- The number that starts a key, in thousandths of thousandths; what is no number is zero. -/
def numberOfKey (key : List Char) : Int :=
  let key := key.dropWhile isSpace
  let (negative, key) :=
    match key with
    | '-' :: rest => (true, rest)
    | _ => (false, key)
  let whole := key.takeWhile Char.isDigit
  let fraction :=
    match key.drop whole.length with
    | '.' :: rest => (rest.takeWhile Char.isDigit).take 6
    | _ => []
  let digits := whole ++ fraction ++ List.replicate (6 - fraction.length) '0'
  let size : Int := ((natural? digits).getD 0 : Nat)
  if negative then -size else size

/-- Which of two keys comes first. -/
def compareKeys (order : KeyOrder) (a b : List Char) : Ordering :=
  let result :=
    if order.numeric then compare (numberOfKey a) (numberOfKey b)
    else
      let key (text : List Char) : List Nat :=
        let text := if order.ignoresBlanks then text.dropWhile isSpace else text
        text.map fun c => (if order.folded then c.toUpper else c).toNat
      compare (key a) (key b)
  if order.reversed then result.swap else result

/-- The fields of a line; without a separator a field starts with the blanks before it. -/
def sortFields (separator : Option Char) (line : List Char) : List (List Char) :=
  match separator with
  | some c => (Text.splitOn c line).zipIdx.map fun (field, i) => if i = 0 then field else c :: field
  | none => blankFields (line.length + 1) line
where
  /-- Cut a line before the blanks of each field. -/
  blankFields : (fuel : Nat) → List Char → List (List Char)
    | 0, _ => []
    | _, [] => []
    | fuel + 1, text =>
        let blanks := text.takeWhile isSpace
        let word := (text.drop blanks.length).takeWhile fun c => !isSpace c
        (blanks ++ word) :: blankFields fuel (text.drop (blanks.length + word.length))

/-- The part of a line that a key speaks of. -/
def SortKey.of (key : SortKey) (separator : Option Char) (line : List Char) : List Char :=
  let fields := sortFields separator line
  let lead (n : Nat) : Nat := if separator.isSome && 1 < n then 1 else 0
  let offset (field character : Nat) : Nat :=
    (fields.take (field - 1)).flatten.length + lead field + (character - 1)
  let start := offset key.start.1 key.start.2
  let stop :=
    match key.stop with
    | none => line.length
    | some (field, 0) => (fields.take field).flatten.length
    | some (field, character) => offset field character + 1
  (line.take stop).drop start

/-- The place at the start of a text, as a field and a character of it, and the letters after. -/
def readPlace (default : Nat) (text : List Char) : (Nat × Nat) × List Char :=
  let field := text.takeWhile Char.isDigit
  let rest := text.drop field.length
  let (character, rest) :=
    match rest with
    | '.' :: more =>
        let digits := more.takeWhile Char.isDigit
        ((natural? digits).getD default, more.drop digits.length)
    | _ => (default, rest)
  (((natural? field).getD 1, character), rest)

/-- The key that an option describes. -/
def readKey (order : KeyOrder) (text : List Char) : SortKey :=
  let (start, rest) := readPlace 1 text
  let letters := rest.takeWhile (· != ',')
  match rest.drop letters.length with
  | _ :: more =>
      let (stop, ending) := readPlace 0 more
      let own := letters ++ ending
      { start, stop := some stop, order := if own.isEmpty then order else KeyOrder.with {} own }
  | [] =>
      let order := if letters.isEmpty then order else KeyOrder.with {} letters
      { start, stop := none, order }

/-- Sort lines. -/
def Call.sort (call : Call) : Effect :=
  let grammar : Grammar :=
    { flags := "bdfghinrRsuVzcC", valued := "kot"
      long := [("reverse", 'r'), ("unique", 'u'), ("numeric-sort", 'n'), ("key", 'k'),
        ("field-separator", 't'), ("output", 'o')] }
  call.parsed grammar 2 fun words =>
    let (found, effect) := call.readAll words.operands
      (fun operand reason => "cannot read: " ++ Text.shown operand ++ ": " ++ reason) 2
    let lines := found.flatMap fun part => linesOf part.2
    let order := KeyOrder.with {} (words.options.map (·.1))
    let separator := (words.value? 't').bind List.head?
    let keys := (words.values 'k').map (readKey order)
    let byKeys (a b : List Char) : Ordering :=
      if keys.isEmpty then compareKeys order a b
      else
        keys.foldl
          (fun result key =>
            result.then (compareKeys key.order (key.of separator a) (key.of separator b)))
          .eq
    let whole (a b : List Char) : Ordering :=
      if words.has 's' || words.has 'u' then .eq
      else compareKeys { reversed := order.reversed } a b
    let sorted := lines.mergeSort fun a b => ((byKeys a b).then (whole a b)) != .gt
    let kept :=
      if words.has 'u' then
        (sorted.foldl
          (fun kept line =>
            match kept with
            | last :: _ => if byKeys last line = .eq then kept else line :: kept
            | [] => [line])
          []).reverse
      else
        sorted
    if !effect.printed.isEmpty then
      effect
    else
      match words.value? 'o' with
      | none => effect.print (ofLines kept)
      | some path =>
          match effect.files.write (Text.shown path) (Text.toBytes (ofLines kept)) with
          | .ok files => { effect with files }
          | .error fault =>
              call.complain effect ("open failed: " ++ Text.shown path ++ ": " ++ fault.reason) 2

/-! ## Lines that repeat -/

/-- Runs of equal lines: the first line of each and its length. -/
def runsOf (same : List Char → List Char → Bool) : List (List Char) → List (List Char × Nat)
  | [] => []
  | line :: rest =>
      match runsOf same rest with
      | (first, n) :: more =>
          if same line first then (line, n + 1) :: more else (line, 1) :: (first, n) :: more
      | [] => [(line, 1)]

/-- Drop lines that repeat the line before. -/
def Call.unique (call : Call) : Effect :=
  let grammar : Grammar :=
    { flags := "cdui"
      long := [("count", 'c'), ("repeated", 'd'), ("unique", 'u'), ("ignore-case", 'i')] }
  call.parsed grammar 1 fun words =>
    let (found, effect) := call.readAll (words.operands.take 1) plainWording 1
    let same (a b : List Char) : Bool :=
      if words.has 'i' then a.map Char.toLower == b.map Char.toLower else a == b
    let runs := runsOf same (found.flatMap fun part => linesOf part.2)
    let kept := runs.filter fun run =>
      (!words.has 'd' || 1 < run.2) && (!words.has 'u' || run.2 = 1)
    let shown := kept.map fun (line, n) =>
      if words.has 'c' then padded 7 n ++ ' ' :: line else line
    match words.operands[1]? with
    | none => effect.print (ofLines shown)
    | some path =>
        match effect.files.write (Text.shown path) (Text.toBytes (ofLines shown)) with
        | .ok files => { effect with files }
        | .error fault => call.complain effect (plainWording path fault.reason) 1

/-! ## Parts of lines -/

/-- A list of numbers and ranges of numbers. -/
def readRanges (text : List Char) : Option (List (Nat × Option Nat)) :=
  (Text.splitOn ',' text).mapM fun part =>
    let low := part.takeWhile (· != '-')
    match part.drop low.length with
    | [] => (natural? low).map fun n => (n, some n)
    | _ :: high =>
        if low.isEmpty && high.isEmpty then none
        else
          let bottom := if low.isEmpty then some 1 else natural? low
          if high.isEmpty then bottom.map fun n => (n, none)
          else bottom.bind fun n => (natural? high).map fun m => (n, some m)

/-- Whether a number lies in one of the ranges. -/
def inRanges (ranges : List (Nat × Option Nat)) (n : Nat) : Bool :=
  ranges.any fun (low, high) => low ≤ n && high.all (n ≤ ·)

/-- The items of a list whose places, counted from one, lie in the ranges. -/
def chosen {α : Type} (keeps : Nat → Bool) (items : List α) : List α :=
  (items.zipIdx.filter fun (_, i) => keeps (i + 1)).map (·.1)

/-- Cut parts out of lines. -/
def Call.cut (call : Call) : Effect :=
  let grammar : Grammar :=
    { flags := "snz", valued := "bcdfO"
      long := [("delimiter", 'd'), ("fields", 'f'), ("characters", 'c'), ("bytes", 'b'),
        ("only-delimited", 's'), ("complement", 'n'), ("output-delimiter", 'O')] }
  call.parsed grammar 1 fun words =>
    let byFields := words.has 'f'
    let list? :=
      ((words.value? 'f').orElse fun _ => words.value? 'c').orElse fun _ => words.value? 'b'
    match list? with
    | none =>
        (call.failing "you must specify a list of bytes, characters, or fields" 1).printError
          (Text.bytesOf ("Try '" ++ Text.shown call.name ++ " --help' for more information.\n"))
    | some list =>
        match readRanges list with
        | none =>
            let kind := if byFields then "field" else "byte"
            call.failing ("invalid " ++ kind ++ " value '" ++ Text.shown list ++ "'") 1
        | some ranges =>
            let keeps (n : Nat) : Bool := inRanges ranges n != words.has 'n'
            let delimiter := ((words.value? 'd').bind List.head?).getD '\t'
            let joiner := (words.value? 'O').getD [delimiter]
            let part (line : List Char) : Option (List Char) :=
              if byFields then
                if line.contains delimiter then
                  some (joiner.intercalate (chosen keeps (Text.splitOn delimiter line)))
                else if words.has 's' then none
                else some line
              else
                some (chosen keeps line)
            let (found, effect) := call.readAll words.operands plainWording 1
            effect.print (ofLines ((found.flatMap fun p => linesOf p.2).filterMap part))

/-! ## Characters -/

/-- The characters from one to another. -/
def between (low high : Char) : List Char :=
  (List.range (high.toNat + 1 - low.toNat)).map fun i => Char.ofNat (low.toNat + i)

/-- The characters of a set with the escapes decoded; an escaped character starts no range. -/
def readEscapes : (fuel : Nat) → List Char → List (Bool × Char)
  | 0, _ => []
  | _, [] => []
  | fuel + 1, '\\' :: c :: rest =>
      let octal := ((c :: rest).take 3).takeWhile fun d => '0' ≤ d && d ≤ '7'
      if !octal.isEmpty then
        (true, Char.ofNat (octal.foldl (fun n d => n * 8 + (d.toNat - '0'.toNat)) 0 % 256)) ::
          readEscapes fuel ((c :: rest).drop octal.length)
      else
        let meant :=
          match c with
          | 'n' => '\n'
          | 't' => '\t'
          | 'r' => '\x0d'
          | 'a' => '\x07'
          | 'b' => '\x08'
          | 'f' => '\x0c'
          | 'v' => '\x0b'
          | _ => c
        (true, meant) :: readEscapes fuel rest
  | fuel + 1, c :: rest => (false, c) :: readEscapes fuel rest

/-- The characters of a set in order. -/
def readSet : (fuel : Nat) → List (Bool × Char) → List Char
  | 0, _ => []
  | _, [] => []
  | fuel + 1, text =>
      match text with
      | (false, '[') :: (false, ':') :: rest =>
          let name := (rest.map (·.2)).takeWhile (· != ':')
          match Text.Regex.classRanges? (String.ofList name), rest.drop name.length with
          | some ranges, (_, ':') :: (_, ']') :: after =>
              let members := (List.range 256).map Char.ofNat |>.filter fun c =>
                ranges.any fun (low, high) => low ≤ c && c ≤ high
              members ++ readSet fuel after
          | _, _ => '[' :: readSet fuel ((false, ':') :: rest)
      | (_, low) :: (false, '-') :: (_, high) :: rest => between low high ++ readSet fuel rest
      | (_, c) :: rest => c :: readSet fuel rest
      | [] => []

/-- The characters that an argument names. -/
def setOf (text : List Char) : List Char :=
  let escapes := readEscapes (text.length + 1) text
  readSet (escapes.length + 1) escapes

/-- Drop a character that repeats the one before it, if it is one of a set. -/
def squeezed (members : List Char) : List Char → List Char
  | c :: d :: rest =>
      if c = d && members.contains c then squeezed members (d :: rest)
      else c :: squeezed members (d :: rest)
  | text => text

/-- The character at the same place of another list, which goes on with its last one. -/
def counterpart (source target : List Char) (c : Char) : Char :=
  match source.reverse.idxOf? c with
  | some i => (target[source.length - 1 - i]?.orElse fun _ => target.getLast?).getD c
  | none => c

/-- Replace, drop or merge characters of the input. -/
def Call.translate (call : Call) : Effect :=
  let grammar : Grammar :=
    { flags := "cCdst"
      long := [("complement", 'c'), ("delete", 'd'), ("squeeze-repeats", 's'),
        ("truncate-set1", 't')]
      mixed := false }
  call.parsed grammar 1 fun words =>
    let effect := { call.done with input := [] }
    let sets := words.operands.map setOf
    let negated := words.has 'c' || words.has 'C'
    let members (set : List Char) : List Char :=
      if negated then (List.range 256).map Char.ofNat |>.filter fun c => !set.contains c else set
    match sets with
    | [] =>
        (call.failing "missing operand" 1).printError
          (Text.bytesOf ("Try '" ++ Text.shown call.name ++ " --help' for more information.\n"))
    | first :: others =>
        let source := members first
        if words.has 'd' then
          let kept := call.input.filter fun c => !source.contains c
          effect.print (if words.has 's' then squeezed (others.headD []) kept else kept)
        else
          match others with
          | [] =>
              if words.has 's' then
                effect.print (squeezed source call.input)
              else
                call.failing ("missing operand after '" ++
                  Text.shown (words.operands.headD []) ++ "'") 1
          | target :: _ =>
              let changed := call.input.map (counterpart source target)
              effect.print (if words.has 's' then squeezed target changed else changed)

end Program
end SkillAudit
