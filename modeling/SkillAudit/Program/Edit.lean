import SkillAudit.Program.Search

/-!
# Editing lines

The program that edits lines by a script: each command of the script has addresses that choose the
lines on which it acts.  A script is a list of commands, in which blocks are opened and closed by
commands of their own, and it is run once for every line.
-/

namespace SkillAudit
namespace Program
namespace Edit

/-- A choice of lines. -/
inductive Address where
  | line (n : Nat)
  | last
  /-- Lines that match; without an expression the last one used counts. -/
  | pattern (regex : Option (Text.Regex × Bool))
  /-- Every so many lines from one on. -/
  | step (first every : Nat)
  /-- So many lines after the first one. -/
  | after (lines : Nat)

/-- The lines on which a command acts. -/
structure Selector where
  first : Option Address := none
  second : Option Address := none
  negated : Bool := false

/-- A part of a replacement. -/
inductive Part where
  | text (c : Char)
  /-- What a group matched; the whole match is group zero. -/
  | group (index : Nat)
  /-- The letter that changes the case of what follows. -/
  | case (letter : Char)

/-- What a substitution does. -/
structure Substitution where
  regex : Option (Text.Regex × Bool)
  parts : List Part
  every : Bool
  /-- The first match that is replaced. -/
  nth : Nat
  shows : Bool
  file : Option (List Char)

/-- What a command does. -/
inductive Action where
  | opens
  | closes
  | substitute (s : Substitution)
  | change (source target : List Char)
  /-- A command of one letter without arguments. -/
  | plain (letter : Char)
  | append (text : List Char)
  | insert (text : List Char)
  | replace (text : List Char)
  | quit (silent : Bool) (status : Nat)
  | label (name : List Char)
  /-- Go on at a label: always, or after a substitution that was made or not made. -/
  | jump (letter : Char) (name : List Char)
  | readFile (path : List Char)
  | writeFile (path : List Char)

/-- A command with the lines on which it acts. -/
structure Instruction where
  selector : Selector
  action : Action

/-! ## Reading scripts -/

/-- The text up to a delimiter; the delimiter after a backslash stands for itself. -/
def cutPart (delimiter : Char) : List Char → Option (List Char × List Char)
  | [] => none
  | '\\' :: c :: rest =>
      let taken : List Char := if c = delimiter then [c] else ['\\', c]
      (cutPart delimiter rest).map fun (part, after) => (taken ++ part, after)
  | c :: rest =>
      if c = delimiter then some ([], rest)
      else (cutPart delimiter rest).map fun (part, after) => (c :: part, after)

/-- The expression up to a delimiter, which ends nothing inside a set. -/
def cutRegex (delimiter : Char) : (fuel : Nat) → List Char → Option (List Char × List Char)
  | 0, _ => none
  | _, [] => none
  | fuel + 1, c :: rest =>
      let keep (taken after : List Char) : Option (List Char × List Char) :=
        (cutRegex delimiter fuel after).map fun (part, after) => (taken ++ part, after)
      match c, rest with
      | '\\', d :: more => keep (if d = delimiter then [d] else ['\\', d]) more
      | '[', _ =>
          let start := rest.take (if rest.head? = some '^' then 2 else 1)
          let inner := (rest.drop start.length).takeWhile (· != ']')
          let members := start ++ inner
          match rest.drop members.length with
          | _ :: after => keep ('[' :: members ++ [']']) after
          | [] => keep ['['] rest
      | _, _ => if c = delimiter then some ([], rest) else keep [c] rest

/-- The expression that a text between delimiters stands for. -/
def readRegex (extended ignoresCase : Bool) (text : List Char) :
    Option (Option (Text.Regex × Bool)) :=
  if text.isEmpty then some none
  else (Text.Regex.ofText? extended text).map fun regex => some (regex, ignoresCase)

/-- The address at the start of a text, if one is there. -/
def readAddress (extended : Bool) (text : List Char) : Option (Option Address × List Char) :=
  let matching (delimiter : Char) (rest : List Char) : Option (Option Address × List Char) := do
    let (part, after) ← cutRegex delimiter (rest.length + 1) rest
    let folds := after.head? = some 'I'
    let regex ← readRegex extended folds part
    return (some (.pattern regex), if folds then after.tail else after)
  match text with
  | '$' :: rest => some (some .last, rest)
  | '/' :: rest => matching '/' rest
  | '\\' :: delimiter :: rest => matching delimiter rest
  | '+' :: rest =>
      let digits := rest.takeWhile Char.isDigit
      (natural? digits).map fun n => (some (.after n), rest.drop digits.length)
  | _ =>
      let digits := text.takeWhile Char.isDigit
      match natural? digits, text.drop digits.length with
      | none, _ => some (none, text)
      | some n, '~' :: rest =>
          let step := rest.takeWhile Char.isDigit
          some (some (.step n ((natural? step).getD 0)), rest.drop step.length)
      | some n, rest => some (some (.line n), rest)

/-- Drop blanks, line breaks and semicolons. -/
def dropGaps (text : List Char) : List Char :=
  text.dropWhile fun c => isSpace c || c = ';'

/-- The selector at the start of a text. -/
def readSelector (extended : Bool) (text : List Char) : Option (Selector × List Char) := do
  let (first, rest) ← readAddress extended text
  let (second, rest) ←
    match first, rest.dropWhile isSpace with
    | some _, ',' :: more => readAddress extended (more.dropWhile isSpace)
    | _, rest => some (none, rest)
  let rest := rest.dropWhile isSpace
  match rest with
  | '!' :: more => return ({ first, second, negated := true }, more.dropWhile isSpace)
  | _ => return ({ first, second }, rest)

/-- The parts of a replacement. -/
def readParts : List Char → List Part
  | '\\' :: c :: rest =>
      let part : Part :=
        if c.isDigit then .group (c.toNat - '0'.toNat)
        else if c = 'n' then .text '\n'
        else if c = 't' then .text '\t'
        else if "LUluE".toList.contains c then .case c
        else .text c
      part :: readParts rest
  | '&' :: rest => .group 0 :: readParts rest
  | c :: rest => .text c :: readParts rest
  | [] => []

/-- The flags of a substitution, and the text after them. -/
def readFlags (s : Substitution) (ignoresCase : Bool) :
    List Char → Substitution × Bool × List Char
  | 'g' :: rest => readFlags { s with every := true } ignoresCase rest
  | 'p' :: rest => readFlags { s with shows := true } ignoresCase rest
  | 'i' :: rest | 'I' :: rest => readFlags s true rest
  | 'm' :: rest | 'M' :: rest | 'e' :: rest => readFlags s ignoresCase rest
  | 'w' :: rest =>
      let path := (rest.dropWhile isSpace).takeWhile (· != '\n')
      ({ s with file := some path }, ignoresCase, rest.dropWhile (· != '\n'))
  | c :: rest =>
      if c.isDigit then
        readFlags { s with nth := (if s.nth = 1 then 0 else s.nth * 10) + (c.toNat - '0'.toNat) }
          ignoresCase rest
      else
        (s, ignoresCase, c :: rest)
  | [] => (s, ignoresCase, [])

/-- A text that ends at a line break; a backslash keeps the character after it. -/
def readText : List Char → List Char × List Char
  | '\\' :: c :: rest =>
      let (text, after) := readText rest
      (c :: text, after)
  | '\n' :: rest => ([], rest)
  | c :: rest =>
      let (text, after) := readText rest
      (c :: text, after)
  | [] => ([], [])

/-- The text of a command that shows it, with the line break at its end. -/
def readLines (text : List Char) : List Char × List Char :=
  let blank (c : Char) : Bool := c = ' ' || c = '\t'
  let text :=
    match text.dropWhile blank with
    | '\\' :: rest =>
        match rest.dropWhile blank with
        | '\n' :: more => more
        | _ => rest
    | text => text
  let (shown, after) := readText text
  (shown ++ ['\n'], after)

/-- The characters that a character list stands for. -/
def plainChars : List Char → List Char
  | '\\' :: 'n' :: rest => '\n' :: plainChars rest
  | '\\' :: 't' :: rest => '\t' :: plainChars rest
  | '\\' :: c :: rest => c :: plainChars rest
  | c :: rest => c :: plainChars rest
  | [] => []

/-- The action at the start of a text. -/
def readAction (extended : Bool) (text : List Char) : Option (Action × List Char) :=
  let word (rest : List Char) : List Char × List Char :=
    let rest := rest.dropWhile fun c => c = ' ' || c = '\t'
    let name := rest.takeWhile fun c => c != '\n' && c != ';' && c != '}'
    let trimmed := (name.reverse.dropWhile isSpace).reverse
    (trimmed, rest.drop name.length)
  let path (rest : List Char) : List Char × List Char :=
    let rest := rest.dropWhile fun c => c = ' ' || c = '\t'
    (rest.takeWhile (· != '\n'), rest.dropWhile (· != '\n'))
  match text with
  | [] => none
  | letter :: rest =>
      match letter with
      | '{' => some (.opens, rest)
      | '}' => some (.closes, rest)
      | 's' =>
          match rest with
          | [] => none
          | delimiter :: rest => do
              let (pattern, rest) ← cutRegex delimiter (rest.length + 1) rest
              let (replacement, rest) ← cutPart delimiter rest
              let plain : Substitution :=
                { regex := none, parts := readParts replacement, every := false, nth := 1
                  shows := false, file := none }
              let (s, ignoresCase, rest) := readFlags plain false rest
              let regex ← readRegex extended ignoresCase pattern
              return (.substitute { s with regex }, rest)
      | 'y' =>
          match rest with
          | [] => none
          | delimiter :: rest => do
              let (source, rest) ← cutPart delimiter rest
              let (target, rest) ← cutPart delimiter rest
              let source := plainChars source
              let target := plainChars target
              if source.length = target.length then return (.change source target, rest) else none
      | 'a' => let (text, after) := readLines rest; some (.append text, after)
      | 'i' => let (text, after) := readLines rest; some (.insert text, after)
      | 'c' => let (text, after) := readLines rest; some (.replace text, after)
      | ':' => let (name, after) := word rest; some (.label name, after)
      | 'b' => let (name, after) := word rest; some (.jump 'b' name, after)
      | 't' => let (name, after) := word rest; some (.jump 't' name, after)
      | 'T' => let (name, after) := word rest; some (.jump 'T' name, after)
      | 'r' => let (name, after) := path rest; some (.readFile name, after)
      | 'w' => let (name, after) := path rest; some (.writeFile name, after)
      | 'q' =>
          let (code, after) := word rest
          some (.quit false ((natural? code).getD 0), after)
      | 'Q' =>
          let (code, after) := word rest
          some (.quit true ((natural? code).getD 0), after)
      | _ => if "pPdDnNhHgGx=lz".toList.contains letter then some (.plain letter, rest) else none

/-- Whether a command may end here. -/
def endsCommand (text : List Char) : Bool :=
  match text.dropWhile fun c => c = ' ' || c = '\t' with
  | [] => true
  | c :: _ => c = '\n' || c = ';' || c = '}' || c = '#'

/-- The commands of a script. -/
def readScript (extended : Bool) : (fuel : Nat) → List Char → Option (List Instruction)
  | 0, _ => none
  | fuel + 1, text =>
      match dropGaps text with
      | [] => some []
      | '#' :: rest => readScript extended fuel (rest.dropWhile (· != '\n'))
      | text => do
          let (selector, rest) ← readSelector extended text
          let (action, rest) ← readAction extended rest
          let free : Bool :=
            match action with
            | .opens | .closes | .append _ | .insert _ | .replace _ => true
            | _ => endsCommand rest
          if free then
            return { selector, action } :: (← readScript extended fuel rest)
          else
            none

/-! ## Running scripts -/

/-- A line with whether a line break ends it. -/
structure Line where
  text : List Char
  ended : Bool

/-- The state of a run. -/
structure State where
  pattern : Line := ⟨[], true⟩
  held : List Char := []
  number : Nat := 0
  left : List Line
  output : List Char := []
  /-- What is shown when the line is done. -/
  later : List Char := []
  /-- The commands whose range of lines is open, with the line at which it ends if that is known. -/
  ranges : List (Nat × Option Nat) := []
  last : Option (Text.Regex × Bool) := none
  substituted : Bool := false
  files : FileSystem
  /-- The files that were written to before. -/
  opened : List (List Char) := []
  quits : Bool := false
  status : Nat := 0

namespace State

/-- Show a text; a line that was shown without a line break gets it first. -/
def emit (state : State) (text : List Char) : State :=
  if text.isEmpty then state
  else
    let joint := if state.output.getLast?.any (· != '\n') then ['\n'] else []
    { state with output := state.output ++ joint ++ text }

/-- A line as it is shown. -/
def shownLine (line : Line) : List Char :=
  line.text ++ if line.ended then ['\n'] else []

/-- Write a text to a file, after what this run wrote to it before. -/
def store (state : State) (path text : List Char) : State :=
  if path = Text.bytesOf "/dev/stdout" then state.emit text
  else
    let shown := Text.shown path
    let before :=
      if state.opened.contains path then
        ((state.files.readBytes shown).toOption.getD [])
      else []
    match state.files.write shown (before ++ Text.toBytes text) with
    | .ok files => { state with files, opened := path :: state.opened }
    | .error _ => state

/-- Whether a line matches; without an expression the last one used counts. -/
def holds (state : State) (regex : Option (Text.Regex × Bool)) : Bool × State :=
  match regex.orElse fun _ => state.last with
  | some (regex, folds) =>
      (regex.occursIn folds state.pattern.text, { state with last := some (regex, folds) })
  | none => (false, state)

/-- Whether an address speaks of the current line. -/
def isAt (state : State) : Address → Bool × State
  | .line n => (state.number = n, state)
  | .last => (state.left.isEmpty, state)
  | .pattern regex => state.holds regex
  | .step first every =>
      (if every = 0 then state.number = first
        else first ≤ state.number && (state.number - first) % every = 0, state)
  | .after _ => (false, state)

/-- Whether a range that starts at the current line goes on, with its last line if that is known. -/
def opensRange (state : State) : Address → Option (Option Nat)
  | .line n => if n ≤ state.number then none else some (some n)
  | .after 0 => none
  | .after lines => some (some (state.number + lines))
  | .last => if state.left.isEmpty then none else some none
  | _ => some none

/-- Whether a command acts on the current line. -/
def selects (state : State) (index : Nat) (selector : Selector) : Bool × State :=
  let (chosen, state) :=
    match selector.first, selector.second with
    | none, _ => (true, state)
    | some first, none => state.isAt first
    | some first, some second =>
        match state.ranges.lookup index with
        | some stop =>
            let (atEnd, state) :=
              match stop with
              | some n => (decide (n ≤ state.number), state)
              | none => state.isAt second
            let beyond := stop.any (· < state.number)
            let ranges :=
              if atEnd then state.ranges.filter (·.1 != index) else state.ranges
            if beyond then
              let (again, state) := { state with ranges }.isAt first
              (again, state)
            else
              (true, { state with ranges })
        | none =>
            let fromStart : Bool :=
              match first with
              | .line 0 => state.number = 1
              | _ => false
            if fromStart then
              let (atEnd, state) := state.isAt second
              (true, if atEnd then state
                else { state with ranges := (index, none) :: state.ranges })
            else
              let (starts, state) := state.isAt first
              if starts then
                match state.opensRange second with
                | some stop => (true, { state with ranges := (index, stop) :: state.ranges })
                | none => (true, state)
              else
                (false, state)
  (chosen != selector.negated, state)

/-- Go on to the next line; nothing when there is none. -/
def next? (state : State) : Option State :=
  match state.left with
  | line :: left => some { state with pattern := line, left, number := state.number + 1 }
  | [] => none

end State

/-- The text of a replacement for a match; `pending` changes the case of one letter, `lasting` that
of all that follow. -/
def replaced (found : Text.Regex.Match) (pending lasting : Option Char) :
    List Part → List Char
  | [] => []
  | .case letter :: rest =>
      if letter = 'l' || letter = 'u' then replaced found (some letter) lasting rest
      else replaced found none (if letter = 'E' then none else some letter) rest
  | part :: rest =>
      let text :=
        match part with
        | .text c => [c]
        | .group 0 => found.text
        | .group n => (found.groups.lookup n).getD []
        | .case _ => []
      let cased (letter : Option Char) (c : Char) : Char :=
        match letter with
        | some 'U' | some 'u' => c.toUpper
        | some 'L' | some 'l' => c.toLower
        | _ => c
      match text with
      | [] => replaced found pending lasting rest
      | c :: more =>
          cased (pending.orElse fun _ => lasting) c :: more.map (cased lasting) ++
            replaced found none lasting rest

/-- Replace matches in what is left of a line; the number of replacements is given back. -/
def substituteFrom (s : Substitution) (regex : Text.Regex) (folds : Bool) :
    (fuel seen : Nat) → (backwards : List Char) → (justMatched : Bool) → List Char →
      List Char × Nat
  | 0, _, _, _, rest => (rest, 0)
  | fuel + 1, seen, backwards, justMatched, rest =>
      match regex.findFrom folds backwards rest with
      | none => (rest, 0)
      | some found =>
          let between := found.before.drop backwards.length
          let again (front : List Char) (seen done : Nat) : List Char × Nat :=
            if found.text.isEmpty then
              match found.after with
              | [] => (front, done)
              | c :: after =>
                  let (text, more) :=
                    substituteFrom s regex folds fuel seen (c :: found.before.reverse) false after
                  (front ++ c :: text, done + more)
            else
              let (text, more) :=
                substituteFrom s regex folds fuel seen
                  (found.text.reverse ++ found.before.reverse) true found.after
              (front ++ text, done + more)
          if found.text.isEmpty && between.isEmpty && justMatched then
            again [] seen 0
          else if seen + 1 < s.nth then
            again (between ++ found.text) (seen + 1) 0
          else
            let text := between ++ replaced found none none s.parts
            if s.every then again text (seen + 1) 1 else (text ++ found.after, 1)

/-- The commands after a block that is not entered. -/
def skipBlock : (depth : Nat) → List (Nat × Instruction) → List (Nat × Instruction)
  | _, [] => []
  | depth, (_, instruction) :: rest =>
      match instruction.action with
      | .opens => skipBlock (depth + 1) rest
      | .closes =>
          match depth with
          | 0 => rest
          | depth + 1 => skipBlock depth rest
      | _ => skipBlock depth rest

/-- The commands after a label; without a label none. -/
def afterLabel (name : List Char) (script : List (Nat × Instruction)) :
    List (Nat × Instruction) :=
  if name.isEmpty then []
  else
    (script.dropWhile fun (_, instruction) =>
      match instruction.action with
      | .label found => found != name
      | _ => true).tail

/-- How a pass over a line ended. -/
inductive Ending where
  | done
  /-- The line is not shown. -/
  | dropped
  /-- The script starts again with what is left of the line. -/
  | restarted

/-- Run commands on the current line. -/
def runFrom (quiet : Bool) (script : List (Nat × Instruction)) :
    (fuel : Nat) → List (Nat × Instruction) → State → Ending × State
  | 0, _, state => (.done, state)
  | _, [], state => (.done, state)
  | fuel + 1, (index, instruction) :: rest, state =>
      let (chosen, state) := state.selects index instruction.selector
      let goOn := runFrom quiet script fuel
      if !chosen then
        match instruction.action with
        | .opens => goOn (skipBlock 0 rest) state
        | _ => goOn rest state
      else
        match instruction.action with
        | .opens | .closes | .label _ => goOn rest state
        | .substitute s =>
            match s.regex.orElse fun _ => state.last with
            | none => goOn rest state
            | some (regex, folds) =>
                let line := state.pattern.text
                let (text, count) :=
                  substituteFrom s regex folds (2 * line.length + 2) 0 [] false line
                let state := { state with last := some (regex, folds) }
                if count = 0 then goOn rest state
                else
                  let state :=
                    { state with
                      pattern := { state.pattern with text }
                      substituted := true }
                  let state := if s.shows then state.emit (text ++ ['\n']) else state
                  let state :=
                    match s.file with
                    | some path => state.store path (text ++ ['\n'])
                    | none => state
                  goOn rest state
        | .change source target =>
            let text := state.pattern.text.map fun c =>
              match source.idxOf? c with
              | some i => target[i]?.getD c
              | none => c
            goOn rest { state with pattern := { state.pattern with text } }
        | .append text => goOn rest { state with later := state.later ++ text }
        | .insert text => goOn rest (state.emit text)
        | .replace text =>
            let inside := (state.ranges.lookup index).isSome && !instruction.selector.negated
            (.dropped, if inside then state else state.emit text)
        | .quit silent status =>
            (if silent then .dropped else .done, { state with quits := true, status })
        | .jump letter name =>
            let taken :=
              match letter with
              | 't' => state.substituted
              | 'T' => !state.substituted
              | _ => true
            let state := if letter = 'b' then state else { state with substituted := false }
            if taken then goOn (afterLabel name script) state else goOn rest state
        | .readFile path =>
            let text :=
              ((state.files.readBytes (Text.shown path)).toOption.map Text.ofBytes).getD []
            goOn rest { state with later := state.later ++ text }
        | .writeFile path => goOn rest (state.store path (state.pattern.text ++ ['\n']))
        | .plain letter =>
            let line := state.pattern.text
            let withText (text : List Char) : State :=
              { state with pattern := { state.pattern with text } }
            match letter with
            | 'p' => goOn rest (state.emit (line ++ ['\n']))
            | 'P' => goOn rest (state.emit (line.takeWhile (· != '\n') ++ ['\n']))
            | '=' => goOn rest (state.emit ((toString state.number).toList ++ ['\n']))
            | 'd' => (.dropped, state)
            | 'D' =>
                match line.dropWhile (· != '\n') with
                | _ :: text => (.restarted, withText text)
                | [] => (.dropped, state)
            | 'n' =>
                if state.left.isEmpty then (.done, { state with quits := true })
                else
                  let state := if quiet then state else state.emit (State.shownLine state.pattern)
                  let state := { state.emit state.later with later := [] }
                  goOn rest ((state.next?).getD state)
            | 'N' =>
                match state.next? with
                | none => (.done, { state with quits := true })
                | some after =>
                    goOn rest { after with
                      pattern := { after.pattern with text := line ++ '\n' :: after.pattern.text } }
            | 'h' => goOn rest { state with held := line }
            | 'H' => goOn rest { state with held := state.held ++ '\n' :: line }
            | 'g' => goOn rest (withText state.held)
            | 'G' => goOn rest (withText (line ++ '\n' :: state.held))
            | 'x' => goOn rest { withText state.held with held := line }
            | 'z' => goOn rest (withText [])
            | _ => goOn rest state

/-- Run a script on the lines that are left. -/
def runLines (quiet : Bool) (script : List (Nat × Instruction)) :
    (fuel : Nat) → (restarted : Bool) → State → State
  | 0, _, state => state
  | fuel + 1, restarted, state =>
      match if restarted then some state else state.next? with
      | none => state
      | some state =>
          let (ending, state) :=
            runFrom quiet script 100000 script
              { state with substituted := restarted && state.substituted }
          let shows : Bool :=
            match ending with
            | .done => !quiet
            | _ => false
          let state := if shows then state.emit (State.shownLine state.pattern) else state
          let state := { state.emit state.later with later := [] }
          if state.quits then state
          else
            match ending with
            | .restarted => runLines quiet script fuel true state
            | _ => runLines quiet script fuel false state

/-- The lines of a text. -/
def linesOf (text : List Char) : List Line :=
  (Text.segments text).map fun line =>
    if line.getLast? = some '\n' then ⟨line.dropLast, true⟩ else ⟨line, false⟩

/-- Run a script on a text. -/
def run (quiet : Bool) (script : List Instruction) (files : FileSystem) (lines : List Line) :
    State :=
  let script := script.zipIdx.map fun (instruction, index) => (index, instruction)
  let made := script.foldl
    (fun (state : State) (_, instruction) =>
      match instruction.action with
      | .writeFile path => state.store path []
      | .substitute { file := some path, .. } => state.store path []
      | _ => state)
    { left := lines, files }
  runLines quiet script (10 * lines.length + 1000) false made

end Edit

/-- Edit the lines of files by a script. -/
def Call.edit (call : Call) : Effect :=
  let inPlace := call.arguments.any fun a => a.take 2 = ['-', 'i'] || a = Text.bytesOf "--in-place"
  let suffix := (call.arguments.filter fun a => a.take 2 = ['-', 'i']).map (·.drop 2) |>.headD []
  let arguments := call.arguments.filter fun a =>
    !(a.take 2 = ['-', 'i'] || a = Text.bytesOf "--in-place")
  let grammar : Grammar :=
    { flags := "nErsuz", valued := "efl"
      long := [("quiet", 'n'), ("silent", 'n'), ("regexp-extended", 'E'), ("expression", 'e'),
        ("file", 'f'), ("separate", 's')] }
  { call with arguments }.parsed grammar 1 fun words =>
    let scripts := words.values 'e' ++ (words.values 'f').map fun path =>
      (call.contents path).toOption.getD []
    let given := words.has 'e' || words.has 'f'
    let (text, operands) :=
      if given then (['\n'].intercalate scripts, words.operands)
      else (words.operands.headD [], words.operands.tail)
    let extended := words.has 'E' || words.has 'r'
    if !given && words.operands.isEmpty then
      let synopsis := " [OPTION]... \x7bscript-only-if-no-other-script\x7d [input-file]...\n"
      let usage := Text.bytesOf "Usage: " ++ call.name ++ Text.bytesOf synopsis
      (call.done.printError usage).withStatus 1
    else
      match Edit.readScript extended (text.length + 1) text with
      | none => call.failing "-e expression #1, char 1: unknown command" 1
      | some script =>
          let wording (operand : List Char) (reason : String) : String :=
            "can't read " ++ Text.shown operand ++ ": " ++ reason
          if inPlace then
            operands.foldl
              (fun effect operand =>
                match effect.files.readBytes (Text.shown operand) with
                | .error fault => call.complain effect (wording operand fault.reason) 2
                | .ok bytes =>
                    let lines := Edit.linesOf (Text.ofBytes bytes)
                    let state := Edit.run (words.has 'n') script effect.files lines
                    let rest := (state.left.map Edit.State.shownLine).flatten
                    let kept : Except IoFault FileSystem :=
                      if suffix.isEmpty then .ok state.files
                      else state.files.write (Text.shown (operand ++ suffix)) bytes
                    let written := kept.bind fun files =>
                      files.write (Text.shown operand) (Text.toBytes (state.output ++ rest))
                    match written with
                    | .ok files => { effect with files }
                    | .error fault => call.complain effect (wording operand fault.reason) 4)
              call.done
          else
            let (found, effect) := call.readAll operands wording 2
            let text := (found.map Prod.snd).flatten
            let lines := Edit.linesOf text
            let state := Edit.run (words.has 'n') script effect.files lines
            let effect := { effect.print state.output with files := state.files }
            if state.status = 0 then effect else effect.withStatus state.status

end Program
end SkillAudit
