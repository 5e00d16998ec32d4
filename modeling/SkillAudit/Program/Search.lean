import SkillAudit.Program.Lines

/-!
# Searching lines

The program that shows the lines in which an expression matches, with the ways in which it can be
asked to tell so.
-/

namespace SkillAudit
namespace Program

mutual

/-- The entries at and below a node, each with its path, in the order of their names. -/
def entriesFrom (path : String) : Node → List (String × Node)
  | .directory entries => (path, .directory entries) :: entriesBelow path entries
  | node => [(path, node)]

/-- The entries of a directory and below them. -/
def entriesBelow (path : String) : List (String × Node) → List (String × Node)
  | [] => []
  | (name, node) :: rest => entriesFrom (Path.join path name) node ++ entriesBelow path rest

end

/-- The regular files at and below a path. -/
def filesBelow (files : FileSystem) (path : String) : List String :=
  match files.node path with
  | .ok node =>
      (entriesFrom path node).filterMap fun (path, node) =>
        match node with
        | .file _ => some path
        | _ => none
  | .error _ => [path]

/-- What is searched for: expressions, and how they have to lie in a line. -/
structure Wanted where
  regexes : List Text.Regex
  ignoresCase : Bool
  whole : Bool
  negated : Bool

/-- Whether a line is one of those searched for. -/
def Wanted.accepts (wanted : Wanted) (line : List Char) : Bool :=
  let found := wanted.regexes.any fun regex =>
    if wanted.whole then regex.matchesLine wanted.ignoresCase line
    else regex.occursIn wanted.ignoresCase line
  found != wanted.negated

/-- The parts of a line that match, from left to right. -/
def Wanted.partsFrom (wanted : Wanted) (backwards : List Char) :
    (fuel : Nat) → List Char → List (List Char)
  | 0, _ => []
  | fuel + 1, rest =>
      let found := wanted.regexes.filterMap fun regex =>
        regex.findFrom wanted.ignoresCase backwards rest
      let better (a b : Text.Regex.Match) : Bool :=
        a.before.length < b.before.length ||
          (a.before.length = b.before.length && b.text.length ≤ a.text.length)
      match found.foldl (fun best m => if best.any (better · m) then best else some m) none with
      | none => []
      | some m =>
          if m.text.isEmpty then
            match m.after with
            | [] => []
            | c :: after => wanted.partsFrom (c :: m.before.reverse) fuel after
          else
            m.text :: wanted.partsFrom (m.text.reverse ++ m.before.reverse) fuel m.after

/-- What is shown of one file. -/
structure Findings where
  count : Nat := 0
  shown : List Char := []

/-- Search the lines of one file; `label` stands before each line that is shown. -/
def searchLines
    (wanted : Wanted)
    (words : Words)
    (most : Option Nat)
    (label : List Char)
    (lines : List (List Char)) :
    Findings :=
  lines.zipIdx.foldl
    (fun findings (line, index) =>
      if most.any (· ≤ findings.count) || !wanted.accepts line then
        findings
      else
        let number := if words.has 'n' then (toString (index + 1)).toList ++ [':'] else []
        let front := label ++ number
        let parts :=
          if words.has 'o' then
            if wanted.negated then [] else wanted.partsFrom [] (line.length + 1) line
          else [line]
        { count := findings.count + 1
          shown := findings.shown ++ (parts.map fun part => front ++ part ++ ['\n']).flatten })
    {}

/-- How the program that searches is called. -/
def searchGrammar : Grammar where
  flags := "EFGPivcnlLoqswxHhrRzaUI"
  valued := "emfdDABCK"
  long := [("quiet", 'q'), ("silent", 'q'), ("ignore-case", 'i'), ("invert-match", 'v'),
    ("count", 'c'), ("line-number", 'n'), ("files-with-matches", 'l'),
    ("files-without-match", 'L'), ("only-matching", 'o'), ("word-regexp", 'w'),
    ("line-regexp", 'x'), ("fixed-strings", 'F'), ("extended-regexp", 'E'),
    ("basic-regexp", 'G'), ("perl-regexp", 'P'), ("regexp", 'e'), ("max-count", 'm'),
    ("no-messages", 's'), ("with-filename", 'H'), ("no-filename", 'h'), ("recursive", 'r'),
    ("text", 'a'), ("file", 'f'), ("color", 'K'), ("colour", 'K')]

/-- The expressions of a call and the operands that are files. -/
def patternsOf (call : Call) (words : Words) : Option (List (List Char) × List (List Char)) :=
  let given := words.values 'e' ++
    (words.values 'f').flatMap fun path =>
      match call.contents path with
      | .ok text => [ofLines (linesOf text) |>.dropLast]
      | .error _ => []
  if words.has 'e' || words.has 'f' then
    some (given.flatMap (Text.splitOn '\n'), words.operands)
  else
    match words.operands with
    | [] => none
    | first :: rest => some (Text.splitOn '\n' first, rest)

/-- Show the lines in which an expression matches. -/
def Call.search (call : Call) : Effect :=
  call.parsed searchGrammar 2 fun words =>
    match patternsOf call words with
    | none =>
        ((call.done.withStatus 2).printError <|
          Text.bytesOf "Usage: " ++ call.name ++
            Text.bytesOf " [OPTION]... PATTERNS [FILE]...\n").printError <|
              Text.bytesOf ("Try '" ++ Text.shown call.name ++
                " --help' for more information.\n")
    | some (patterns, operands) =>
        let fixed := words.has 'F' || call.name = Text.bytesOf "fgrep"
        let extended := words.has 'E' || words.has 'P' || call.name = Text.bytesOf "egrep"
        let made := patterns.mapM fun pattern =>
          if fixed then some (Text.Regex.verbatim pattern)
          else Text.Regex.ofText? extended pattern
        match made with
        | none => call.failing "Invalid regular expression" 2
        | some regexes =>
            let regexes :=
              if words.has 'w' then
                regexes.map fun r => .sequence [.apart true, r, .apart false]
              else regexes
            let wanted : Wanted :=
              { regexes, ignoresCase := words.has 'i', whole := words.has 'x'
                negated := words.has 'v' }
            let deep := words.has 'r' || words.has 'R'
            let operands :=
              if deep then
                (if operands.isEmpty then [['.']] else operands).flatMap fun path =>
                  (filesBelow call.files (Text.shown path)).map Text.bytesOf
              else operands
            let named := words.has 'H' || (!words.has 'h' && (deep || 1 < operands.length))
            let (found, effect) := call.readAll operands plainWording 2
            let effect :=
              if words.has 's' then { effect with printed := [] } else effect
            let nameOf (operand : List Char) : List Char :=
              if operand = ['-'] then Text.bytesOf "(standard input)" else operand
            let most := (words.value? 'm').bind natural?
            let results := found.map fun (operand, text) =>
              let label := if named then nameOf operand ++ [':'] else []
              (operand, searchLines wanted words most label (linesOf text))
            let shown := results.map fun (operand, findings) =>
              if words.has 'q' then []
              else if words.has 'l' then
                if 0 < findings.count then nameOf operand ++ ['\n'] else []
              else if words.has 'L' then
                if findings.count = 0 then nameOf operand ++ ['\n'] else []
              else if words.has 'c' then
                (if named then nameOf operand ++ [':'] else []) ++
                  (toString findings.count).toList ++ ['\n']
              else findings.shown
            let selected := results.any fun result => 0 < result.2.count
            let effect := effect.print shown.flatten
            if selected && (words.has 'q' || effect.status = 0) then effect.withStatus 0
            else if effect.status = 0 then effect.withStatus 1
            else effect

end Program
end SkillAudit
