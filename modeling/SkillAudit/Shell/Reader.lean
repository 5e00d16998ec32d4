import SkillAudit.Shell.Word

/-!
# Reading shell commands

A script is read line by line, so that what stands before a mistake is run.  Every reader takes the
text that is left and gives back what is left after it; commands may stand inside words, so words
and commands are read together.  The bound on the number of steps is never reached when it is
computed from the length of the text.
-/

namespace SkillAudit
namespace Shell

/-- What is wrong with a script. -/
inductive Mistake where
  | unexpected (found : String) (expected : Option String)
  | openQuote
  | openBackquote
  | missingBrace
  | missingParentheses
  | badLoopName
  | badFunctionName
  deriving DecidableEq, Repr

/-- How a mistake is told. -/
def Mistake.reason : Mistake → String
  | .unexpected found none => found ++ " unexpected"
  | .unexpected found (some "word") => found ++ " unexpected (expecting word)"
  | .unexpected found (some expected) =>
      found ++ " unexpected (expecting \"" ++ expected ++ "\")"
  | .openQuote => "Unterminated quoted string"
  | .openBackquote => "EOF in backquote substitution"
  | .missingBrace => "Missing '\x7d'"
  | .missingParentheses => "Missing '))'"
  | .badLoopName => "Bad for loop variable"
  | .badFunctionName => "Bad function name"

/-- A mistake with the number of lines that were left when it was found. -/
structure Refusal where
  mistake : Mistake
  linesLeft : Nat

/-- What comes of reading a text. -/
abbrev Reading := Except Refusal

/-- A mistake before a text. -/
def refuse {α : Type} (mistake : Mistake) (text : List Char) : Reading α :=
  .error ⟨mistake, lineBreaks text⟩

/-- Whether a redirection starts here. -/
def startsRedirection (text : List Char) : Bool :=
  match text with
  | '<' :: _ | '>' :: _ => true
  | c :: '<' :: _ | c :: '>' :: _ => c.isDigit
  | _ => false

/-- What stands next in a text, as it is spoken of, and what follows it. -/
def spokenOf (keywords : Bool) (text : List Char) : String × List Char :=
  let text := skipBlanks text
  match text with
  | [] => ("end of file", [])
  | '\n' :: rest => ("newline", rest)
  | '&' :: '&' :: _ => ("\"&&\"", text)
  | '|' :: '|' :: _ => ("\"||\"", text)
  | ';' :: ';' :: _ => ("\";;\"", text)
  | c :: _ =>
      if startsRedirection text then ("redirection", text)
      else if endsWord c then ("\"" ++ c.toString ++ "\"", text)
      else
        match if keywords then reserved? text else none with
        | some (word, _) => ("\"" ++ word ++ "\"", text)
        | none => ("word", text)

/-- What stands next is not what may stand there. -/
def unexpected {α : Type} (keywords : Bool) (expected : Option String) (text : List Char) :
    Reading α :=
  let (found, rest) := spokenOf keywords text
  refuse (.unexpected found expected) rest

/-- Drop a reserved word that has to come next. -/
def expectWord (word : String) (text : List Char) : Reading (List Char) :=
  let text := skipLines text
  match reserved? text with
  | some (found, rest) => if found = word then .ok rest else unexpected true word text
  | none => unexpected true word text

/-- Whether a list of commands ends here. -/
def endsList (text : List Char) : Bool :=
  match text with
  | [] | ')' :: _ | ';' :: ';' :: _ => true
  | _ =>
      match reserved? text with
      | some (word, _) =>
          ["then", "elif", "else", "fi", "do", "done", "esac", "\x7d"].contains word
      | none => false

/-- The name of a function that is defined here, and the text of its body. -/
def definition? (text : List Char) : Reading (Option (String × List Char)) :=
  let name := text.takeWhile fun c => !endsWord c
  match skipBlanks (text.drop name.length) with
  | '(' :: rest =>
      if name.isEmpty || name.any "$`\"'\\".toList.contains || (assignment? text).isSome then
        .ok none
      else
        match skipBlanks rest with
        | ')' :: body =>
            if isName name then .ok (some (String.ofList name, body))
            else refuse .badFunctionName body
        | rest => unexpected false (some ")") rest
  | _ => .ok none

/-- Where the pieces of a word end. -/
inductive Ending where
  /-- Before what ends a word. -/
  | word
  /-- After a double quote. -/
  | quote
  /-- After a closing brace. -/
  | brace (quoted : Bool)
  /-- After two closing brackets; so many single ones are open. -/
  | brackets (depth : Nat)
  /-- At the end of the text. -/
  | text

namespace Ending

/-- Whether what is read is quoted. -/
def quotes : Ending → Bool
  | .word | .brace false => false
  | _ => true

/-- Whether a character means nothing but itself. -/
def isPlain (ending : Ending) (c : Char) : Bool :=
  c != '\\' && c != '$' && c != '`' &&
    match ending with
    | .word => c != '\'' && c != '"' && !endsWord c
    | .quote => c != '"'
    | .brace quoted => c != '"' && c != '\x7d' && (quoted || c != '\'')
    | .brackets _ => c != '(' && c != ')'
    | .text => true

/-- Whether a backslash takes the meaning from a character. -/
def escapes (ending : Ending) (c : Char) : Bool :=
  !ending.quotes || c = '$' || c = '`' || c = '\\' ||
    match ending with
    | .quote => c = '"'
    | .brace _ => c = '"' || c = '\x7d'
    | _ => false

/-- The mistake of a text that has no such ending. -/
def missing : Ending → Option Mistake
  | .word | .text => none
  | .quote => some .openQuote
  | .brace quoted => some (if quoted then .openQuote else .missingBrace)
  | .brackets _ => some .missingParentheses

end Ending

/-- The parameter at the start of a text between braces. -/
def parameterName (text : List Char) : List Char :=
  match text with
  | c :: _ =>
      if startsName c then text.takeWhile isNameChar
      else if c.isDigit then text.takeWhile Char.isDigit
      else if isSpecialParameter c then [c]
      else []
  | [] => []

/-- The parts of a simple command. -/
structure Simple where
  /-- The text after the first of the parts. -/
  start : List Char
  assignments : List (String × Word) := []
  words : List Word := []
  redirections : List Redirection := []

namespace Simple

/-- Whether there are no parts. -/
def isEmpty (simple : Simple) : Bool :=
  simple.assignments.isEmpty && simple.words.isEmpty && simple.redirections.isEmpty

/-- The command of these parts in a script of so many lines; it counts as a command of the line on
which its first part ends. -/
def command (simple : Simple) (lines : Nat) : Command :=
  .simple (lines - lineBreaks simple.start) simple.assignments simple.words simple.redirections

end Simple

/-- The subshell that is all of a command, without its redirections: those that follow a group of
nothing else take their place. -/
def Command.subshell? : Command → Option Command
  | .sequence [command] => command.subshell?
  | .redirected _ body _ => body.subshell?
  | .subshell line body => some (.subshell line body)
  | _ => none

mutual

/-- The pieces of a word up to its ending. -/
def readPieces : (fuel : Nat) → (lines : Nat) → Ending → List Char → Reading (Word × List Char)
  | 0, _, _, text => unexpected false none text
  | _, _, ending, [] =>
      match ending.missing with
      | none => .ok ([], [])
      | some mistake => refuse mistake []
  | fuel + 1, lines, ending, c :: rest =>
      let keep (pieces : Word) (after : List Char) : Reading (Word × List Char) := do
        let (more, left) ← readPieces fuel lines ending after
        return (pieces ++ more, left)
      let plain := (c :: rest).takeWhile ending.isPlain
      if !plain.isEmpty then
        keep [.literal ending.quotes plain] ((c :: rest).drop plain.length)
      else
        match c with
        | '\\' =>
            match rest with
            | '\n' :: more => keep [] more
            | d :: more =>
                keep [.literal true (if ending.escapes d then [d] else ['\\', d])] more
            | [] => keep [.literal ending.quotes ['\\']] []
        | '$' => do
            let (piece, after) ← readDollar fuel lines ending.quotes rest
            keep [piece] after
        | '`' => do
            match cutBackquoted rest with
            | none => refuse .openBackquote []
            | some (inside, after) =>
                let script := unprotect ending.quotes inside
                let (body, left) ← readList fuel (lineBreaks script + 1) true script
                if left.isEmpty then keep [.printed ending.quotes body] after
                else unexpected true none left
        | '\'' =>
            let inside := rest.takeWhile (· != '\'')
            match rest.drop inside.length with
            | _ :: after => keep [.literal true inside] after
            | [] => refuse .openQuote []
        | '"' =>
            match ending with
            | .quote => .ok ([], rest)
            | _ => do
                let (pieces, after) ← readPieces fuel lines .quote rest
                keep (if pieces.isEmpty then [.literal true []] else pieces) after
        | _ =>
            match ending with
            | .brace _ => .ok ([], rest)
            | .brackets depth =>
                let inside (depth : Nat) : Reading (Word × List Char) := do
                  let (more, left) ← readPieces fuel lines (.brackets depth) rest
                  return (.literal true [c] :: more, left)
                if c = '(' then
                  inside (depth + 1)
                else
                  match depth with
                  | depth + 1 => inside depth
                  | 0 =>
                      match rest with
                      | ')' :: after => .ok ([], after)
                      | _ => inside 0
            | _ => .ok ([], c :: rest)

/-- The piece after a dollar sign. -/
def readDollar :
    (fuel : Nat) → (lines : Nat) → (quoted : Bool) → List Char → Reading (Piece × List Char)
  | 0, _, _, text => unexpected false none text
  | fuel + 1, lines, quoted, text =>
      match text with
      | '(' :: '(' :: rest => do
          let (expression, after) ← readPieces fuel lines (.brackets 0) rest
          return (.arithmetic quoted expression, after)
      | '(' :: rest => do
          let (body, after) ← readList fuel lines true rest
          match skipLines after with
          | ')' :: after => return (.printed quoted body, after)
          | after => unexpected true (some ")") after
      | '\x7b' :: rest => readBraces fuel lines quoted rest
      | c :: rest =>
          if startsName c then
            let name := text.takeWhile isNameChar
            .ok (.value quoted (String.ofList name), text.drop name.length)
          else if isSpecialParameter c then
            .ok (.value quoted c.toString, rest)
          else
            .ok (.literal quoted ['$'], text)
      | [] => .ok (.literal quoted ['$'], [])

/-- The piece after a dollar sign and a brace. -/
def readBraces :
    (fuel : Nat) → (lines : Nat) → (quoted : Bool) → List Char → Reading (Piece × List Char)
  | 0, _, _, text => unexpected false none text
  | fuel + 1, lines, quoted, text =>
      let size? : Option (String × List Char) :=
        match text with
        | '#' :: rest =>
            let name := parameterName rest
            match rest.drop name.length with
            | '\x7d' :: after =>
                if name.isEmpty then none else some (String.ofList name, after)
            | _ => none
        | _ => none
      let name := parameterName text
      let shown := String.ofList name
      let with_ (unquoted : Bool) (piece : Word → Piece) (rest : List Char) :
          Reading (Piece × List Char) := do
        let (word, after) ← readPieces fuel lines (.brace (quoted && !unquoted)) rest
        return (piece word, after)
      match size? with
      | some (name, after) => .ok (.size name, after)
      | none =>
          if name.isEmpty then
            with_ false (fun _ => .unfit) (if text.headD '\x7d' = '\x7d' then text else text.tail)
          else
            match text.drop name.length with
            | '\x7d' :: after => .ok (.value quoted shown, after)
            | ':' :: '-' :: rest => with_ false (.fallback quoted true false shown) rest
            | '-' :: rest => with_ false (.fallback quoted false false shown) rest
            | ':' :: '=' :: rest => with_ false (.fallback quoted true true shown) rest
            | '=' :: rest => with_ false (.fallback quoted false true shown) rest
            | ':' :: '+' :: rest => with_ false (.replacement quoted true shown) rest
            | '+' :: rest => with_ false (.replacement quoted false shown) rest
            | ':' :: '?' :: rest => with_ false (.demand quoted true shown) rest
            | '?' :: rest => with_ false (.demand quoted false shown) rest
            | '%' :: '%' :: rest => with_ true (.trimmed quoted true true shown) rest
            | '%' :: rest => with_ true (.trimmed quoted true false shown) rest
            | '#' :: '#' :: rest => with_ true (.trimmed quoted false true shown) rest
            | '#' :: rest => with_ true (.trimmed quoted false false shown) rest
            | ':' :: rest => with_ false (fun _ => .unfit) rest.tail
            | rest => with_ false (fun _ => .unfit) rest.tail

/-- The word at the start of a text, which may be empty. -/
def readWord : (fuel : Nat) → (lines : Nat) → List Char → Reading (Word × List Char)
  | 0, _, text => unexpected false none text
  | fuel + 1, lines, text =>
      match text with
      | '~' :: rest =>
          let next := rest.headD '/'
          if next = '/' || endsWord next then do
            let (pieces, after) ← readPieces fuel lines .word rest
            return (.home :: pieces, after)
          else
            readPieces fuel lines .word text
      | _ => readPieces fuel lines .word text

/-- The redirection at the start of a text. -/
def readRedirection : (fuel : Nat) → (lines : Nat) → List Char → Reading (Redirection × List Char)
  | 0, _, text => unexpected false none text
  | fuel + 1, lines, text =>
      let digits := text.takeWhile Char.isDigit
      let number := digits.foldl (fun n c => n * 10 + (c.toNat - '0'.toNat)) 0
      let output := if digits.isEmpty then 1 else number
      let input := if digits.isEmpty then 0 else number
      let target (redirection : Word → Redirection) (rest : List Char) :
          Reading (Redirection × List Char) := do
        let rest := skipBlanks rest
        let (word, after) ← readWord fuel lines rest
        if after.length = rest.length then unexpected false none rest
        else return (redirection word, after)
      let given (dropTabs : Bool) (rest : List Char) : Reading (Redirection × List Char) := do
        let rest := skipBlanks rest
        let (word, after) := cutRawWord rest
        if word.isEmpty then
          unexpected false none rest
        else
          let ending := bareText word
          let (body, left) := takeLines ending dropTabs after
          if ending = word then
            let below := (after.dropWhile (· != '\n')).tail.dropWhile (· = takenLine)
            let linesThere := lines - lineBreaks below + lineBreaks body
            let (content, _) ← readPieces fuel linesThere .text body
            return (.content input content, left)
          else
            return (.content input [.literal true body], left)
      match text.drop digits.length with
      | '>' :: '&' :: rest => target (.duplicate output) rest
      | '>' :: '>' :: rest => target (.writeTo output true true) rest
      | '>' :: '|' :: rest => target (.writeTo output false true) rest
      | '>' :: rest => target (.writeTo output false false) rest
      | '<' :: '<' :: '-' :: rest => given true rest
      | '<' :: '<' :: rest => given false rest
      | '<' :: '&' :: rest => target (.duplicate input) rest
      | '<' :: '>' :: rest => target (.readAndWrite input) rest
      | _ => target (.readFrom input) (text.drop (digits.length + 1))

/-- The redirections after a command. -/
def readRedirections :
    (fuel : Nat) → (lines : Nat) → List Char → Reading (List Redirection × List Char)
  | 0, _, text => unexpected false none text
  | fuel + 1, lines, text =>
      let text := skipBlanks text
      if startsRedirection text then do
        let (redirection, rest) ← readRedirection fuel lines text
        let (more, after) ← readRedirections fuel lines rest
        return (redirection :: more, after)
      else
        .ok ([], text)

/-- The words of a line up to its end. -/
def readWords : (fuel : Nat) → (lines : Nat) → List Char → Reading (List Word × List Char)
  | 0, _, text => unexpected false none text
  | fuel + 1, lines, text =>
      let text := skipBlanks text
      if text.isEmpty || endsWord (text.headD ' ') then
        .ok ([], text)
      else do
        let (word, rest) ← readWord fuel lines text
        let (words, after) ← readWords fuel lines rest
        return (word :: words, after)

/-- The words, assignments and redirections of a simple command. -/
def readSimple :
    (fuel : Nat) → (lines : Nat) → (started : Bool) → List Char → Reading (Simple × List Char)
  | 0, _, _, text => unexpected false none text
  | fuel + 1, lines, started, text =>
      let text := skipBlanks text
      if startsRedirection text then do
        let (redirection, rest) ← readRedirection fuel lines text
        let (more, after) ← readSimple fuel lines started rest
        let redirections := redirection :: more.redirections
        return ({ more with start := text, redirections }, after)
      else if text.isEmpty || endsWord (text.headD ' ') then
        .ok ({ start := text }, text)
      else
        match if started then none else assignment? text with
        | some (name, value) => do
            let (word, rest) ← readWord fuel lines value
            let (more, after) ← readSimple fuel lines false rest
            let assignments := (name, word) :: more.assignments
            return ({ more with start := rest, assignments }, after)
        | none => do
            let (word, rest) ← readWord fuel lines text
            let (more, after) ← readSimple fuel lines true rest
            return ({ more with start := rest, words := word :: more.words }, after)

/-- A list of commands up to what ends it. -/
def readList :
    (fuel : Nat) → (lines : Nat) → (mayBeEmpty : Bool) → List Char → Reading (Command × List Char)
  | 0, _, _, text => unexpected false none text
  | fuel + 1, lines, mayBeEmpty, text => do
      let (commands, rest) ← readCommands fuel lines mayBeEmpty text
      return (.sequence commands, rest)

/-- The commands of a list. -/
def readCommands :
    (fuel : Nat) → (lines : Nat) → (mayBeEmpty : Bool) → List Char →
      Reading (List Command × List Char)
  | 0, _, _, text => unexpected false none text
  | fuel + 1, lines, mayBeEmpty, text =>
      let text := skipLines text
      if text.isEmpty || (mayBeEmpty && endsList text) then
        .ok ([], text)
      else do
        let (command, rest) ← readAndOr fuel lines text
        let more (command : Command) (rest : List Char) : Reading (List Command × List Char) := do
          let (commands, after) ← readCommands fuel lines true rest
          return (command :: commands, after)
        match skipBlanks rest with
        | ';' :: ';' :: rest => return ([command], ';' :: ';' :: rest)
        | '&' :: rest => more (.background command) rest
        | ';' :: rest | '\n' :: rest => more command rest
        | after => return ([command], after)

/-- Pipelines joined by their success or failure. -/
def readAndOr : (fuel : Nat) → (lines : Nat) → List Char → Reading (Command × List Char)
  | 0, _, text => unexpected false none text
  | fuel + 1, lines, text => do
      let (first, rest) ← readPipeline fuel lines text
      readAndOrRest fuel lines first rest

/-- What follows the first pipeline. -/
def readAndOrRest :
    (fuel : Nat) → (lines : Nat) → Command → List Char → Reading (Command × List Char)
  | 0, _, _, text => unexpected false none text
  | fuel + 1, lines, first, text =>
      match skipBlanks text with
      | '&' :: '&' :: rest => do
          let (second, after) ← readPipeline fuel lines (skipLines rest)
          readAndOrRest fuel lines (.andThen first second) after
      | '|' :: '|' :: rest => do
          let (second, after) ← readPipeline fuel lines (skipLines rest)
          readAndOrRest fuel lines (.orElse first second) after
      | after => .ok (first, after)

/-- Commands of which each reads what the one before it prints. -/
def readPipeline : (fuel : Nat) → (lines : Nat) → List Char → Reading (Command × List Char)
  | 0, _, text => unexpected false none text
  | fuel + 1, lines, text => do
      let text := skipBlanks text
      let (negated, text) :=
        match reserved? text with
        | some ("!", rest) => (true, rest)
        | _ => (false, text)
      let (commands, rest) ← readStages fuel lines text
      let command :=
        match commands with
        | [command] => command
        | _ => .pipeline commands
      return (if negated then .negation command else command, rest)

/-- The commands of a pipeline. -/
def readStages : (fuel : Nat) → (lines : Nat) → List Char → Reading (List Command × List Char)
  | 0, _, text => unexpected false none text
  | fuel + 1, lines, text => do
      let (command, rest) ← readCommand fuel lines (skipBlanks text)
      match skipBlanks rest with
      | '|' :: '|' :: more => return ([command], '|' :: '|' :: more)
      | '|' :: more =>
          let (commands, after) ← readStages fuel lines (skipLines more)
          return (command :: commands, after)
      | after => return ([command], after)

/-- One command with its redirections. -/
def readCommand : (fuel : Nat) → (lines : Nat) → List Char → Reading (Command × List Char)
  | 0, _, text => unexpected false none text
  | fuel + 1, lines, text => do
      match ← readCompound fuel lines text with
      | some (command, rest) =>
          let (redirections, after) ← readRedirections fuel lines rest
          if redirections.isEmpty then
            return (command, after)
          else
            let body := command.subshell?.getD command
            return (.redirected (lines - lineBreaks text) body redirections, after)
      | none =>
          match ← definition? text with
          | some (name, body) =>
              let (command, rest) ← readCommand fuel lines (skipLines body)
              return (.define name command, rest)
          | none =>
              let (simple, after) ← readSimple fuel lines false text
              if simple.isEmpty then unexpected true none text
              else return (simple.command lines, after)

/-- A command of several parts, if one starts here. -/
def readCompound :
    (fuel : Nat) → (lines : Nat) → List Char → Reading (Option (Command × List Char))
  | 0, _, text => unexpected false none text
  | fuel + 1, lines, text =>
      let line := lines - lineBreaks text
      match text with
      | '(' :: rest => do
          let (body, after) ← readList fuel lines false rest
          match skipLines after with
          | ')' :: after => return some (.subshell line body, after)
          | after => unexpected true (some ")") after
      | _ =>
          match reserved? text with
          | some ("\x7b", rest) => do
              let (body, after) ← readList fuel lines false rest
              return some (body, ← expectWord "\x7d" after)
          | some ("if", rest) => do
              let ((arms, otherwise), after) ← readArms fuel lines rest
              return some (.branch arms otherwise, after)
          | some ("while", rest) => do
              let (condition, after) ← readList fuel lines false rest
              let (body, after) ← readList fuel lines false (← expectWord "do" after)
              return some (.loop true condition body, ← expectWord "done" after)
          | some ("until", rest) => do
              let (condition, after) ← readList fuel lines false rest
              let (body, after) ← readList fuel lines false (← expectWord "do" after)
              return some (.loop false condition body, ← expectWord "done" after)
          | some ("for", rest) => do
              let text := skipBlanks rest
              let word := text.takeWhile fun c => !endsWord c
              if !isName word then
                refuse .badLoopName (if text.headD ' ' = '\n' then text.tail else text)
              else
                let rest := text.drop word.length
                let (words, rest) ←
                  match reserved? (skipLines rest) with
                  | some ("in", rest) => do
                      let (words, after) ← readWords fuel lines rest
                      match after with
                      | ';' :: ';' :: _ => unexpected false none after
                      | ';' :: after | '\n' :: after => pure (some words, after)
                      | _ => unexpected false none after
                  | _ =>
                      match skipBlanks rest with
                      | ';' :: after => pure (none, after)
                      | after => pure (none, after)
                let (body, after) ← readList fuel lines false (← expectWord "do" rest)
                return some (.each line (String.ofList word) words body, ← expectWord "done" after)
          | some ("case", rest) => do
              let text := skipBlanks rest
              let (subject, rest) ← readWord fuel lines text
              if rest.length = text.length then
                unexpected false "word" text
              else
                let (arms, after) ← readCases fuel lines (← expectWord "in" rest)
                return some (.select line subject arms, after)
          | some _ => unexpected true none text
          | none => return none

/-- The arms of a choice after its first word, up to its end. -/
def readArms :
    (fuel : Nat) → (lines : Nat) → List Char →
      Reading ((List (Command × Command) × Option Command) × List Char)
  | 0, _, text => unexpected false none text
  | fuel + 1, lines, text => do
      let (condition, rest) ← readList fuel lines false text
      let (body, rest) ← readList fuel lines false (← expectWord "then" rest)
      match reserved? (skipLines rest) with
      | some ("else", rest) =>
          let (otherwise, rest) ← readList fuel lines false rest
          return (([(condition, body)], some otherwise), ← expectWord "fi" rest)
      | some ("elif", rest) =>
          let ((arms, otherwise), after) ← readArms fuel lines rest
          return (((condition, body) :: arms, otherwise), after)
      | _ => return (([(condition, body)], none), ← expectWord "fi" rest)

/-- The arms of a selection, up to its end. -/
def readCases :
    (fuel : Nat) → (lines : Nat) → List Char → Reading (List (List Word × Command) × List Char)
  | 0, _, text => unexpected false none text
  | fuel + 1, lines, text => do
      let text := skipLines text
      match reserved? text with
      | some ("esac", after) => return ([], after)
      | _ =>
          let text :=
            match text with
            | '(' :: rest => rest
            | _ => text
          let (patterns, rest) ← readPatterns fuel lines text
          let (body, rest) ← readList fuel lines true rest
          match skipLines rest with
          | ';' :: ';' :: rest =>
              let (arms, after) ← readCases fuel lines rest
              return ((patterns, body) :: arms, after)
          | rest =>
              match reserved? rest with
              | some ("esac", after) => return ([(patterns, body)], after)
              | _ => unexpected true (some ";;") rest

/-- The patterns of an arm up to its closing bracket. -/
def readPatterns : (fuel : Nat) → (lines : Nat) → List Char → Reading (List Word × List Char)
  | 0, _, text => unexpected false none text
  | fuel + 1, lines, text => do
      let (word, rest) ← readWord fuel lines (skipBlanks text)
      match skipBlanks rest with
      | '|' :: more =>
          let (words, after) ← readPatterns fuel lines more
          return (word :: words, after)
      | ')' :: after => return ([word], after)
      | after => unexpected false (some ")") after

end

/-- The bound on the steps that reading a text takes. -/
def stepsFor (text : List Char) : Nat :=
  30 * text.length + 100

/-- The commands up to the end of a line. -/
def readLineCommands (lines : Nat) : (fuel : Nat) → List Char → Reading (List Command × List Char)
  | 0, text => unexpected false none text
  | fuel + 1, text => do
      let (command, rest) ← readAndOr (stepsFor text) lines text
      let more (command : Command) (rest : List Char) : Reading (List Command × List Char) := do
        match skipBlanks rest with
        | [] => return ([command], [])
        | '\n' :: rest => return ([command], rest)
        | rest =>
            let (commands, after) ← readLineCommands lines fuel rest
            return (command :: commands, after)
      match skipBlanks rest with
      | ';' :: ';' :: _ => unexpected true none rest
      | '&' :: rest => more (.background command) rest
      | ';' :: rest => more command rest
      | [] => return ([command], [])
      | '\n' :: rest => return ([command], rest)
      | rest => unexpected true none rest

/-- The commands of the next line that holds any, or nothing at the end of the script. -/
def readLine (lines : Nat) (text : List Char) :
    Reading (Option (List Command × List Char)) :=
  match skipLines text with
  | [] => .ok none
  | text => (readLineCommands lines (text.length + 1) text).map some

end Shell
end SkillAudit
