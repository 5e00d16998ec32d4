import SkillAudit.Program.Effect
import SkillAudit.Program.Wrapper
import SkillAudit.Shell.Arithmetic
import SkillAudit.Shell.Builtin
import SkillAudit.Shell.Invocation
import SkillAudit.Shell.Reader
import SkillAudit.Shell.Redirection

/-!
# Running shell scripts

Words are expanded and commands are run one after another, each giving the session after it.  A
command is *tested* where its failure is looked at, and then does not end a script that ends on
failures.  A script is bounded by a number of steps; one that is not done by then counts as stopped
from outside.
-/

namespace SkillAudit
namespace Shell

namespace Session

/-- The session of a script that was not done in time. -/
def stopped (session : Session) : Session :=
  { session with flow := .killed 9 }

/-- The end of a script that ends on failures, after a command that failed and is not tested. -/
def checked (session : Session) (tested : Bool) : Session :=
  if session.runs && !tested && session.status != 0 && session.hasOption 'e' then
    { session with flow := .exited }
  else
    session

/-- Whether a round of a loop is followed by another one, and the session after it. -/
def afterRound (session : Session) : Bool × Session :=
  match session.flow with
  | .running => (true, session)
  | .skipping n =>
      if n ≤ 1 then (true, { session with flow := .running })
      else (false, { session with flow := .skipping (n - 1) })
  | .leaving n =>
      (false, { session with flow := if n ≤ 1 then .running else .leaving (n - 1) })
  | _ => (false, session)

/-- A parameter that has to be set where unset ones are mistakes. -/
def mustBeSet (session : Session) (name : String) : Bool :=
  session.hasOption 'u' && name != "@" && name != "*"

/-- The atoms of the value of a parameter. -/
def atomsOf (session : Session) (quoted : Bool) (name : String) (value : List Char) : List Atom :=
  let origin : Origin := if quoted then .quoted else .found
  if name = "@" || (name = "*" && !quoted) then Atom.ofArguments origin session.arguments
  else Atom.ofText origin value

/-- Set the names that an expression has set, the first one first. -/
def applyChanges (session : Session) (changes : Arithmetic.Changes) : Session :=
  changes.reverse.foldl
    (fun session (name, n) =>
      if session.runs then session.assign name (Text.Numeral.decimal n) else session)
    session

/-- The value of an arithmetic expression, and the session after it. -/
def calculate (session : Session) (text : List Char) : List Char × Session :=
  match Arithmetic.evaluate session.value [] (Arithmetic.ofText text) with
  | .ok (n, changes) => (Text.Numeral.decimal n, session.applyChanges changes)
  | .error fault => ([], session.fail (fault.reason text))

/-- Put back what variables were before a command. -/
def restore (session : Session) (saved : List (String × Option Binding)) : Session :=
  saved.foldl
    (fun session (name, old) =>
      match old with
      | some binding => session.bind name binding
      | none => session.unbind name)
    session

/-- The session after the effect of a program. -/
def takeEffect (session : Session) (effect : Program.Effect) : Session :=
  let session := session.withInputLeft 0 effect.input
  let files := { effect.files with workingDirectory := session.files.workingDirectory }
  let session := effect.printed.foldl
    (fun session (isError, text) => session.print (if isError then 2 else 1) text)
    (session.withFiles files)
  session.withStatus effect.status

/-- The call of a program in a session. -/
def callOf
    (session : Session)
    (environment : List (String × List Char))
    (started : Started) :
    Program.Call where
  name := started.name
  arguments := started.arguments
  files := session.files
  environment := environment
  input := session.input 0
  sized := session.readsFile 0

/-- Tell that a program was not started, which perhaps was to take the place of the shell. -/
def notStarted
    (session : Session)
    (replaces : Bool)
    (name : List Char)
    (fault : IoFault) :
    Session :=
  let shown := Text.shown name
  match fault with
  | .notFound | .notADirectory => (session.complain (shown ++ ": not found")).withStatus 127
  | _ =>
      let isSeen := replaces || name.contains '/' || fault = .notExecutable
      let status := if isSeen && fault != .tooManyLinks then 126 else 127
      (session.complain (shown ++ ": " ++ fault.reason)).withStatus status

/-- The session after signals that end it at once. -/
def struck (session : Session) : Session :=
  let strikes (pending : Nat × String) : Bool :=
    pending.1 = session.process && !Signal.harmless.contains pending.2 &&
      (pending.2 = "KILL" || (session.traps.lookup pending.2).isNone)
  match if session.isInner || !session.runs then none else session.pending.find? strikes with
  | some (_, signal) => { session with flow := .killed ((Signal.number? signal).getD 9) }
  | none => session

/-- The session after a process of its own ended. -/
def afterChild (session inside : Session) : Session :=
  let after := session.inherit inside
  match inside.flow with
  | .killed signal =>
      let told :=
        match Signal.description? signal with
        | some text => after.print 2 (Text.bytesOf (text ++ "\n"))
        | none => after
      told.withStatus (128 + signal)
  | _ => after

/-- Show a command before it is run, on what was standard error before its redirections. -/
def trace
    (session before : Session)
    (assignments : List String)
    (words : List (List Char)) :
    Session :=
  if session.hasOption 'x' then
    let settings := assignments.map fun name =>
      Text.bytesOf (name ++ "=") ++ session.value name
    let line := [' '].intercalate (settings ++ words)
    let shown := { session with wiring := before.wiring }.print 2
      (session.value "PS4" ++ line ++ ['\n'])
    { shown with wiring := session.wiring }
  else
    session

end Session

/-- Whether a word gives a value to a variable as it is written. -/
def setsVariable : Word → Bool
  | .literal false text :: _ => (assignment? text).isSome
  | _ => false

/-- Whether the words of a command set variables, so that they are not split. -/
def areSettings : List Word → Bool
  | [.literal false name] :: rest =>
      let name := String.ofList name
      settingNames.contains name ||
        (name = "command" &&
          match rest with
          | [.literal false other] :: _ => settingNames.contains (String.ofList other)
          | _ => false)
  | _ => false

/-- Whether a file that names no interpreter looks like a script: its first line has no control
characters, but for some. -/
def isScript (bytes : List UInt8) : Bool :=
  ((bytes.take 128).takeWhile (· != 10)).all fun byte =>
    (32 ≤ byte && byte != 127) || (9 ≤ byte && byte ≤ 15) || byte = 27

/-- The text of a script in a file. -/
def scriptOf (bytes : List UInt8) : List Char :=
  Text.ofBytes (bytes.filter (· != 0))

/-- The file that a script names to be read in its place. -/
def inclusionPath (session : Session) (name : List Char) : Except String String :=
  let shown := Text.shown name
  if name.contains '/' then
    .ok shown
  else
    match (Machine.candidates session.searchDirectories shown).find? session.files.isFile with
    | some path => .ok path
    | none => .error (shown ++ ": not found")

mutual

/-- The atoms of a word; with `found` what stands in it is split like a value. -/
def expand : (fuel : Nat) → (found : Bool) → Session → Word → List Atom × Session
  | 0, _, session, _ => ([], session.stopped)
  | _, _, session, [] => ([], session)
  | fuel + 1, found, session, piece :: rest =>
      let (first, session) := expandPiece fuel found session piece
      if session.runs then
        let (more, session) := expand fuel found session rest
        (first ++ more, session)
      else
        ([], session)

/-- The text of a word that is not split. -/
def expandText : (fuel : Nat) → Session → Word → List Char × Session
  | 0, session, _ => ([], session.stopped)
  | fuel + 1, session, word =>
      let (atoms, session) := expand fuel false session word
      (Atom.joined session.joiner atoms, session)

/-- The atoms of one piece. -/
def expandPiece : (fuel : Nat) → (found : Bool) → Session → Piece → List Atom × Session
  | 0, _, session, _ => ([], session.stopped)
  | fuel + 1, found, session, piece =>
      let unset (name : String) : List Atom × Session :=
        ([], session.fail (name ++ ": parameter not set"))
      let other (quoted : Bool) (word : Word) : List Atom × Session :=
        let (atoms, session) := expand fuel true session word
        (if quoted then .present :: atoms else atoms, session)
      let isUsable (orEmpty : Bool) (value : List Char) : Bool := !(orEmpty && value.isEmpty)
      match piece with
      | .literal quoted text =>
          let origin : Origin := if quoted then .quoted else if found then .found else .written
          (Atom.ofText origin text, session)
      | .home =>
          match session.bound? "HOME" with
          | some home => (Atom.ofText .quoted home, session)
          | none => (Atom.ofText .written ['~'], session)
      | .value quoted name =>
          match session.value? name with
          | some value => (session.atomsOf quoted name value, session)
          | none =>
              if session.mustBeSet name then unset name
              else (session.atomsOf quoted name [], session)
      | .size name =>
          match session.value? name with
          | some value => (Atom.ofText .found (Session.ofNat value.length), session)
          | none =>
              if session.mustBeSet name then unset name
              else (Atom.ofText .found ['0'], session)
      | .fallback quoted orEmpty assigns name word =>
          match (session.value? name).filter (isUsable orEmpty) with
          | some value => (session.atomsOf quoted name value, session)
          | none =>
              if !assigns then
                other quoted word
              else
                let (text, session) := expandText fuel session word
                if !session.runs then
                  ([], session)
                else if !isName name.toList then
                  ([], session.fail (name ++ ": bad variable name"))
                else
                  (session.atomsOf quoted name text, session.assign name text)
      | .replacement quoted orEmpty name word =>
          match (session.value? name).filter (isUsable orEmpty) with
          | some _ => other quoted word
          | none => (if quoted then [.present] else [], session)
      | .demand quoted orEmpty name message =>
          match (session.value? name).filter (isUsable orEmpty) with
          | some value => (session.atomsOf quoted name value, session)
          | none =>
              let (text, session) := expandText fuel session message
              let text :=
                if !message.isEmpty then Text.shown text
                else if orEmpty then "parameter not set or null"
                else "parameter not set"
              ([], if session.runs then session.fail (name ++ ": " ++ text) else session)
      | .trimmed quoted atEnd longest name pattern =>
          match session.value? name with
          | none =>
              if session.mustBeSet name then unset name
              else (session.atomsOf quoted "" [], session)
          | some value =>
              let (atoms, session) := expand fuel false session pattern
              let pattern := Atom.pattern session.joiner atoms
              (session.atomsOf quoted "" (pattern.trim atEnd longest value), session)
      | .arithmetic quoted expression =>
          let (text, session) := expandText fuel session expression
          if session.runs then
            let (digits, session) := session.calculate text
            (session.atomsOf quoted "" digits, session)
          else
            ([], session)
      | .printed quoted body =>
          let (text, session) := capture fuel session body
          (session.atomsOf quoted "" text, session)
      | .unfit => ([], session.fail "Bad substitution")

/-- What a command prints, without the line breaks at its end. -/
def capture : (fuel : Nat) → Session → Command → List Char × Session
  | 0, session, _ => ([], session.stopped)
  | fuel + 1, session, body =>
      let (inner, id) := session.inner.addChannel (.gathered [])
      let inside := finish fuel (run fuel false (inner.wire 1 id) body)
      let text := (inside.gatheredIn id).filter (· != '\x00')
      let text := (text.reverse.dropWhile (· = '\n')).reverse
      let outer := session.resume inside
      (text, { outer with status := session.status, printedStatus := inside.status }.struck)

/-- The fields of several words; with `settings` a word that sets a variable is one field. -/
def expandAll :
    (fuel : Nat) → (settings : Bool) → Session → List Word → List (List Char) × Session
  | 0, _, session, _ => ([], session.stopped)
  | _, _, session, [] => ([], session)
  | fuel + 1, settings, session, word :: rest =>
      let (atoms, session) := expand fuel false session word
      if !session.runs then
        ([], session)
      else
        let texts :=
          if settings && setsVariable word then
            [Atom.joined session.joiner atoms]
          else
            (fields session.separators atoms).flatMap fun field =>
              if session.hasOption 'f' then [field.text] else textsOf session.files field
        let (more, session) := expandAll fuel settings session rest
        (texts ++ more, session)

/-- Set variables to the values of words; with `exported` they are handed on to programs. -/
def assignAll :
    (fuel : Nat) → (exported : Bool) → Session → List (String × Word) → Session
  | 0, _, session, _ => session.stopped
  | _, _, session, [] => session
  | fuel + 1, exported, session, (name, word) :: rest =>
      let (text, session) := expandText fuel session word
      if !session.runs then
        session
      else
        let session := session.assign name text
        if !session.runs then
          session
        else
          let session :=
            match session.bindings.lookup name with
            | some binding =>
                if exported then session.bind name { binding with exported } else session
            | none => session
          assignAll fuel exported session rest

/-- Follow redirections from left to right; whether all of them were possible. -/
def redirect : (fuel : Nat) → Session → List Redirection → Bool × Session
  | 0, session, _ => (false, session.stopped)
  | _, session, [] => (true, session)
  | fuel + 1, session, redirection :: rest =>
      let word :=
        match redirection with
        | .duplicate _ word | .readFrom _ word | .writeTo _ _ _ word | .readAndWrite _ word
        | .content _ word => word
      let (text, session) := expandText fuel session word
      let opened (descriptor : Nat) (access : Access) : Except String Session :=
        (session.openFile descriptor access text).mapError (access.complaint text)
      let result :=
        match redirection with
        | .duplicate descriptor _ => session.duplicate descriptor text
        | .readFrom descriptor _ => opened descriptor .reads
        | .writeTo descriptor appends clobbers _ => opened descriptor (.writes appends clobbers)
        | .readAndWrite descriptor _ => opened descriptor .both
        | .content descriptor _ => .ok (session.wireTo descriptor (.source text false))
      let isMeaningless :=
        match redirection with
        | .duplicate _ _ => !Session.namesDescriptor text
        | _ => false
      if !session.runs then
        (false, session)
      else if isMeaningless then
        (false, session.failReading "Bad fd number")
      else
        match result with
        | .ok session => redirect fuel session rest
        | .error text =>
            let silenced :=
              match redirection with
              | .duplicate 2 _ => session.unwire 2
              | _ => session
            let told := silenced.complain text
            (false, { told with wiring := session.wiring }.withStatus 2)

/-- Run a command and take the signals that were sent to the script. -/
def run : (fuel : Nat) → (tested : Bool) → Session → Command → Session
  | 0, _, session, _ => session.stopped
  | fuel + 1, tested, session, command =>
      if session.hasOption 'n' then session
      else takeSignals fuel (runCommand fuel tested session command)

/-- Run a command. -/
def runCommand : (fuel : Nat) → (tested : Bool) → Session → Command → Session
  | 0, _, session, _ => session.stopped
  | fuel + 1, tested, session, command =>
      match command with
      | .simple line assignments words redirections =>
          let session := { session with line }
          (runSimple fuel tested session assignments words redirections).checked tested
      | .pipeline commands =>
          (runStages fuel tested session commands).checked tested
      | .negation body =>
          let after := run fuel true session body
          if after.runs then after.withStatus (if after.status = 0 then 1 else 0) else after
      | .andThen first second =>
          let after := run fuel true session first
          if after.runs && after.status = 0 then run fuel tested after second else after
      | .orElse first second =>
          let after := run fuel true session first
          if after.runs && after.status != 0 then run fuel tested after second else after
      | .background body =>
          let inside := finish fuel (run fuel false (session.inner.wireTo 0 .nowhere) body)
          let after := session.resume inside
          { after with
            status := 0
            lastJob? := some after.nextProcess
            jobs := (after.nextProcess, inside.status) :: after.jobs
            nextProcess := after.nextProcess + 1 }
      | .sequence commands => runAll fuel tested session commands
      | .branch arms otherwise => runBranch fuel tested session arms otherwise
      | .loop whileTrue condition body =>
          let session := { session with loops := session.loops + 1 }
          let after := runLoop fuel tested session 0 whileTrue condition body
          { after with loops := session.loops - 1 }
      | .each line name words body =>
          let (items, session) :=
            match words with
            | some words => expandAll fuel false { session with line } words
            | none => (session.arguments, { session with line })
          if !session.runs then
            session
          else if items.isEmpty then
            session.succeeded
          else
            let session := { session with loops := session.loops + 1 }
            let after := runEach fuel tested session name items body
            { after with loops := session.loops - 1 }
      | .select line subject arms =>
          let (text, session) := expandText fuel { session with line } subject
          if session.runs then runSelect fuel tested session text arms else session
      | .subshell line body =>
          let session := { session with line }
          let inside := finish fuel (run fuel tested session.inner body)
          (session.resume inside).checked tested
      | .define name body =>
          { session with
            status := 0
            functions := (name, body) :: session.functions.filter (·.1 != name) }
      | .redirected line body redirections =>
          let session := { session with line }
          let (possible, inside) := redirect fuel session redirections
          let after :=
            if possible then run fuel tested inside body else inside.checked tested
          after.rewire session redirections

/-- Run commands one after another. -/
def runAll : (fuel : Nat) → (tested : Bool) → Session → List Command → Session
  | 0, _, session, _ => session.stopped
  | _, _, session, [] => session
  | fuel + 1, tested, session, command :: rest =>
      let after := run fuel tested session command
      if after.runs then runAll fuel tested after rest else after

/-- Run commands so that each reads what the one before it prints. -/
def runStages : (fuel : Nat) → (tested : Bool) → Session → List Command → Session
  | 0, _, session, _ => session.stopped
  | _, _, session, [] => session
  | fuel + 1, tested, session, [command] =>
      session.resume (finish fuel (run fuel tested session.inner command))
  | fuel + 1, tested, session, command :: rest =>
      let (inner, id) := session.inner.addChannel (.gathered [])
      let inside := finish fuel (run fuel tested (inner.wire 1 id) command)
      let outer := (session.resume inside).withStatus session.status
      let outer := outer.wireTo 0 (.source (inside.gatheredIn id) false)
      if outer.runs then
        let after := runStages fuel tested outer rest
        { session.inherit after with flow := after.flow }
      else
        outer

/-- Run the first arm whose condition holds. -/
def runBranch :
    (fuel : Nat) → (tested : Bool) → Session → List (Command × Command) → Option Command →
      Session
  | 0, _, session, _, _ => session.stopped
  | fuel + 1, tested, session, [], otherwise =>
      match otherwise with
      | some body => run fuel tested session body
      | none => session.succeeded
  | fuel + 1, tested, session, (condition, body) :: rest, otherwise =>
      let after := run fuel true session condition
      if !after.runs then after
      else if after.status = 0 then run fuel tested after body
      else runBranch fuel tested after rest otherwise

/-- Run a body as long as its condition ends as asked for; `last` is the status of the last round.
-/
def runLoop :
    (fuel : Nat) → (tested : Bool) → Session → (last : Nat) → (whileTrue : Bool) →
      (condition body : Command) → Session
  | 0, _, session, _, _, _, _ => session.stopped
  | fuel + 1, tested, session, last, whileTrue, condition, body =>
      let (again, decided) := (run fuel true session condition).afterRound
      if !again then
        decided
      else if (decided.status == 0) == whileTrue then
        let (again, after) := (run fuel tested decided body).afterRound
        if again then runLoop fuel tested after after.status whileTrue condition body else after
      else
        decided.withStatus last

/-- Run a body once for each item. -/
def runEach :
    (fuel : Nat) → (tested : Bool) → Session → String → List (List Char) → Command → Session
  | 0, _, session, _, _, _ => session.stopped
  | _, _, session, _, [], _ => session
  | fuel + 1, tested, session, name, item :: items, body =>
      let session := session.assign name item
      if !session.runs then
        session
      else
        let (again, after) := (run fuel tested session body).afterRound
        if again then runEach fuel tested after name items body else after

/-- Run the first arm with a pattern that matches. -/
def runSelect :
    (fuel : Nat) → (tested : Bool) → Session → List Char → List (List Word × Command) → Session
  | 0, _, session, _, _ => session.stopped
  | _, _, session, _, [] => session.succeeded
  | fuel + 1, tested, session, subject, (patterns, body) :: rest =>
      let (found, session) := matchesOne fuel session subject patterns
      if !session.runs then session
      else if !found then runSelect fuel tested session subject rest
      else
        match body with
        | .sequence [] => session.succeeded
        | _ => run fuel tested session body

/-- Whether one of several patterns matches. -/
def matchesOne : (fuel : Nat) → Session → List Char → List Word → Bool × Session
  | 0, session, _, _ => (false, session.stopped)
  | _, session, _, [] => (false, session)
  | fuel + 1, session, subject, pattern :: rest =>
      let (atoms, session) := expand fuel false session pattern
      if !session.runs then (false, session)
      else if (Atom.pattern session.joiner atoms).accepts subject then (true, session)
      else matchesOne fuel session subject rest

/-- Run a command of words, assignments and redirections. -/
def runSimple :
    (fuel : Nat) → (tested : Bool) → Session → List (String × Word) → List Word →
      List Redirection → Session
  | 0, _, session, _, _, _ => session.stopped
  | fuel + 1, tested, session, assignments, words, redirections =>
      let (found, session) :=
        expandAll fuel (areSettings words) { session with printedStatus := 0 } words
      if !session.runs then
        session
      else
        let (possible, inside) := redirect fuel session redirections
        let after :=
          if !inside.runs then
            inside
          else
            match found with
            | [] =>
                if !possible then
                  inside
                else
                  let after := assignAll fuel false inside assignments
                  let after := after.trace session (assignments.map (·.1)) []
                  if after.runs then after.withStatus after.printedStatus else after
            | name :: arguments =>
                runNamed fuel tested possible session inside assignments name arguments
        if found.head? = some "exec".toList then after else after.rewire session redirections

/-- Run a command of a name and arguments: one of the shell itself, a function, or a program.  The
session `before` is the one before the redirections, of which not all may have been `possible`. -/
def runNamed :
    (fuel : Nat) → (tested possible : Bool) → (before : Session) → Session →
      List (String × Word) → List Char → List (List Char) → Session
  | 0, _, _, _, session, _, _, _ => session.stopped
  | fuel + 1, tested, possible, before, session, assignments, name, arguments =>
      let text := String.ofList name
      let names := assignments.map (·.1)
      if specialNames.contains text then
        if !possible then
          { session with flow := .failing }
        else
          let session := assignAll fuel (text = "exec") session assignments
          if !session.runs then session
          else
            let session := session.trace before names (name :: arguments)
            runOwn fuel tested session text arguments
      else if !possible then
        session
      else
        let saved := names.map fun name => (name, session.bindings.lookup name)
        let session := assignAll fuel true session assignments
        if !session.runs then
          session
        else
          let session := session.trace before names (name :: arguments)
          let after :=
            match session.functions.lookup text with
            | some body => runFunction fuel tested session body arguments
            | none =>
                if plainNames.contains text then
                  let after := runOwn fuel tested session text arguments
                  if after.flow = Flow.failing then { after with flow := .running } else after
                else
                  runProgram fuel session name arguments
          after.restore saved

/-- Run a function. -/
def runFunction :
    (fuel : Nat) → (tested : Bool) → Session → Command → List (List Char) → Session
  | 0, _, session, _, _ => session.stopped
  | fuel + 1, tested, session, body, arguments =>
      let inside :=
        { session with frames := [] :: session.frames, loops := 0 }.withArguments arguments
      let after := uncover (run fuel tested inside body)
      { after with
        arguments := session.arguments
        loops := session.loops
        optionNext := session.optionNext
        optionPlace := session.optionPlace
        flow := if after.flow = .returning then .running else after.flow }

/-- Run a command of the shell itself. -/
def runOwn :
    (fuel : Nat) → (tested : Bool) → Session → String → List (List Char) → Session
  | 0, _, session, _, _ => session.stopped
  | fuel + 1, tested, session, name, arguments =>
      let speaking := { session with speaker? := some name.toList }
      let after :=
        match name with
        | "eval" => runText fuel tested speaking ([' '].intercalate arguments)
        | "." =>
            match if arguments.head? = some ['-', '-'] then arguments.tail else arguments with
            | [] => session.succeeded
            | file :: _ =>
                match inclusionPath session file with
                | .error text => speaking.fail text
                | .ok path =>
                    match session.files.readBytes path with
                    | .error fault => speaking.fail (Access.reads.complaint path.toList fault)
                    | .ok bytes =>
                        let reading := { session with speaker? := some (Text.bytesOf path) }
                        let after := runText fuel tested reading (scriptOf bytes)
                        if after.flow = Flow.returning then { after with flow := .running }
                        else after
        | "exec" =>
            match arguments with
            | [] => session.succeeded
            | program :: arguments =>
                let directories := session.searchDirectories
                let after :=
                  match session.machine.find isScript directories program arguments with
                  | .ok started =>
                      { runStarted fuel speaking session.environment started with traps := [] }
                  | .error fault => speaking.notStarted true program fault
                { after with flow := if after.runs then .exited else after.flow }
        | "command" =>
            match cutFlags ['p', 'v', 'V'] arguments with
            | .error letter => speaking.fail ("Illegal option -" ++ letter.toString)
            | .ok (flags, words) =>
                if flags.contains 'v' then tellCallName session words
                else if flags.contains 'V' then describeNames session words
                else
                  match words with
                  | [] => session.succeeded
                  | name :: arguments =>
                      let text := String.ofList name
                      if specialNames.contains text || plainNames.contains text then
                        runOwn fuel tested session text arguments
                      else
                        runProgram fuel session name arguments
        | _ =>
            match builtin? name with
            | some act => runBuiltin name act speaking arguments
            | none => session.notStarted false name.toList .notFound
      { after with speaker? := session.speaker? }

/-- Run a program of the machine. -/
def runProgram : (fuel : Nat) → Session → List Char → List (List Char) → Session
  | 0, session, _, _ => session.stopped
  | fuel + 1, session, name, arguments =>
      match session.machine.find isScript session.searchDirectories name arguments with
      | .ok started => runStarted fuel session session.environment started
      | .error fault => session.notStarted false name fault

/-- Run what was started, with variables of its own. -/
def runStarted :
    (fuel : Nat) → Session → List (String × List Char) → Started → Session
  | 0, session, _, _ => session.stopped
  | fuel + 1, session, environment, started =>
      let call := session.callOf environment started
      match started.program with
      | .shell =>
          session.afterChild (runShell fuel (session.child environment started.name) started)
      | .environment =>
          match call.surrounded (call.arguments.length + 20) environment call.arguments with
          | .error refused => session.takeEffect (call.refuse refused)
          | .ok { environment, command := [] } =>
              session.takeEffect ({ call with environment, arguments := [] }).showVariables
          | .ok { environment, command } => runWrapped fuel session call environment [command]
      | .limited =>
          match call.limitedCommand with
          | .error refused => session.takeEffect (call.refuse refused)
          | .ok command => runWrapped fuel session call environment [command]
      | .spread =>
          match call.spreadCommands with
          | .error refused => session.takeEffect (call.refuse refused)
          | .ok commands =>
              let inside := (session.withInputLeft 0 []).inner.wireTo 0 .nowhere
              let after := runWrapped fuel (inside.withStatus 0) call environment commands
              let status := after.status
              session.inherit <| after.withStatus <|
                if status = 0 || status = 126 || status = 127 then status
                else if status = 255 then 124
                else 123
      | program =>
          match program.effect? call with
          | some effect =>
              session.takeEffect (if session.isOpen 1 then effect else call.withoutOutput effect)
          | none => session

/-- Run the commands that another program runs; the status is the last one that is no success. -/
def runWrapped :
    (fuel : Nat) → Session → Program.Call → List (String × List Char) →
      List (List (List Char)) → Session
  | 0, session, _, _, _ => session.stopped
  | _, session, _, _, [] => session
  | fuel + 1, session, call, environment, [] :: rest =>
      runWrapped fuel session call environment rest
  | fuel + 1, session, call, environment, (name :: arguments) :: rest =>
      let directories :=
        match environment.lookup "PATH" with
        | some path => Machine.searchDirectories (Text.shown path)
        | none => Machine.defaultSearchPath
      let after :=
        match session.machine.findFor (fun _ => true) directories name arguments with
        | .ok started => runStarted fuel session environment started
        | .error fault =>
            let status :=
              match fault with
              | .notFound | .notADirectory => 127
              | _ => 126
            (session.print 2 (Text.bytesOf (call.cannotRun name fault.reason ++ "\n"))).withStatus
              status
      if rest.isEmpty || after.status = 127 || after.status = 126 || after.status = 255 then
        after
      else
        let later := runWrapped fuel after call environment rest
        if later.status = 0 then later.withStatus after.status else later

/-- Run a call of the shell in a session of its own. -/
def runShell : (fuel : Nat) → Session → Started → Session
  | 0, session, _ => session.stopped
  | fuel + 1, session, started =>
      let failing (text : String) : Session :=
        ({ session with line := 0 }.complain text).withStatus 2
      match Invocation.ofArguments started.arguments with
      | .error text => failing text
      | .ok call =>
          let session := { session with arguments := call.arguments }
          let session := call.settings.foldl
            (fun session (on, letter) => withOption session on letter) session
          match call.source with
          | .text script =>
              let session := { session with script := call.name?.getD session.script }
              finish fuel (runText fuel false session script)
          | .input =>
              let script := (session.input 0).filter (· != '\x00')
              finish fuel (runText fuel false (session.withInputLeft 0 []) script)
          | .file path =>
              match session.files.readBytes (Text.shown path) with
              | .error fault => failing (Access.reads.complaint path fault)
              | .ok bytes =>
                  finish fuel <|
                    runText fuel false { session with script := path } (scriptOf bytes)

/-- Run the lines of a script, of which there are so many; a script without commands succeeds. -/
def runText : (fuel : Nat) → (tested : Bool) → Session → List Char → Session
  | 0, _, session, _ => session.stopped
  | fuel + 1, tested, session, text =>
      if (skipLines text).isEmpty then session.succeeded
      else
        { runLines fuel tested session (lineBreaks text + 1) text with
          readUpTo := session.readUpTo }

/-- Run the lines that are left of a script with so many lines. -/
def runLines :
    (fuel : Nat) → (tested : Bool) → Session → (lines : Nat) → List Char → Session
  | 0, _, session, _, _ => session.stopped
  | fuel + 1, tested, session, lines, text =>
      match readLine lines text with
      | .ok none => session
      | .ok (some (commands, rest)) =>
          let reading := { session with readUpTo := lines - lineBreaks rest }
          let after := runAll fuel tested reading commands
          if after.runs then runLines fuel tested after lines rest else after
      | .error refusal =>
          let reading := { session with readUpTo := lines - refusal.linesLeft }
          reading.failReading refusal.mistake.reason

/-- Take the signals that were sent to the script. -/
def takeSignals : (fuel : Nat) → Session → Session
  | 0, session => session.stopped
  | fuel + 1, session =>
      if session.isInner || !session.runs then
        session
      else
        match session.pending.find? (·.1 = session.process) with
        | none => session
        | some (process, signal) =>
            let rest := session.pending.erase (process, signal)
            let session := { session with pending := rest }
            let ends := (Signal.number? signal).getD 9
            match if signal = "KILL" then none else session.traps.lookup signal with
            | none =>
                if Signal.harmless.contains signal then takeSignals fuel session
                else { session with flow := .killed ends }
            | some [] => takeSignals fuel session
            | some action =>
                let after := runText fuel false session action
                if after.runs then takeSignals fuel (after.withStatus session.status) else after

/-- Do what is to be done at the end of a script. -/
def finish : (fuel : Nat) → Session → Session
  | 0, session => session.stopped
  | fuel + 1, session =>
      match session.flow, session.traps.lookup "EXIT" with
      | .killed _, _ | _, none | _, some [] => session
      | _, some action =>
          let traps := session.traps.filter (·.1 != "EXIT")
          let ready := { session with traps, loops := 0, flow := .running }
          let after := runText fuel false ready action
          if after.runs then { after with status := session.status, flow := .exited } else after

end

/-- How many steps a script may take. -/
def stepLimit : Nat := 1000000

/-- The session after what was started was run to its end in a new process. -/
def launch (machine : Machine) (started : Started) : Session :=
  let session := Session.fresh machine started.name
  match started.program with
  | .shell => runShell stepLimit session started
  | _ =>
      let environment := machine.environment.map fun (name, value) => (name, Text.bytesOf value)
      runStarted stepLimit session environment started

end Shell
end SkillAudit
