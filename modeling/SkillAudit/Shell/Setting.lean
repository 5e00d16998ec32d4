import SkillAudit.Shell.Session
import SkillAudit.Shell.Signal

/-!
# Commands that change the shell

Variables, options, arguments, traps and the working directory.  What these commands list is written
so that a shell can read it again.
-/

namespace SkillAudit
namespace Shell

/-- A text between single quotes; quotes in it stand between double quotes. -/
def singleQuoted (text : List Char) : List Char :=
  let rec go (isOpen : Bool) : List Char → List Char
    | [] => if isOpen then ['\''] else ['"']
    | c :: rest =>
        if c = '\'' then
          if isOpen then '\'' :: '"' :: c :: go false rest else c :: go false rest
        else
          if isOpen then c :: go true rest else '"' :: '\'' :: c :: go true rest
  '\'' :: go true text

/-- The flags in front of other words; a flag that is not allowed is given back. -/
def cutFlags (allowed : List Char) :
    List (List Char) → Except Char (List Char × List (List Char))
  | [] => .ok ([], [])
  | word :: rest =>
      match word with
      | ['-', '-'] => .ok ([], rest)
      | '-' :: c :: letters =>
          match (c :: letters).find? fun d => !allowed.contains d with
          | some d => .error d
          | none => (cutFlags allowed rest).map fun (flags, after) => (c :: letters ++ flags, after)
      | _ => .ok ([], word :: rest)

/-- Go on with the flags of a command and its other words, or fail. -/
def withFlags
    (session : Session)
    (allowed : String)
    (arguments : List (List Char))
    (act : List Char → List (List Char) → Session) :
    Session :=
  match cutFlags allowed.toList arguments with
  | .ok (flags, words) => act flags words
  | .error letter => session.fail ("Illegal option -" ++ letter.toString)

/-- Texts in the order of their characters. -/
def sortedByName {α : Type} (items : List (String × α)) : List (String × α) :=
  items.mergeSort fun a b => !decide (b.1.toList.map Char.toNat < a.1.toList.map Char.toNat)

/-- The name and the value that a word of a command gives to a variable. -/
def givenValue (word : List Char) : List Char × Option (List Char) :=
  let name := word.takeWhile (· != '=')
  match word.drop name.length with
  | _ :: value => (name, some value)
  | [] => (name, none)

/-! ## Variables -/

/-- List variables with a word in front of each. -/
def listBindings (session : Session) (front : String) (shows : Binding → Bool) : Session :=
  let line (entry : String × Binding) : List Char :=
    let value :=
      match entry.2.value? with
      | some value => '=' :: singleQuoted value
      | none => []
    Text.bytesOf (front ++ entry.1) ++ value ++ ['\n']
  let shown := (sortedByName session.bindings).filter fun entry => shows entry.2
  session.succeeded.print 1 (shown.map line).flatten

/-- Mark variables, which may also be given values. -/
def markCommand
    (mark : Binding → Binding)
    (front : String)
    (shows : Binding → Bool)
    (session : Session)
    (arguments : List (List Char)) :
    Session :=
  withFlags session "p" arguments fun flags words =>
    if flags.contains 'p' || words.isEmpty then
      listBindings session front shows
    else
      words.foldl
        (fun session word =>
          let (name, value?) := givenValue word
          let key := String.ofList name
          if !session.runs then
            session
          else if !isName name then
            session.fail (Text.shown name ++ ": bad variable name")
          else
            let session :=
              match value? with
              | some value => session.assign key value
              | none => session
            if session.runs then
              session.bind key (mark ((session.bindings.lookup key).getD { value? := none }))
            else
              session)
        session.succeeded

/-- Hand variables on to programs. -/
def exportCommand : Session → List (List Char) → Session :=
  markCommand (fun binding => { binding with exported := true }) "export " (·.exported)

/-- Protect variables from changes. -/
def readOnlyCommand : Session → List (List Char) → Session :=
  markCommand (fun binding => { binding with readOnly := true }) "readonly " (·.readOnly)

/-- Forget variables or functions. -/
def unsetCommand (session : Session) (arguments : List (List Char)) : Session :=
  withFlags session "vf" arguments fun flags words =>
    words.foldl
      (fun session word =>
        let name := String.ofList word
        if !session.runs then
          session
        else if flags.contains 'f' then
          { session with functions := session.functions.filter (·.1 != name) }
        else if !isName word then
          session.fail (Text.shown word ++ ": bad variable name")
        else if session.isReadOnly name then
          session.fail (name ++ ": is read only")
        else
          session.unbind name)
      session.succeeded

/-- Cover variables until the function that is running ends. -/
def localCommand (session : Session) (arguments : List (List Char)) : Session :=
  match session.frames with
  | [] => session.fail "not in a function"
  | _ =>
      arguments.foldl
        (fun session word =>
          let (name, value?) := givenValue word
          let key := String.ofList name
          if !session.runs then
            session
          else if word = ['-'] then
            session
          else if !isName name then
            session.fail (Text.shown name ++ ": bad variable name")
          else
            let old := session.bindings.lookup key
            let session :=
              match session.frames with
              | frame :: frames =>
                  if frame.any (·.1 = key) then session
                  else { session with frames := ((key, old) :: frame) :: frames }
              | [] => session
            match value? with
            | some value => session.assign key value
            | none =>
                if old.isSome then session else session.bind key { value? := none })
        session.succeeded

/-- Uncover the variables that the function that is ending covered. -/
def uncover (session : Session) : Session :=
  match session.frames with
  | [] => session
  | frame :: frames =>
      let session := frame.foldl
        (fun session (name, old) =>
          match old with
          | some binding => session.bind name binding
          | none => session.unbind name)
        session
      { session with frames }

/-! ## Options and arguments -/

/-- The options by name, with the letters that most of them have. -/
def optionTable : List (String × Option Char) :=
  [("errexit", some 'e'), ("noglob", some 'f'), ("ignoreeof", some 'I'), ("interactive", some 'i'),
    ("monitor", some 'm'), ("noexec", some 'n'), ("stdin", some 's'), ("xtrace", some 'x'),
    ("verbose", some 'v'), ("vi", some 'V'), ("emacs", some 'E'), ("noclobber", some 'C'),
    ("allexport", some 'a'), ("notify", some 'b'), ("nounset", some 'u'), ("privileged", some 'p'),
    ("nolog", none), ("debug", none)]

/-- The letters of the options in the order in which they are told. -/
def optionLetters : List Char :=
  (optionTable.filterMap (·.2)).reverse

/-- The session with an option on or off. -/
def withOption (session : Session) (on : Bool) (letter : Char) : Session :=
  { session with
    options := optionLetters.filter fun c =>
      if c = letter then on else session.options.contains c }

/-- List the options. -/
def listOptions (session : Session) : Session :=
  let line (entry : String × Option Char) : String :=
    let on := (entry.2.map session.hasOption).getD false
    entry.1 ++ String.ofList (List.replicate (16 - entry.1.length) ' ') ++
      (if on then "on" else "off") ++ "\n"
  session.succeeded.print 1 <| Text.bytesOf <|
    "Current option settings\n" ++ String.join (optionTable.map line)

/-- Set the options of the letters of a word. -/
def setLetters (session : Session) (on : Bool) (letters : List Char) : Session :=
  letters.foldl
    (fun session letter =>
      if !session.runs then session
      else if optionLetters.contains letter then withOption session on letter
      else session.fail ("Illegal option " ++ (if on then "-" else "+") ++ letter.toString))
    session

/-- Set the option of a name. -/
def setNamed (session : Session) (on : Bool) (name : List Char) : Session :=
  match optionTable.lookup (String.ofList name) with
  | some (some letter) => withOption session on letter
  | some none => session
  | none =>
      session.fail ("Illegal option " ++ (if on then "-o " else "+o ") ++ Text.shown name)

/-- Set options and arguments. -/
def setWords (session : Session) : List (List Char) → Session
  | [] => session
  | word :: rest =>
      let setOptions (on : Bool) (letters : List Char) : Session :=
        let session := setLetters session on (letters.filter (· != 'o'))
        if !session.runs then
          session
        else if letters.contains 'o' then
          match rest with
          | [] => listOptions session
          | name :: rest =>
              let session := setNamed session on name
              if session.runs then setWords session rest else session
        else
          setWords session rest
      match word with
      | ['-', '-'] => session.withArguments rest
      | ['-'] =>
          let session := withOption (withOption session false 'x') false 'v'
          if rest.isEmpty then session else session.withArguments rest
      | '-' :: letters => setOptions true letters
      | '+' :: letters => setOptions false letters
      | _ => session.withArguments (word :: rest)

/-- Set options and arguments, or list the variables. -/
def setCommand (session : Session) (arguments : List (List Char)) : Session :=
  if arguments.isEmpty then listBindings session "" (·.value?.isSome)
  else setWords session.succeeded arguments

/-! ## Traps -/

/-- Say what is done on signals. -/
def trapCommand (session : Session) (arguments : List (List Char)) : Session :=
  withFlags session "" (if arguments.head? = some ['-'] then ['-', '-'] :: arguments else arguments)
    fun _ words =>
      let change (action? : Option (List Char)) (signals : List (List Char)) : Session :=
        signals.foldl
          (fun session word =>
            if session.status != 0 then
              session
            else
              match Signal.ofWord? word with
              | none =>
                  (session.print 2 (Text.bytesOf "trap: " ++ word ++
                    Text.bytesOf ": bad trap\n")).withStatus 1
              | some signal =>
                  let others := session.traps.filter (·.1 != signal)
                  match action? with
                  | some action => { session with traps := (signal, action) :: others }
                  | none => { session with traps := others })
          session.succeeded
      match words with
      | [] =>
          let line (name : String) : Option (List Char) :=
            (session.traps.lookup name).map fun action =>
              Text.bytesOf "trap -- " ++ singleQuoted action ++ ' ' :: Text.bytesOf name ++ ['\n']
          session.succeeded.print 1 (Signal.names.filterMap line).flatten
      | [signal] => change none [signal]
      | action :: signals => change (if action = ['-'] then none else some action) signals

/-! ## The working directory -/

/-- An absolute path without dots and without names that are left again. -/
def normalized (path : List Char) : List Char :=
  let step (above : List (List Char)) (part : List Char) : List (List Char) :=
    if part.isEmpty || part = ['.'] then above
    else if part = ['.', '.'] then above.tail
    else part :: above
  let parts := ((Text.splitOn '/' path).foldl step []).reverse
  '/' :: ['/'].intercalate parts

/-- Change the working directory. -/
def changeDirectory (session : Session) (arguments : List (List Char)) : Session :=
  withFlags session "LP" arguments fun flags words =>
    let physical := flags.getLast? = some 'P'
    let back := words.head? = some ['-']
    let target? :=
      match words with
      | [] => session.bound? "HOME"
      | word :: _ => if back then some (session.value "OLDPWD") else some word
    match target? with
    | none => session.succeeded
    | some [] => session.succeeded
    | some target =>
        let path :=
          if target.head? = some '/' then target else session.place ++ '/' :: target
        let path := if physical then path else normalized path
        let found :=
          if session.files.isDirectory (Text.shown path) then
            (session.files.canonical (Text.shown path)).toOption
          else
            none
        match found with
        | none => session.fail ("can't cd to " ++ Text.shown target)
        | some names =>
            let files := { session.files with workingDirectory := names }
            let place := if physical then Session.workingPlace files else path
            let session := session.withFiles files
            let exported (session : Session) (name : String) (value : List Char) : Session :=
              session.bind name { value? := some value, exported := true }
            let session := exported session "OLDPWD" session.place
            let session := exported session "PWD" place
            let session := { session with place }
            if back then session.succeeded.print 1 (place ++ ['\n']) else session.succeeded

/-- Show the working directory. -/
def showPlace (session : Session) (arguments : List (List Char)) : Session :=
  withFlags session "LP" arguments fun flags _ =>
    let place :=
      if flags.getLast? = some 'P' then Session.workingPlace session.files else session.place
    session.succeeded.print 1 (place ++ ['\n'])

end Shell
end SkillAudit
