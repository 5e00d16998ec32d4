import SkillAudit.Program.Search
import SkillAudit.Text.Glob

/-!
# Programs that work on files

Making, removing, copying, moving, linking, listing and comparing files.  A program that is given
several files goes on after one that it cannot work on.
-/

namespace SkillAudit
namespace Program

/-- A path in quotes. -/
def quoted (path : List Char) : String :=
  "'" ++ Text.shown path ++ "'"

/-- The last name of a path as it is written. -/
def lastName (path : List Char) : List Char :=
  let trimmed := (path.reverse.dropWhile (· = '/')).reverse
  if trimmed.isEmpty then (if path.isEmpty then [] else ['/'])
  else (trimmed.reverse.takeWhile (· != '/')).reverse

/-- A name in a directory, as a path. -/
def inside (directory name : List Char) : List Char :=
  if directory.getLast? = some '/' then directory ++ name else directory ++ '/' :: name

/-- Work on one file after another, with a message for each that fails. -/
def Call.eachFile
    (call : Call)
    (operands : List (List Char))
    (wording : List Char → String → String)
    (act : FileSystem → List Char → Except IoFault FileSystem) :
    Effect :=
  operands.foldl
    (fun effect operand =>
      match act effect.files operand with
      | .ok files => { effect with files }
      | .error fault => call.complain effect (wording operand fault.reason) 1)
    call.done

/-- The effect of a call that is told how to ask for help. -/
def Call.advised (call : Call) (effect : Effect) : Effect :=
  effect.printError
    (Text.bytesOf ("Try '" ++ Text.shown call.name ++ " --help' for more information.\n"))

/-- The effect of a call without operands. -/
def Call.missingOperand (call : Call) : Effect :=
  call.advised (call.failing "missing operand" 1)

/-- The effect of a call without files. -/
def Call.missingFile (call : Call) : Effect :=
  call.advised (call.failing "missing file operand" 1)

/-- The effect of a call with too few files, of which the last one is the destination. -/
def Call.missingDestination (call : Call) (words : Words) : Effect :=
  match words.operands with
  | [] => call.missingFile
  | source :: _ =>
      call.advised (call.failing ("missing destination file operand after " ++ quoted source) 1)

/-- Make files that are missing. -/
def Call.touch (call : Call) : Effect :=
  call.parsed { flags := "acmfh", valued := "drt" } 1 fun words =>
    if words.operands.isEmpty then call.missingFile
    else
      call.eachFile words.operands
        (fun path reason => "cannot touch " ++ quoted path ++ ": " ++ reason)
        fun files operand =>
          let path := Text.shown operand
          if files.pathExists path || words.has 'c' then .ok files else files.write path []

/-- Remove files. -/
def Call.remove (call : Call) : Effect :=
  let grammar : Grammar :=
    { flags := "frRidvI", long := [("force", 'f'), ("recursive", 'r'), ("verbose", 'v')] }
  call.parsed grammar 1 fun words =>
    if words.operands.isEmpty && !words.has 'f' then call.missingOperand
    else
      call.eachFile words.operands
        (fun path reason => "cannot remove " ++ quoted path ++ ": " ++ reason)
        fun files operand =>
          let path := Text.shown operand
          match files.land path false with
          | .ok (.found ((_, .directory entries) :: _)) =>
              if words.has 'r' || words.has 'R' then files.remove path
              else if words.has 'd' && entries.isEmpty then files.remove path
              else .error .isADirectory
          | .ok (.found _) => files.remove path
          | .ok (.vacant _ _) | .error .notFound | .error .notADirectory =>
              if words.has 'f' then .ok files else .error .notFound
          | .error fault => .error fault

/-- The first part of a path that is there and no directory. -/
def obstacle? (files : FileSystem) (path : List Char) : Option (List Char) :=
  ((List.range path.length).map fun n => path.take (n + 1)).find? fun start =>
    (path.drop start.length).headD '/' = '/' && files.pathExists (Text.shown start) &&
      !files.isDirectory (Text.shown start)

/-- Make directories. -/
def Call.makeDirectory (call : Call) : Effect :=
  let grammar : Grammar :=
    { flags := "pv", valued := "m", long := [("parents", 'p'), ("mode", 'm')] }
  call.parsed grammar 1 fun words =>
    if words.operands.isEmpty then call.missingOperand
    else
      let blocked (path : List Char) : List Char :=
        if words.has 'p' then (obstacle? call.files path).getD path else path
      call.eachFile words.operands
        (fun path reason => "cannot create directory " ++ quoted (blocked path) ++ ": " ++ reason)
        fun files operand =>
          let path := Text.shown operand
          if words.has 'p' then files.makeDirectories path else files.makeDirectory path

/-- Remove empty directories. -/
def Call.removeDirectory (call : Call) : Effect :=
  call.parsed { flags := "pv" } 1 fun words =>
    if words.operands.isEmpty then call.missingOperand
    else
      call.eachFile words.operands
        (fun path reason => "failed to remove " ++ quoted path ++ ": " ++ reason)
        fun files operand =>
          let path := Text.shown operand
          match files.land path false with
          | .ok (.found ((_, .directory entries) :: _)) =>
              if entries.isEmpty then files.remove path else .error .notEmpty
          | .ok (.found _) => .error .notADirectory
          | .ok (.vacant _ _) => .error .notFound
          | .error fault => .error fault

/-- Put a node at a path, in place of what is no directory there. -/
def place
    (files : FileSystem)
    (path : String)
    (node : Node)
    (hnode : node.Ordered) :
    Except IoFault FileSystem := do
  match ← files.land path false with
  | .vacant directory name => .ok (files.put directory name node hnode)
  | .found ((name, old) :: directory) =>
      if old.isDirectory && !node.isDirectory then .error .isADirectory
      else .ok (files.put directory name node hnode)
  | .found [] => .error .isADirectory

/-- Where a file goes that is given a destination, which may be a directory. -/
def destination (files : FileSystem) (source target : List Char) : List Char :=
  if files.isDirectory (Text.shown target) then inside target (lastName source) else target

/-- The sources and the destination among operands. -/
def sourcesAndTarget (words : Words) : Option (List (List Char) × List Char) :=
  match words.value? 't', words.operands.reverse with
  | some target, _ => some (words.operands, target)
  | none, target :: (first :: rest) => some ((first :: rest).reverse, target)
  | none, _ => none

/-- Work on the sources of a call, each with its goal, or tell what is missing. -/
def Call.eachSource
    (call : Call)
    (words : Words)
    (act : Effect → List Char → String → Effect) :
    Effect :=
  match sourcesAndTarget words with
  | none => call.missingDestination words
  | some (sources, target) =>
      let fault : Option IoFault :=
        match call.files.node (Text.shown target) with
        | .ok (.directory _) => none
        | .ok _ => some .notADirectory
        | .error fault => some fault
      match if 1 < sources.length then fault else none with
      | some fault => call.failing ("target " ++ quoted target ++ ": " ++ fault.reason) 1
      | none =>
          sources.foldl
            (fun effect source =>
              act effect source (Text.shown (destination effect.files source target)))
            call.done

/-- Copy files. -/
def Call.copy (call : Call) : Effect :=
  let grammar : Grammar :=
    { flags := "rRafpdPLniuv", valued := "t"
      long := [("recursive", 'r'), ("archive", 'a'), ("force", 'f')] }
  call.parsed grammar 1 fun words =>
    let deep := words.has 'r' || words.has 'R' || words.has 'a'
    call.eachSource words fun effect source goal =>
      let files := effect.files
      match hnode : files.node (Text.shown source) with
      | .error fault =>
          call.complain effect ("cannot stat " ++ quoted source ++ ": " ++ fault.reason) 1
      | .ok (.directory entries) =>
          if deep then
            match place files goal (.directory entries) (FileSystem.ordered_of_node hnode) with
            | .ok files => { effect with files }
            | .error fault =>
                call.complain effect
                  ("cannot create directory '" ++ goal ++ "': " ++ fault.reason) 1
          else
            call.complain effect ("-r not specified; omitting directory " ++ quoted source) 1
      | .ok (.file file) =>
          if words.has 'n' && files.pathExists goal then effect
          else
            let fresh := !files.pathExists goal
            match files.write goal file.bytes with
            | .ok files =>
                let moded := if fresh then files.setMode goal file.mode else .ok files
                { effect with files := moded.toOption.getD files }
            | .error fault =>
                call.complain effect
                  ("cannot create regular file '" ++ goal ++ "': " ++ fault.reason) 1
      | .ok _ => effect

/-- Move files. -/
def Call.move (call : Call) : Effect :=
  call.parsed { flags := "finuvT", valued := "t", long := [("force", 'f')] } 1 fun words =>
    call.eachSource words fun effect source goal =>
      let files := effect.files
      let moved : Except IoFault FileSystem :=
        match hland : files.land (Text.shown source) false with
        | .ok (.found ((_, node) :: _)) => do
            place (← files.remove (Text.shown source)) goal node
              (FileSystem.ordered_of_land hland)
        | .ok _ => .error .notFound
        | .error fault => .error fault
      match moved with
      | .ok files => { effect with files }
      | .error fault =>
          call.complain effect ("cannot stat " ++ quoted source ++ ": " ++ fault.reason) 1

/-- Make links; a link that is not symbolic is a copy. -/
def Call.link (call : Call) : Effect :=
  let grammar : Grammar :=
    { flags := "sfnvrT", valued := "t", long := [("symbolic", 's'), ("force", 'f')] }
  call.parsed grammar 1 fun words =>
    let pairs : Option (List (List Char) × List Char) :=
      match words.operands with
      | [source] => some ([source], ['.'])
      | _ => sourcesAndTarget words
    match pairs with
    | none => call.missingFile
    | some (sources, target) =>
        let kind := if words.has 's' then "symbolic" else "hard"
        sources.foldl
          (fun effect source =>
            let goal :=
              if words.has 'n' || words.has 'T' then target
              else destination effect.files source target
            let path := Text.shown goal
            let made : Except IoFault FileSystem := do
              let files :=
                if words.has 'f' then (effect.files.remove path).toOption.getD effect.files
                else effect.files
              if words.has 's' then
                files.makeLink path (Text.shown source)
              else
                match hnode : files.node (Text.shown source) with
                | .error fault => .error fault
                | .ok node =>
                    match ← files.land path false with
                    | .vacant directory name =>
                        .ok (files.put directory name node (FileSystem.ordered_of_node hnode))
                    | .found _ => .error .alreadyExists
            match made with
            | .ok files => { effect with files }
            | .error fault =>
                call.complain effect
                  ("failed to create " ++ kind ++ " link " ++ quoted goal ++ ": " ++
                    fault.reason) 1)
          call.done

/-- The names in a directory that are listed. -/
def listedNames (words : Words) (entries : List (String × Node)) : List String :=
  let names := entries.map (·.1)
  let visible := names.filter fun name => name.toList.head? != some '.'
  if words.has 'a' then "." :: ".." :: names
  else if words.has 'A' then names
  else visible

/-- List files and directories. -/
def Call.listFiles (call : Call) : Effect :=
  call.parsed { flags := "aA1dCFLpqrRtUx" } 2 fun words =>
    let operands := if words.operands.isEmpty then [['.']] else words.operands
    let sorted := operands.mergeSort fun a b => !decide (b < a)
    let order (names : List String) : List String := if words.has 'r' then names.reverse else names
    let (plain, directories, effect) := sorted.foldl
      (fun (plain, directories, effect) operand =>
        match call.files.node (Text.shown operand) with
        | .ok (.directory entries) =>
            if words.has 'd' then (plain ++ [operand], directories, effect)
            else (plain, directories ++ [(operand, entries)], effect)
        | .ok _ => (plain ++ [operand], directories, effect)
        | .error fault =>
            (plain, directories,
              call.complain effect ("cannot access " ++ quoted operand ++ ": " ++ fault.reason) 2))
      (([] : List (List Char)), ([] : List (List Char × List (String × Node))), call.done)
    let block (part : List Char × List (String × Node)) : List Char :=
      let names := (order (listedNames words part.2)).map Text.bytesOf
      let title := if 1 < operands.length then part.1 ++ [':', '\n'] else []
      title ++ ofLines names
    let blocks := (if plain.isEmpty then [] else [ofLines plain]) ++ directories.map block
    effect.print (['\n'].intercalate blocks)

/-- The permission bits that a mode asks for: a number in octal, or changes by letters. -/
def readMode (old : Nat) (text : List Char) : Option Nat :=
  if !text.isEmpty && text.all fun c => '0' ≤ c && c ≤ '7' then
    some (text.foldl (fun n c => n * 8 + (c.toNat - '0'.toNat)) 0)
  else
    (Text.splitOn ',' text).foldl
      (fun mode clause =>
        mode.bind fun mode =>
          let who := clause.takeWhile fun c => "ugoa".toList.contains c
          let everyone := who.isEmpty || who.contains 'a'
          let mask :=
            (if everyone || who.contains 'u' then 0o700 else 0) |||
              (if everyone || who.contains 'g' then 0o070 else 0) |||
                (if everyone || who.contains 'o' then 0o007 else 0)
          match clause.drop who.length with
          | operator :: letters =>
              let bits :=
                (if letters.contains 'r' then 0o444 else 0) |||
                  (if letters.contains 'w' then (if who.isEmpty then 0o200 else 0o222) else 0) |||
                    (if letters.contains 'x' then 0o111 else 0)
              let bits := bits &&& mask
              if !letters.all "rwxXst".toList.contains then none
              else
                match operator with
                | '+' => some (mode ||| bits)
                | '-' => some (mode - (mode &&& bits))
                | '=' => some ((mode - (mode &&& mask)) ||| bits)
                | _ => none
          | [] => none)
      (some old)

/-- Change the permission bits of files. -/
def Call.changeMode (call : Call) : Effect :=
  let arguments := call.arguments.filter fun a =>
    !([Text.bytesOf "-R", Text.bytesOf "-v", Text.bytesOf "-f", Text.bytesOf "--"].contains a)
  match arguments with
  | [] => call.missingOperand
  | mode :: operands =>
      if (readMode 0 mode).isNone then call.failing ("invalid mode: " ++ quoted mode) 1
      else
        call.eachFile operands
          (fun path reason => "cannot access " ++ quoted path ++ ": " ++ reason)
          fun files operand => do
            let path := Text.shown operand
            match ← files.node path with
            | .file file => files.setMode path ((readMode file.mode mode).getD file.mode)
            | _ => .ok files

/-- Show where a link leads, or the path of a place without links. -/
def Call.readLink (call : Call) : Effect :=
  call.parsed { flags := "fenmqsvz" } 1 fun words =>
    words.operands.foldl
      (fun effect operand =>
        let path := Text.shown operand
        if words.has 'f' || words.has 'e' || words.has 'm' then
          match call.files.land path true with
          | .ok (.found trail) =>
              effect.print (Text.bytesOf ("/" ++ Path.ofNames trail.names) ++ ['\n'])
          | .ok (.vacant trail name) =>
              if words.has 'e' then effect.withStatus 1
              else
                effect.print (Text.bytesOf ("/" ++ Path.ofNames (trail.names ++ [name])) ++ ['\n'])
          | .error _ => effect.withStatus 1
        else
          match call.files.land path false with
          | .ok (.found ((_, .link target) :: _)) =>
              effect.print (Text.bytesOf target ++ if words.has 'n' then [] else ['\n'])
          | _ => effect.withStatus 1)
      call.done

/-- Show the paths of places without links. -/
def Call.realPath (call : Call) : Effect :=
  call.parsed { flags := "emsqzLP" } 1 fun words =>
    words.operands.foldl
      (fun effect operand =>
        let path := Text.shown operand
        match call.files.land path true with
        | .ok (.found trail) =>
            effect.print (Text.bytesOf ("/" ++ Path.ofNames trail.names) ++ ['\n'])
        | .ok (.vacant trail name) =>
            effect.print (Text.bytesOf ("/" ++ Path.ofNames (trail.names ++ [name])) ++ ['\n'])
        | .error fault => call.complain effect (plainWording operand fault.reason) 1)
      call.done

/-- Compare two files. -/
def Call.compareFiles (call : Call) : Effect :=
  call.parsed { flags := "slb", long := [("silent", 's'), ("quiet", 's')] } 2 fun words =>
    let names := words.operands ++ if words.operands.length = 1 then [['-']] else []
    match names with
    | [first, second] =>
        match call.contents first, call.contents second with
        | .ok a, .ok b =>
            if a = b then call.done
            else
              let same := ((a.zip b).takeWhile fun (c, d) => c = d).length
              let lines := (a.take same).count '\n'
              let short := if a.length < b.length then first else second
              let text :=
                if same = min a.length b.length then
                  if same = 0 then
                    (true, call.message ("EOF on " ++ Text.shown short ++ " which is empty"))
                  else
                    (true, call.message ("EOF on " ++ Text.shown short ++ " after byte " ++
                      toString same ++ ", line " ++ toString lines))
                else
                  (false, first ++ ' ' :: second ++ Text.bytesOf
                    (" differ: char " ++ toString (same + 1) ++ ", line " ++
                      toString (lines + 1) ++ "\n"))
              { call.done with status := 1, printed := if words.has 's' then [] else [text] }
        | .error fault, _ =>
            if words.has 's' then call.done.withStatus 2
            else call.failing (plainWording first fault.reason) 2
        | _, .error fault =>
            if words.has 's' then call.done.withStatus 2
            else call.failing (plainWording second fault.reason) 2
    | _ => call.missingOperand

/-! ## Finding files -/

/-- What is asked of a file that is to be found. -/
structure FindTest where
  negated : Bool
  name : String
  value : List Char

/-- The tests of a call; nothing when one of them is unknown. -/
def readTests : (negated : Bool) → List (List Char) → Option (List FindTest)
  | _, [] => some []
  | negated, ['!'] :: rest => readTests (!negated) rest
  | negated, name :: rest =>
      let shown := Text.shown name
      if shown = "-not" then readTests (!negated) rest
      else if ["-print", "-print0", "-a", "-and", "-delete"].contains shown then
        (readTests false rest).map (⟨false, shown, []⟩ :: ·)
      else if ["-name", "-iname", "-path", "-type", "-maxdepth", "-mindepth"].contains shown then
        match rest with
        | value :: rest => (readTests false rest).map (⟨negated, shown, value⟩ :: ·)
        | [] => none
      else
        none

/-- Whether an entry passes a test. -/
def FindTest.accepts (test : FindTest) (depth : Nat) (path : String) (node : Node) : Bool :=
  let name := lastName (Text.bytesOf path)
  let holds : Bool :=
    match test.name with
    | "-name" => (Text.Glob.ofText test.value).accepts name
    | "-iname" => (Text.Glob.ofText (test.value.map Char.toLower)).accepts (name.map Char.toLower)
    | "-path" => (Text.Glob.ofText test.value).accepts (Text.bytesOf path)
    | "-type" =>
        match node, test.value with
        | .file _, ['f'] => true
        | .directory _, ['d'] => true
        | .link _, ['l'] => true
        | _, _ => false
    | "-maxdepth" => depth ≤ (natural? test.value).getD 0
    | "-mindepth" => (natural? test.value).getD 0 ≤ depth
    | _ => true
  holds != test.negated

/-- How many names a path has below another one. -/
def depthBelow (start path : String) : Nat :=
  (path.toList.drop start.length).count '/' +
    if start.toList.getLast? = some '/' && start.length < path.length then 1 else 0

/-- Find files by their names and kinds. -/
def Call.findFiles (call : Call) : Effect :=
  let isPath (a : List Char) : Bool := a.head? != some '-' && a != ['!'] && a != ['(']
  let starts := call.arguments.takeWhile isPath
  match readTests false (call.arguments.drop starts.length) with
  | none => call.failing "unknown predicate" 1
  | some tests =>
      (if starts.isEmpty then [['.']] else starts).foldl
        (fun effect start =>
          let top := Text.shown start
          match call.files.land top false with
          | .ok (.found trail) =>
              let found := (entriesFrom top (FileSystem.nodeAt call.files.root trail)).filter
                fun (path, node) => tests.all fun t => t.accepts (depthBelow top path) path node
              if tests.any (·.name = "-delete") then
                { effect with
                  files := found.reverse.foldl
                    (fun files (path, _) => (files.remove path).toOption.getD files) effect.files }
              else
                let ending := if tests.any (·.name = "-print0") then '\x00' else '\n'
                effect.print (found.flatMap fun (path, _) => Text.bytesOf path ++ [ending])
          | .ok (.vacant _ _) =>
              call.complain effect ("'" ++ top ++ "': " ++ IoFault.notFound.reason) 1
          | .error fault => call.complain effect ("'" ++ top ++ "': " ++ fault.reason) 1)
        call.done

end Program
end SkillAudit
