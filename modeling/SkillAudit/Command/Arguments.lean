import SkillAudit.Report.Format
import SkillAudit.Text.Search

/-!
# Arguments

The words of a command line are read from left to right, and the first thing that ends the reading
wins: a mistake, or a request for help or for the version.  The name of a command counts as such in
the first place only.  After a bare double dash every word is an operand.

Each command takes its own options; colors, verbosity and help are for all of them.
-/

namespace SkillAudit
namespace Command

/-- What can be asked for. -/
inductive Verb where
  | validate
  | validateAll
  | checkTools
  | listRules
  | explain
  deriving DecidableEq, Repr

/-- An option. -/
inductive Switch where
  | format
  | output
  | strict
  | config
  | noColor
  | verbose
  | help
  | version
  deriving DecidableEq, Repr

/-- What the one operand of a command is. -/
inductive Operand where
  | absent
  | optionalPath
  | path
  | ruleId
  deriving DecidableEq, Repr

/-- What the words say. -/
structure Options where
  operand : Option String := none
  format : Option Format := none
  output : Option String := none
  strict : Bool := false
  config : Option String := none
  noColor : Bool := false
  verbosity : Nat := 0
  deriving DecidableEq, Repr

/-- What ends the reading of words before their end. -/
inductive Stop where
  | usageError
  | help (usage : String)
  | version
  deriving DecidableEq, Repr

namespace Verb

/-- The command of a name. -/
def ofText? : String → Option Verb
  | "validate-all" => some .validateAll
  | "check-tools" => some .checkTools
  | "list-rules" => some .listRules
  | "explain" => some .explain
  | _ => none

/-- The options of a command. -/
def switches : Verb → List Switch
  | .validate => [.format, .output, .strict, .config, .noColor, .verbose, .help, .version]
  | .validateAll => [.format, .strict, .config, .noColor, .verbose, .help]
  | .checkTools => [.config, .noColor, .verbose, .help]
  | .listRules => [.noColor, .verbose, .help]
  | .explain => [.noColor, .verbose, .help]

/-- The operand of a command. -/
def operand : Verb → Operand
  | .validate => .optionalPath
  | .validateAll => .path
  | .checkTools => .absent
  | .listRules => .absent
  | .explain => .ruleId

/-- The line that shows how a command is called. -/
def usage : Verb → String
  | .validate => "Usage: oxidized-skill-lint [OPTIONS] [PATH]"
  | .validateAll => "Usage: oxidized-skill-lint validate-all [OPTIONS] <PATH>"
  | .checkTools => "Usage: oxidized-skill-lint check-tools [OPTIONS]"
  | .listRules => "Usage: oxidized-skill-lint list-rules [OPTIONS]"
  | .explain => "Usage: oxidized-skill-lint explain [OPTIONS] <RULE_ID>"

end Verb

/-- The line that shows how help is called. -/
def helpUsage : String := "Usage: oxidized-skill-lint help [COMMAND]..."

namespace Switch

/-- The option of a long name. -/
def ofLong? : String → Option Switch
  | "format" => some .format
  | "output" => some .output
  | "strict" => some .strict
  | "config" => some .config
  | "no-color" => some .noColor
  | "verbose" => some .verbose
  | "help" => some .help
  | "version" => some .version
  | _ => none

/-- The option of a letter. -/
def ofShort? : Char → Option Switch
  | 'f' => some .format
  | 'o' => some .output
  | 'v' => some .verbose
  | 'h' => some .help
  | 'V' => some .version
  | _ => none

/-- Whether an option takes a value. -/
def takesValue : Switch → Bool
  | .format | .output | .config => true
  | _ => false

end Switch

namespace Options

/-- Take the operand; there is at most one, and a path is not empty. -/
def withOperand (options : Options) (kind : Operand) (word : String) : Except Stop Options :=
  if options.operand.isSome then
    .error .usageError
  else
    match kind with
    | .absent => .error .usageError
    | .ruleId => .ok { options with operand := some word }
    | .optionalPath | .path =>
        if word = "" then .error .usageError else .ok { options with operand := some word }

/-- Take an option with a value; none is given twice. -/
def withValue (options : Options) (switch : Switch) (value : String) : Except Stop Options :=
  match switch with
  | .format =>
      match options.format, Format.ofText? value with
      | none, some format => .ok { options with format := some format }
      | _, _ => .error .usageError
  | .output =>
      if options.output.isSome || value = "" then .error .usageError
      else .ok { options with output := some value }
  | .config =>
      if options.config.isSome || value = "" then .error .usageError
      else .ok { options with config := some value }
  | _ => .error .usageError

/-- Take an option without a value; only verbosity is asked for more than once. -/
def withFlag (options : Options) (verb : Verb) (switch : Switch) : Except Stop Options :=
  match switch with
  | .strict =>
      if options.strict then .error .usageError else .ok { options with strict := true }
  | .noColor =>
      if options.noColor then .error .usageError else .ok { options with noColor := true }
  | .verbose => .ok { options with verbosity := options.verbosity + 1 }
  | .help => .error (.help verb.usage)
  | .version => .error .version
  | _ => .error .usageError

end Options

/-- Read the letters of a word after its dash; a letter that takes a value has the rest of the word
for it, or asks for the next word. -/
def readLetters (verb : Verb) :
    Options → List Char → Except Stop (Options × Option Switch)
  | options, [] => .ok (options, none)
  | options, letter :: rest =>
      match Switch.ofShort? letter with
      | none => .error .usageError
      | some switch =>
          if !verb.switches.contains switch then
            .error .usageError
          else if switch.takesValue then
            match rest with
            | [] => .ok (options, some switch)
            | '=' :: value =>
                (options.withValue switch (String.ofList value)).map fun options =>
                  (options, none)
            | value =>
                (options.withValue switch (String.ofList value)).map fun options =>
                  (options, none)
          else
            match options.withFlag verb switch with
            | .ok options => readLetters verb options rest
            | .error stop => .error stop

/-- Read a long option, given without its dashes. -/
def readLong (verb : Verb) (options : Options) (word : List Char) :
    Except Stop (Options × Option Switch) :=
  let (name, value) :=
    match Text.cutAt? '=' word with
    | some (name, value) => (name, some value)
    | none => (word, none)
  match Switch.ofLong? (String.ofList name) with
  | none => .error .usageError
  | some switch =>
      if !verb.switches.contains switch then
        .error .usageError
      else if switch.takesValue then
        match value with
        | none => .ok (options, some switch)
        | some value =>
            (options.withValue switch (String.ofList value)).map fun options => (options, none)
      else
        match value with
        | some _ => .error .usageError
        | none => (options.withFlag verb switch).map fun options => (options, none)

/-- Whether a word is an operand or a value by its look: it is a dash or does not start with one. -/
def isPlain (word : String) : Bool :=
  word = "-" || !Text.startsWith ['-'] word.toList

/-- Read the words of a command.  `pending` is an option that waits for its value, and `literal`
says that only operands follow. -/
def readWords (verb : Verb) :
    (literal : Bool) → (pending : Option Switch) → Options → List String → Except Stop Options
  | _, none, options, [] => .ok options
  | _, some _, _, [] => .error .usageError
  | literal, some switch, options, word :: rest =>
      if isPlain word && !literal then
        match options.withValue switch word with
        | .ok options => readWords verb literal none options rest
        | .error stop => .error stop
      else
        .error .usageError
  | true, none, options, word :: rest =>
      match options.withOperand verb.operand word with
      | .ok options => readWords verb true none options rest
      | .error stop => .error stop
  | false, none, options, word :: rest =>
      if word = "--" then
        readWords verb true none options rest
      else if isPlain word then
        match options.withOperand verb.operand word with
        | .ok options => readWords verb false none options rest
        | .error stop => .error stop
      else
        let read :=
          match word.toList with
          | '-' :: '-' :: name => readLong verb options name
          | letters => readLetters verb options letters.tail
        match read with
        | .ok (options, pending) => readWords verb false pending options rest
        | .error stop => .error stop

/-- Whether the operand that a command needs is there. -/
def hasOperand (verb : Verb) (options : Options) : Bool :=
  match verb.operand with
  | .path | .ruleId => options.operand.isSome
  | .absent | .optionalPath => true

/-- Read the words after the name of a command. -/
def readVerb (verb : Verb) (words : List String) : Except Stop (Verb × Options) :=
  match readWords verb false none {} words with
  | .error stop => .error stop
  | .ok options => if hasOperand verb options then .ok (verb, options) else .error .usageError

/-- Read the words after a request for help, which name a command or nothing. -/
def readHelp : List String → Stop
  | [] => .help Verb.validate.usage
  | ["help"] => .help helpUsage
  | [word] =>
      match Verb.ofText? word with
      | some verb => .help verb.usage
      | none => .usageError
  | _ => .usageError

/-- Read a command line. -/
def readArguments (words : List String) : Except Stop (Verb × Options) :=
  match words with
  | "help" :: rest => .error (readHelp rest)
  | word :: rest =>
      match Verb.ofText? word with
      | some verb => readVerb verb rest
      | none => readVerb .validate words
  | [] => readVerb .validate []

end Command
end SkillAudit
