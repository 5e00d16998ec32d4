import SkillAudit.Path
import SkillAudit.Text.Blank
import SkillAudit.Text.Lines
import SkillAudit.Text.Lowercase
import SkillAudit.Text.Search
import SkillAudit.Text.Utf8

/-!
# Script languages

The languages of the scripts that a package ships: how a script is recognised by the extension of
its name, how its interpreter is asked to parse it without running it, and how the answer is
understood.
-/

namespace SkillAudit
namespace Script

/-- A language of scripts. -/
inductive Language where
  | python
  | shell
  deriving DecidableEq, Repr

/-- What a run of an interpreter left behind. -/
structure Run where
  /-- Missing when the run was stopped by a signal. -/
  exitCode : Option Nat
  output : List UInt8
  errors : List UInt8
  deriving DecidableEq, Repr

/-- What is known of a script. -/
inductive Outcome where
  | valid
  /-- The script does not parse. -/
  | invalid (detail : String)
  /-- Nothing could be found out. -/
  | unchecked
  deriving DecidableEq, Repr

/-- The first line of a text that is not blank, trimmed; empty when there is none. -/
def firstLine (text : String) : String :=
  String.ofList <|
    (((Text.lines text.toList).map Text.trim).find? (!·.isEmpty)).getD []

namespace Language

/-- The languages in the order in which they are tried. -/
def all : List Language := [python, shell]

/-- The name of a language. -/
def name : Language → String
  | python => "python"
  | shell => "shell"

/-- The extensions of its scripts. -/
def extensions : Language → List String
  | python => ["py"]
  | shell => ["sh", "bash"]

/-- Whether a file of this name is a script of the language; the extension may have any case. -/
def handlesName (language : Language) (name : String) : Bool :=
  match Path.nameExtension? name with
  | some extension =>
      language.extensions.contains (String.ofList (Text.lowercase extension.toList))
  | none => false

/-- Whether the file that a path names is a script of the language. -/
def handles (language : Language) (path : String) : Bool :=
  match Path.fileName? path with
  | some name => language.handlesName name
  | none => false

/-- The language of a file of this name. -/
def ofName? (name : String) : Option Language :=
  all.find? (·.handlesName name)

/-- The exit code by which the parsing program reports a syntax error. -/
def syntaxExitCode : Nat := 3

/-- The program that parses a Python file and prints the syntax error that it finds. -/
def parsingProgram : String :=
  "\n".intercalate [
    "import ast, sys",
    "try:",
    "    with open(sys.argv[1], encoding=\"utf-8\") as f:",
    "        source = f.read()",
    "except Exception:",
    "    sys.exit(0)",
    "try:",
    "    ast.parse(source, filename=sys.argv[2])",
    "except SyntaxError as e:",
    "    print(e)",
    "    sys.exit(3)",
    "except Exception:",
    "    sys.exit(0)",
    ""]

/-- The arguments by which an interpreter is asked to parse a file. -/
def arguments (language : Language) (file shown : String) : List String :=
  match language with
  | python => ["-I", "-B", "-c", parsingProgram, file, shown]
  | shell => ["-n", file]

/-- What a run of a Python interpreter says of a script. -/
def judgePython (run : Run) : Outcome :=
  if run.exitCode = some 0 then
    .valid
  else if run.exitCode = some syntaxExitCode then
    .invalid (firstLine (Text.Utf8.decodeLenient run.output))
  else
    .unchecked

/-- What a run of a shell says of a script: only what the first message calls a syntax error counts,
and the path in front of the message is dropped. -/
def judgeShell (file : String) (run : Run) : Outcome :=
  if run.exitCode = some 0 then
    .valid
  else
    let detail := firstLine (Text.Utf8.decodeLenient run.errors)
    if Text.occursIn "syntax error".toList detail.toList then
      match List.isPrefixOf? (file ++ ": ").toList detail.toList with
      | some rest => .invalid (String.ofList rest)
      | none => .invalid detail
    else
      .unchecked

/-- What a run of the interpreter says of a script. -/
def judge (language : Language) (file : String) (run : Run) : Outcome :=
  match language with
  | python => judgePython run
  | shell => judgeShell file run

end Language
end Script
end SkillAudit
