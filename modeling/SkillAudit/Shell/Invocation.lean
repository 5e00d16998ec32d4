import SkillAudit.Shell.Setting

/-!
# Calls of the shell

What the arguments of a call of the shell ask for: options first, then a script as a file or, after
the option for it, as a text, and last the arguments of the script.  Without a script one is read
from the input.
-/

namespace SkillAudit
namespace Shell

/-- Where the script of a call comes from. -/
inductive ScriptSource where
  | file (path : List Char)
  | text (script : List Char)
  | input

/-- What a call of the shell asks for. -/
structure Invocation where
  /-- The options that are switched, with whether they are switched on. -/
  settings : List (Bool × Char) := []
  source : ScriptSource
  /-- The name of the script; missing for the name by which the shell was called. -/
  name? : Option (List Char) := none
  arguments : List (List Char) := []

namespace Invocation

/-- The switched options at the start of the words of a call, and the other words. -/
def readSettings : List (List Char) → Except String (List (Bool × Char) × List (List Char))
  | [] => .ok ([], [])
  | word :: rest =>
      let switch (on : Bool) (letters : List Char) :
          Except String (List (Bool × Char) × List (List Char)) := do
        let sign := if on then "-" else "+"
        let known := 'c' :: 'o' :: optionLetters
        match letters.find? fun c => !known.contains c with
        | some c => .error ("Illegal option " ++ sign ++ c.toString)
        | none =>
            let settings := (letters.filter (· != 'o')).map fun c => (on, c)
            if letters.contains 'o' then
              match rest with
              | [] => .ok (settings, [])
              | name :: rest =>
                  match optionTable.lookup (String.ofList name) with
                  | none => .error ("Illegal option " ++ sign ++ "o " ++ Text.shown name)
                  | some letter =>
                      let (more, after) ← readSettings rest
                      return (settings ++ letter.toList.map (fun c => (on, c)) ++ more, after)
            else
              let (more, after) ← readSettings rest
              return (settings ++ more, after)
      match word with
      | ['-'] | ['-', '-'] => .ok ([], rest)
      | '-' :: letters => switch true letters
      | '+' :: c :: letters => switch false (c :: letters)
      | _ => .ok ([], word :: rest)

/-- What the arguments of a call ask for. -/
def ofArguments (arguments : List (List Char)) : Except String Invocation := do
  let (settings, words) ← readSettings arguments
  let inline := settings.contains (true, 'c')
  let settings := settings.filter (·.2 != 'c')
  match words with
  | [] =>
      if inline then .error "-c requires an argument"
      else return { settings, source := .input }
  | first :: rest =>
      if inline then
        return { settings, source := .text first, name? := rest.head?, arguments := rest.tail }
      else if settings.contains (true, 's') then
        return { settings, source := .input, arguments := words }
      else
        return { settings, source := .file first, name? := some first, arguments := rest }

end Invocation
end Shell
end SkillAudit
