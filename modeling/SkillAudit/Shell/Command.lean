/-!
# Shell commands

The commands of the language in which interpreters may be written.  A script is a text of bytes; a
byte is a character below 256 here.  A word is a list of pieces, which are expanded when the
command is run.
-/

namespace SkillAudit
namespace Shell

mutual

/-- A piece of a word; a quoted piece is never split. -/
inductive Piece where
  | literal (quoted : Bool) (text : List Char)
  /-- The home directory, written as a tilde. -/
  | home
  /-- The value of a parameter. -/
  | value (quoted : Bool) (name : String)
  /-- The number of characters of a parameter. -/
  | size (name : String)
  /-- Another word for a parameter that is not set; with `orEmpty` also for an empty one, and with
  `assigns` the parameter is set to the word. -/
  | fallback (quoted orEmpty assigns : Bool) (name : String) (word : List Piece)
  /-- Another word for a parameter that is set; with `orEmpty` only when it is not empty. -/
  | replacement (quoted orEmpty : Bool) (name : String) (word : List Piece)
  /-- The value of a parameter, without which the script ends with a message. -/
  | demand (quoted orEmpty : Bool) (name : String) (message : List Piece)
  /-- The value of a parameter without what a pattern matches at one end. -/
  | trimmed (quoted atEnd longest : Bool) (name : String) (pattern : List Piece)
  /-- The value of an arithmetic expression. -/
  | arithmetic (quoted : Bool) (expression : List Piece)
  /-- What a command prints. -/
  | printed (quoted : Bool) (body : Command)
  /-- An expansion that has no meaning. -/
  | unfit

/-- A change of where a descriptor leads. -/
inductive Redirection where
  /-- To where another descriptor leads, which the word names. -/
  | duplicate (descriptor : Nat) (source : List Piece)
  | readFrom (descriptor : Nat) (path : List Piece)
  | writeTo (descriptor : Nat) (appends clobbers : Bool) (path : List Piece)
  | readAndWrite (descriptor : Nat) (path : List Piece)
  /-- To a text that stands in the script. -/
  | content (descriptor : Nat) (text : List Piece)

/-- A command. -/
inductive Command where
  | simple
      (line : Nat)
      (assignments : List (String × List Piece))
      (words : List (List Piece))
      (redirections : List Redirection)
  | pipeline (commands : List Command)
  | negation (body : Command)
  | andThen (first second : Command)
  | orElse (first second : Command)
  | background (body : Command)
  | sequence (commands : List Command)
  | branch (arms : List (Command × Command)) (otherwise : Option Command)
  /-- A loop that goes on while its condition ends as asked for. -/
  | loop (whileTrue : Bool) (condition body : Command)
  /-- A loop over words, or over the arguments. -/
  | each (line : Nat) (name : String) (words : Option (List (List Piece))) (body : Command)
  | select (line : Nat) (subject : List Piece) (arms : List (List (List Piece) × Command))
  | subshell (line : Nat) (body : Command)
  | define (name : String) (body : Command)
  | redirected (line : Nat) (body : Command) (redirections : List Redirection)

end

/-- A word before expansion. -/
abbrev Word := List Piece

end Shell
end SkillAudit
