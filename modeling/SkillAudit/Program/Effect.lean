import SkillAudit.Program.Condition
import SkillAudit.Program.Edit
import SkillAudit.Program.Lines
import SkillAudit.Program.Names
import SkillAudit.Program.Printing
import SkillAudit.Program.Stream

/-!
# Effects of programs

What each built-in program does when it is called.  The programs that run other programs have no
effect of their own; they are run where programs are run.
-/

namespace SkillAudit
namespace Program

/-- The effect of a call of a program that runs no other one. -/
def effect? (program : Program) (call : Call) : Option Effect :=
  match program with
  | .shell | .environment | .spread | .limited => none
  | .succeed => some call.done
  | .fail => some (call.done.withStatus 1)
  | .echo => some call.echo
  | .printf => some call.printf
  | .test => some call.test
  | .showVariables => some call.showVariables
  | .showDirectory => some call.showDirectory
  | .showUser => some (call.done.print (Text.bytesOf "root\n"))
  | .showSystem => some call.showSystem
  | .pause => some call.pause
  | .locate => some call.locate
  | .cat => some call.cat
  | .head => some call.head
  | .tail => some call.tail
  | .reverseLines => some call.reverseLines
  | .reverseText => some call.reverseText
  | .countWords => some call.countWords
  | .split => some call.split
  | .sort => some call.sort
  | .unique => some call.unique
  | .cut => some call.cut
  | .translate => some call.translate
  | .search => some call.search
  | .edit => some call.edit
  | .baseName => some call.baseName
  | .directoryName => some call.directoryName
  | .calculate => some call.calculate
  | .sequence => some call.sequence
  | .touch => some call.touch
  | .remove => some call.remove
  | .makeDirectory => some call.makeDirectory
  | .removeDirectory => some call.removeDirectory
  | .copy => some call.copy
  | .move => some call.move
  | .link => some call.link
  | .listFiles => some call.listFiles
  | .findFiles => some call.findFiles
  | .changeMode => some call.changeMode
  | .readLink => some call.readLink
  | .realPath => some call.realPath
  | .compareFiles => some call.compareFiles

end Program
end SkillAudit
