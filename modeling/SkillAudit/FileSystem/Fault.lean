/-!
# Faults of file operations

The causes for which a file operation fails, each with the one text in which it is reported.
-/

namespace SkillAudit

/-- Why a file operation failed. -/
inductive IoFault where
  | notFound
  | permissionDenied
  | alreadyExists
  | notADirectory
  | isADirectory
  | notEmpty
  | invalidArgument
  | nameTooLong
  | tooManyLinks
  | notExecutable
  | notText
  | nulInName
  deriving DecidableEq, Repr

/-- The bare name of a fault. -/
def IoFault.reason : IoFault → String
  | .notFound => "No such file or directory"
  | .permissionDenied => "Permission denied"
  | .alreadyExists => "File exists"
  | .notADirectory => "Not a directory"
  | .isADirectory => "Is a directory"
  | .notEmpty => "Directory not empty"
  | .invalidArgument => "Invalid argument"
  | .nameTooLong => "File name too long"
  | .notExecutable => "Exec format error"
  | .tooManyLinks => "Too many levels of symbolic links"
  | .notText => "Invalid or incomplete multibyte or wide character"
  | .nulInName => "Invalid argument"

/-- The report of a fault. -/
def IoFault.message : IoFault → String
  | .notFound => "No such file or directory (os error 2)"
  | .permissionDenied => "Permission denied (os error 13)"
  | .alreadyExists => "File exists (os error 17)"
  | .notADirectory => "Not a directory (os error 20)"
  | .isADirectory => "Is a directory (os error 21)"
  | .invalidArgument => "Invalid argument (os error 22)"
  | .nameTooLong => "File name too long (os error 36)"
  | .notExecutable => "Exec format error (os error 8)"
  | .notEmpty => "Directory not empty (os error 39)"
  | .tooManyLinks => "Too many levels of symbolic links (os error 40)"
  | .notText => "stream did not contain valid UTF-8"
  | .nulInName => "file name contained an unexpected NUL byte"

end SkillAudit
