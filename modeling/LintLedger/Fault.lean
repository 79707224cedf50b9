/-!
# Faults of reading and writing

Why the system refused to read or write, and the words for it. Following a path and reading or
writing a file fails as the disk has it, so no fault stands for a right that is missing. What an
output gives as its reason is left open.
-/

namespace LintLedger

inductive Fault where
  | notFound
  | notDirectory
  | isDirectory
  | noSpace
  | nameTooLong
  | zeroInName
  | notText
  | closed
  | other (words : String)
  deriving DecidableEq, Repr

namespace Fault

def message : Fault → String
  | .notFound => "No such file or directory (os error 2)"
  | .notDirectory => "Not a directory (os error 20)"
  | .isDirectory => "Is a directory (os error 21)"
  | .noSpace => "No space left on device (os error 28)"
  | .nameTooLong => "File name too long (os error 36)"
  | .zeroInName => "file name contained an unexpected NUL byte"
  | .notText => "stream did not contain valid UTF-8"
  | .closed => "closed"
  | .other words => words

end Fault

end LintLedger
