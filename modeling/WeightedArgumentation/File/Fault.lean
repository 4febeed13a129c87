/-!
# File faults

The ways in which reading or writing a text file fails.
-/

namespace WeightedArgumentation

/-- Why a file cannot be read or written. -/
inductive FileFault
  | notFound
  | permissionDenied
  | notDirectory
  | isDirectory
  | noSpace
  | nameTooLong
  | nulInPath
  | notText
  | other (message : String)
  deriving DecidableEq, Repr

/-- The message of a fault, with the number the operating system gives it. -/
def FileFault.message : FileFault → String
  | .notFound => "No such file or directory (os error 2)"
  | .permissionDenied => "Permission denied (os error 13)"
  | .notDirectory => "Not a directory (os error 20)"
  | .isDirectory => "Is a directory (os error 21)"
  | .noSpace => "No space left on device (os error 28)"
  | .nameTooLong => "File name too long (os error 36)"
  | .nulInPath => "file name contained an unexpected NUL byte"
  | .notText => "stream did not contain valid UTF-8"
  | .other message => message

end WeightedArgumentation
