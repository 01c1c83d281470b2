/-!
# OpcodeAtlas.Disk.Fault — files that cannot be used

What is said when a file cannot be opened, mapped or written.
-/

namespace OpcodeAtlas

/-- Why a file could not be used. -/
inductive DiskFault where
  | notFound | notADirectory | isADirectory | noDevice | noSpace | nameTooLong
  /-- The path holds a NUL, with which no name can be given to the system. -/
  | nulInPath
  /-- Any other answer, in the system's words. -/
  | other (words : String)
deriving DecidableEq, Repr

/-- The wording of the operating system. -/
def DiskFault.message : DiskFault → String
  | .notFound => "No such file or directory (os error 2)"
  | .noDevice => "No such device (os error 19)"
  | .notADirectory => "Not a directory (os error 20)"
  | .isADirectory => "Is a directory (os error 21)"
  | .noSpace => "No space left on device (os error 28)"
  | .nameTooLong => "File name too long (os error 36)"
  | .nulInPath => "file name contained an unexpected NUL byte"
  | .other words => words

end OpcodeAtlas
