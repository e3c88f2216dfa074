import DriverAudit.Files.SystemText

/-!
# Why a file cannot be used

The system refuses to open, read or write a file for a reason that it states
by a number and a short text. A candidate is also refused when it is larger
than a scan is willing to look at.

A directory is a case of its own. It opens like a file and has a size, but what
it holds can be neither read as text nor mapped as an image, and the system
gives a different reason for each.
-/

namespace DriverAudit

/-- **Why the system refuses a file.** -/
inductive FileError where
  | notFound
  | permissionDenied
  | notADirectory
  | isADirectory
  | nameTooLong
  /-- A directory that was opened as a file, with the size that the system
  states for it. -/
  | directory (size : Nat)
  /-- A reason that the system knows by its number. -/
  | coded (code : Int)
  /-- A path with a zero character in it, which no file can have. -/
  | zeroInPath
  /-- The contents are no UTF-8, where text was expected. -/
  | invalidText
  /-- Any other reason, by its text. -/
  | other (text : String)
  deriving DecidableEq, Repr

namespace FileError

/-- A path leads through more links than are followed. -/
def tooManyLinks : FileError := coded 40

/-- What was opened cannot be mapped. -/
def unmappable : FileError := coded 19

/-- The reason that the system's number stands for. -/
def ofCode : Int → FileError
  | 2 => notFound
  | 13 => permissionDenied
  | 20 => notADirectory
  | 21 => isADirectory
  | 36 => nameTooLong
  | code => coded code

/-- The text of a reason. -/
def message : FileError → String
  | notFound => SystemText.numbered 2
  | permissionDenied => SystemText.numbered 13
  | notADirectory => SystemText.numbered 20
  | isADirectory => SystemText.numbered 21
  | nameTooLong => SystemText.numbered 36
  | directory _ => SystemText.numbered 21
  | coded code => SystemText.numbered code
  | zeroInPath => "file name contained an unexpected NUL byte"
  | invalidText => "stream did not contain valid UTF-8"
  | other text => text

/-- Whatever stands for a number, its text is that of the number. -/
@[simp]
theorem message_ofCode (code : Int) :
    (ofCode code).message = SystemText.numbered code := by
  unfold ofCode
  split <;> rfl

end FileError

/-- **Why a candidate was not read.** -/
inductive OpenError where
  /-- It is larger than the limit. -/
  | tooLarge (limit found : Nat)
  | system (cause : FileError)
  deriving DecidableEq, Repr

/-- The text of an unread candidate. -/
def OpenError.message : OpenError → String
  | tooLarge limit found =>
    "File size of " ++ toString found
      ++ " bytes exceeds the maximum allowed size of " ++ toString limit
      ++ " bytes."
  | system cause => "An underlying I/O error occurred: " ++ cause.message

end DriverAudit
