import DriverAudit.Files.Error
import DriverAudit.Image.Error

/-!
# Why a candidate has no result

A candidate that was not scanned is never dropped: it is carried through the
batch with its path and the reason, whether the file could not be read or what
it holds is no image.
-/

namespace DriverAudit

/-- **What kept a candidate from being scanned.** -/
inductive ScanCause where
  /-- The file could not be read. -/
  | file (error : OpenError)
  /-- What was read is not an image with an intact import table. -/
  | image (error : ImageError)
  deriving DecidableEq, Repr

/-- The text of a cause. -/
def ScanCause.message : ScanCause → String
  | file error => error.message
  | image error => error.message

/-- **A candidate that was not scanned.** -/
structure ScanFailure where
  path : String
  cause : ScanCause
  deriving DecidableEq, Repr

/-- The text of a failure, which names the file first. -/
def ScanFailure.message (f : ScanFailure) : String :=
  f.path ++ ": " ++ f.cause.message

end DriverAudit
