import DriverAudit.Files.Error

/-!
# Why a run cannot start, or its report cannot be kept

What goes wrong with a single candidate is part of the report. What goes wrong
with the list of candidates, the settings or the report itself is an error of
the run.
-/

namespace DriverAudit

/-- **An error of a run.** -/
inductive RunError where
  /-- A file of the run cannot be used. -/
  | file (path : String) (cause : FileError)
  /-- The settings make no sense. -/
  | invalidInput (reason : String)
  /-- The settings in a file were refused. -/
  | invalidSettings (path : String) (reason : String)
  /-- A text is no document of the form that is needed. -/
  | malformed
  deriving DecidableEq, Repr

namespace RunError

/-- The text of an error. -/
def message : RunError → String
  | file path cause => "I/O error on " ++ path ++ ": " ++ cause.message
  | invalidInput reason => "Invalid input: " ++ reason
  | invalidSettings path reason =>
    "Invalid configuration in " ++ path ++ ": " ++ reason
  | malformed => "Serialization error:"

/-- **The text of an error with what lies beneath it**: an error about a file
is followed once more by the answer of the system. -/
def fullMessage : RunError → String
  | file path cause => (file path cause).message ++ ": " ++ cause.message
  | e => e.message

end RunError

end DriverAudit
