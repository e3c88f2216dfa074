import DriverAudit.Image
import DriverAudit.Scan.Targets

/-!
# Scanning one candidate

A scan opens an image, reads its import table and keeps the names that are
among the targets. A result is about one file and carries its path; so does a
failure.

The size of a file is looked at before its contents. A file of exactly the
limit is still read.
-/

namespace DriverAudit

/-- **What the scan of a candidate found.** -/
structure ScanResult where
  path : String
  architecture : Architecture
  machine : Machine
  /-- How many different names are imported. -/
  importedCount : Nat
  /-- The imported names that were looked for. -/
  matched : NameSet
  deriving DecidableEq

/-- Whether anything was found. -/
def ScanResult.isFlagged (r : ScanResult) : Bool := !r.matched.isEmpty

/-- How much was found. -/
def ScanResult.matchCount (r : ScanResult) : Nat := r.matched.size

/-- **What to look for, and how far to go.** -/
structure Scanner where
  targets : NameSet
  maxFileSize : Nat
  limits : ParseLimits

namespace Scanner

/-- The size above which a file is not read unless settings say otherwise. -/
def defaultMaxFileSize : Nat := 64 * 1024 * 1024

/-- A scan for some targets that is limited in no special way. -/
def ofTargets (targets : NameSet) : Scanner :=
  ⟨targets, defaultMaxFileSize, .default⟩

/-- **The scan of a file's contents.** -/
def scanBytes (s : Scanner) (path : String) (d : ByteArray) :
    Traced (Except ScanFailure ScanResult) := do
  match ← Image.load d s.limits with
  | .error e => return .error ⟨path, .image e⟩
  | .ok image =>
    match (← image.imports).1 with
    | .error e => return .error ⟨path, .image e⟩
    | .ok table =>
      let names := table.names
      let matched := names.inter s.targets
      Traced.emit (.importsWalked path names.size table.skippedModules
        table.skippedEntries table.limitedModules)
      Traced.emitIf (!matched.isEmpty) (.targetsMatched path matched)
      return .ok
        { path, architecture := image.architecture, machine := image.machine,
          importedCount := names.size, matched }

end Scanner

/-- Whether a file of some size may be read: a look at its size, which is
said, and a verdict. -/
def checkSize (path : String) (limit size : Nat) : Traced (Except OpenError Unit) :=
  do
    Traced.emit (.fileOpened path size limit)
    if limit < size then
      Traced.emit (.fileTooLarge path size limit)
      return .error (.tooLarge limit size)
    else return .ok ()

/-- **What there is to an opened file**, given what the system answers to
opening it: its size, and its contents if they can be mapped. Nothing needs to
be mapped of a file that has no size, and nothing can be mapped of a
directory. -/
def openedFile (answer : Except FileError ByteArray) :
    Except FileError (Nat × Except FileError ByteArray) :=
  match answer with
  | .ok d => .ok (d.size, .ok d)
  | .error (.directory size) =>
    .ok (size, if size = 0 then .ok .empty else .error .unmappable)
  | .error e => .error e

/-- **The contents of a file** within a size limit, given what the system
answers to opening it. -/
def readBounded (path : String) (limit : Nat)
    (answer : Except FileError ByteArray) :
    Traced (Except OpenError ByteArray) := do
  match openedFile answer with
  | .error e => return .error (.system e)
  | .ok (size, mapped) =>
    match ← checkSize path limit size with
    | .error e => return .error e
    | .ok _ => return mapped.mapError .system

/-- **The scan of a file**, given what the system answers to opening it. -/
def Scanner.scanFile (s : Scanner) (path : String)
    (answer : Except FileError ByteArray) :
    Traced (Except ScanFailure ScanResult) := do
  match ← readBounded path s.maxFileSize answer with
  | .error e => return .error ⟨path, .file e⟩
  | .ok d => s.scanBytes path d

end DriverAudit
