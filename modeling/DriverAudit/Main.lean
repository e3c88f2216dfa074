import DriverAudit.CommandLine
import DriverAudit.Log
import Std.Time.Format

/-!
# The program

The outermost layer: it reads the files that a run asks for, hands them to the
functions of `DriverAudit.CommandLine`, and prints what they answer. It decides
nothing itself.
-/

namespace DriverAudit.Program

/-- The reason why the system refused something. -/
def refusal : IO.Error → FileError
  | .noFileOrDirectory .. => .notFound
  | .permissionDenied .. => .permissionDenied
  | .inappropriateType _ code _ => .ofCode code.toNat
  | .otherError code _ => .ofCode code.toNat
  | .invalidArgument _ code _ => .ofCode code.toNat
  | .resourceExhausted _ code _ => .ofCode code.toNat
  | .resourceBusy code _ => .ofCode code.toNat
  | .hardwareFault code _ => .ofCode code.toNat
  | .unsupportedOperation code _ => .ofCode code.toNat
  | e => .other (toString e)

/-- What the system answers to an action on a file. -/
def answered {α : Type} (path : String) (act : IO α) :
    IO (Except FileError α) := do
  if path.toList.contains '\x00' then return .error .zeroInPath
  try
    return .ok (← act)
  catch e => return .error (refusal e)

/-- Read a file. -/
def readFile (path : String) : IO FileAnswer :=
  answered path (IO.FS.readBinFile path)

/-- What the system states about a file that can be opened. -/
def statedOf (path : String) : IO (Except FileError IO.FS.Metadata) :=
  answered path do
    let _ ← IO.FS.Handle.mk path .read
    let place ← IO.FS.realPath path
    place.metadata

/-- Scan a file, whose contents are read only if its size allows it. A
directory has a size too, but no contents. -/
def scan (s : Scanner) (path : String) : IO (Traced Outcome) := do
  match ← statedOf path with
  | .error e => return s.scanFile path (.error e)
  | .ok stated =>
    let size := stated.byteSize.toNat
    if stated.type == .dir then
      return s.scanFile path (.error (.directory size))
    let verdict := checkSize path s.maxFileSize size
    match verdict.value with
    | .error e => return ⟨.error ⟨path, .file e⟩, verdict.events⟩
    | .ok _ => return s.scanFile path (← readFile path)

/-- Scan some files, so many at a time. -/
partial def scanAll (s : Scanner) (workers : Nat) (paths : List String)
    (done : Array (Traced Outcome)) : IO (Array (Traced Outcome)) := do
  if paths.isEmpty then return done
  let tasks ← (paths.take workers).mapM fun path => IO.asTask (scan s path)
  let scanned ← tasks.mapM fun task => IO.ofExcept task.get
  scanAll s workers (paths.drop workers) (done ++ scanned)

/-- Print the events that are important enough. -/
def printEvents (asJson : Bool) (events : List Event) : IO Unit := do
  for e in events do
    if e.level.isNotable then IO.eprintln (e.line asJson)

/-- The present time in the form that reports use. -/
def now : IO String := do
  let stamp ← Std.Time.Timestamp.now
  let clock := Std.Time.PlainDateTime.ofWallTime
    (Std.Time.WallTime.ofDuration stamp.toDurationSinceUnixEpoch)
  return clock.format "uuuu-MM-dd'T'HH:mm:ss'Z'"

/-- The number of processors. -/
def processors : IO Nat := do
  try
    let lines ← IO.FS.lines "/proc/cpuinfo"
    return max 1 (lines.toList.countP (·.startsWith "processor"))
  catch _ => return 1

/-- Carry out a run, and give its exit code. -/
def carryOut (plan : CommandLine.Plan) (log : List Event → IO Unit) :
    IO UInt32 := do
  for line in plan.opening do IO.println line
  let workers := plan.settings.effectiveWorkers (← processors)
  let candidates := plan.candidates
  log [.batchStarted candidates.length workers]
  let outcomes ← scanAll plan.settings.scanner workers candidates #[]
  log (outcomes.toList.flatMap (·.events))
  let report := batchReport candidates.length
    (outcomes.toList.map (·.value))
  log report.events
  let contents := plan.contents (← now) report.value
  let target := plan.settings.report
  let kept := reportKept target
    (← answered target.output (IO.FS.writeFile target.output contents))
  log kept.events
  let output := plan.output report.value kept.value
  for line in output.stderr do IO.eprintln line
  for line in output.stdout.drop plan.opening.length do IO.println line
  return UInt32.ofNat output.exitCode

/-- A run of the program. -/
def run (program : String) (arguments : List String) : IO UInt32 := do
  match CommandLine.Request.ofArguments? arguments with
  | none =>
    IO.eprintln (CommandLine.usage program)
    return 1
  | some request =>
    let quiet := (← IO.getEnv "DRIVER_AUDIT_LOG") == some "off"
    let settings ← match request.settings? with
      | none => pure (.ok ByteArray.empty)
      | some path => readFile path
    let index ← readFile request.index
    let prepared := CommandLine.prepare request fun path =>
      if request.settings? = some path then settings else index
    match prepared.value with
    | .error e =>
      IO.eprintln e.message
      return 1
    | .ok plan =>
      let log := fun events =>
        if quiet then pure () else printEvents plan.settings.logJson events
      log prepared.events
      carryOut plan log

end DriverAudit.Program

/-- Scan the drivers that a file index lists. -/
def main (arguments : List String) : IO UInt32 := do
  let program ← IO.appPath
  DriverAudit.Program.run (program.fileName.getD "driver-audit") arguments
