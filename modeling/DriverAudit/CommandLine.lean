import DriverAudit.Batch
import DriverAudit.Candidates
import DriverAudit.Files.Store

/-!
# The command line

The program is given the export of a file index and, if wanted, a file of
settings. It scans the candidates that the index lists, keeps the report, and
says on the terminal what it found.

A run has two halves. *Preparing* it reads the settings and the index; what
goes wrong here ends the run with exit code 1 before anything is printed or
written. *Carrying it out* cannot fail: candidates that cannot be scanned are
part of the report, and a report that cannot be kept is mentioned. All files
are read before the report is written, so it does no harm if the report takes
the place of one of them.

Everything here is a function of what the program is given. The two halves are
separate functions so that a program that reads real files can put its reading
between them; `CommandLine.run` is both of them on the files of a store.
-/

namespace DriverAudit

namespace CommandLine

/-- **What the surroundings of a run contribute.** -/
structure Surroundings where
  /-- The name by which the program was called. -/
  program : String
  /-- The time of the run, as it is to appear in a report. -/
  time : String
  /-- The number of processors. -/
  processors : Nat

/-- **What the user asks for.** -/
structure Request where
  index : String
  settings? : Option String
  deriving DecidableEq, Repr

/-- The request in a list of arguments: an index, and perhaps settings. -/
def Request.ofArguments? : List String → Option Request
  | [index] => some ⟨index, none⟩
  | [index, settings] => some ⟨index, some settings⟩
  | _ => none

/-- The line that says how to call the program. -/
def usage (program : String) : String :=
  "Usage: " ++ program ++ " <file-index> [config.json]"

/-! ## Preparing a run -/

/-- **Why a run was not carried out**: what was being done, to which file, and
what was wrong with it. -/
inductive Refusal where
  | settings (path : String) (cause : RunError)
  | candidates (path : String) (cause : RunError)
  deriving DecidableEq, Repr

/-- The line that says why a run was not carried out. -/
def Refusal.message : Refusal → String
  | settings path cause =>
    "Error: loading config " ++ path ++ ": " ++ cause.fullMessage
  | candidates path cause =>
    "Error: reading candidate list " ++ path ++ ": " ++ cause.fullMessage

/-- **A run that is ready to be carried out.** -/
structure Plan where
  settings : Settings
  candidates : List String
  deriving DecidableEq, Repr

/-- The settings of a request. -/
def readSettings (r : Request) (answer : String → FileAnswer) :
    Except Refusal Settings :=
  match r.settings? with
  | none => .ok .default
  | some path => (Settings.load path (answer path)).mapError (.settings path)

/-- **Prepare a run**: first the settings, then the candidates. -/
def prepare (r : Request) (answer : String → FileAnswer) :
    Traced (Except Refusal Plan) := do
  match readSettings r answer with
  | .error e => return .error e
  | .ok settings =>
    match ← loadCandidates r.index settings.extensions (answer r.index) with
    | .error cause => return .error (.candidates r.index cause)
    | .ok candidates => return .ok ⟨settings, candidates⟩

/-! ## What is said on the terminal -/

/-- The lines before the scan. -/
def Plan.opening (p : Plan) : List String :=
  ["[~] Found " ++ toString p.candidates.length ++ " drivers.",
   "[~] Searching for the following imports: "]
    ++ p.settings.scanner.targets.names.zipIdx.map fun (name, i) =>
      "  (" ++ toString i ++ ") " ++ name

/-- The line behind the scan. -/
def closing (r : BatchReport) : String :=
  "[~] Done, found " ++ toString r.flagged.length
    ++ " potentially vulnerable drivers."

/-- The line on a report that could not be kept. -/
def unkept (e : RunError) : String := "Unable to write report: " ++ e.message

/-- The contents of the file that keeps the report of a run. -/
def Plan.contents (p : Plan) (time : String) (r : BatchReport) : String :=
  r.contents p.settings.report.format p.settings.scanner.targets time

/-! ## A whole run -/

/-- **What a run prints and how it ends.** -/
structure Output where
  exitCode : Nat
  stdout : List String
  stderr : List String
  deriving DecidableEq, Repr

/-- A run that ends with one line on the error output. -/
def Output.refused (line : String) : Output := ⟨1, [], [line]⟩

/-- The text of some lines. -/
def lines (l : List String) : String := String.join (l.map (· ++ "\n"))

/-- **What a run that was carried out prints**, given its report and whether
it was kept. -/
def Plan.output {α : Type} (p : Plan) (r : BatchReport)
    (kept : Except RunError α) : Output where
  exitCode := 0
  stdout := p.opening ++ [closing r]
  stderr :=
    (match kept with
      | .ok _ => []
      | .error e => [unkept e]) ++ r.summary

/-- **Carry out a run** on the files of a store: the output and the store it
leaves behind. -/
def Plan.carryOut (p : Plan) (env : Surroundings) (store : FileStore) :
    Traced (Output × FileStore) := do
  let workers := p.settings.effectiveWorkers env.processors
  let report ← scanBatch p.settings.scanner workers store.read p.candidates
  let contents := p.contents env.time report
  let (answer, after) :=
    store.overwrite p.settings.report.output contents.toUTF8
  let kept ← reportKept p.settings.report answer
  return (p.output report kept, after)

/-- **A run of the program** on the files of a store. -/
def run (env : Surroundings) (arguments : List String) (store : FileStore) :
    Traced (Output × FileStore) := do
  match Request.ofArguments? arguments with
  | none => return (.refused (usage env.program), store)
  | some request =>
    match ← prepare request store.read with
    | .error refusal => return (.refused refusal.message, store)
    | .ok plan => plan.carryOut env store

end CommandLine

end DriverAudit
