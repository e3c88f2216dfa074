import DriverAudit.Json.Reader
import DriverAudit.Json.Writer
import DriverAudit.Report.Format
import DriverAudit.RunError
import DriverAudit.Scan.Scanner

/-!
# Settings

Every setting has a default, and a file of settings only names what it wants
to change. The file is a JSON document. Settings that belong together form a
record of their own inside it, and any record can be written in two ways: as
an object, in which members that nobody knows are ignored, or as a list of its
fields in their order, which may stop early but must not go on.

Whatever is named must be of the right form. A number has to be written in
plain digits and fit into 64 bits, a text must consist of characters, and
naming a setting twice is refused; nothing is ever corrected or guessed.
-/

namespace DriverAudit

/-- **Where the report goes, and in which form.** -/
structure ReportTarget where
  output : String
  format : ReportFormat
  deriving DecidableEq, Repr, Inhabited

/-- The target of a report unless settings name another. -/
def ReportTarget.default : ReportTarget := ⟨"log.txt", .text⟩

/-- **The settings of a run.** -/
structure Settings where
  /-- The size above which a candidate is not read. -/
  maxFileSize : Nat
  limits : ParseLimits
  /-- The routines to look for. -/
  targets : List String
  /-- The extensions that make a listed file a candidate. -/
  extensions : List String
  /-- How many candidates to scan at a time, or zero for as many as the
  machine has processors. -/
  workers : Nat
  report : ReportTarget
  /-- Whether the log is written as JSON. -/
  logJson : Bool
  deriving DecidableEq, Repr

namespace Settings

/-- **The settings of a run that nobody has set up.** -/
def default : Settings where
  maxFileSize := Scanner.defaultMaxFileSize
  limits := .default
  targets := dangerousRoutines
  extensions := ["sys"]
  workers := 0
  report := .default
  logJson := false

instance : Inhabited Settings := ⟨default⟩

/-- How many candidates to scan at a time on a machine with some number of
processors. -/
def effectiveWorkers (s : Settings) (processors : Nat) : Nat :=
  if s.workers = 0 then processors else s.workers

/-- The scanner that the settings describe. -/
def scanner (s : Settings) : Scanner :=
  ⟨NameSet.ofList s.targets, s.maxFileSize, s.limits⟩

/-! ## Reading single settings -/

/-- The value of plain decimal digits. -/
def digitsValue (cs : List Char) : Nat :=
  cs.foldl (fun n c => 10 * n + (c.toNat - 48)) 0

/-- A number of at most 64 bits, written in plain digits. -/
def readNat : Json → Option Nat
  | .number literal =>
    let cs := literal.toList
    if cs.all Json.isDigit && decide (digitsValue cs < UInt64.size) then
      some (digitsValue cs)
    else none
  | _ => none

/-- A yes or no. -/
def readBool : Json → Option Bool
  | .bool b => some b
  | _ => none

/-- A text. -/
def readString : Json → Option String
  | .string text => text.toString?
  | _ => none

/-- A list of texts. -/
def readStrings : Json → Option (List String)
  | .array items => items.mapM readString
  | _ => none

/-- The form of a report: its name, or an object whose one member has that
name and no value. -/
def readFormat : Json → Option ReportFormat
  | .string text => text.toString?.bind ReportFormat.ofKeyword?
  | .object [(key, .null)] => key.toString?.bind ReportFormat.ofKeyword?
  | _ => none

/-! ## Reading records -/

/-- The values that an object gives a field. -/
def valuesOf (members : List (String × Json)) (name : String) : List Json :=
  (members.filter (·.1 == name)).map (·.2)

/-- The one value of a field, if it has any. -/
def atMostOne : List Json → Option (Option Json)
  | [] => some none
  | [value] => some (some value)
  | _ => none

/-- The members of an object by the characters of their keys. -/
def namedMembers (members : List (Json.Text × Json)) :
    Option (List (String × Json)) :=
  members.mapM fun (key, value) => key.toString?.map fun name => (name, value)

/-- **The fields of a record**, in order, each with its value if it has one. -/
def fieldsOf (names : List String) : Json → Option (List (Option Json))
  | .object members => do
    let members ← namedMembers members
    names.mapM fun name => atMostOne (valuesOf members name)
  | .array items =>
    if items.length ≤ names.length then
      some (items.map some
        ++ List.replicate (names.length - items.length) none)
    else none
  | _ => none

/-- A field's value if it has one, else its default. -/
def orDefault {α : Type} (default : α) (read : Json → Option α) :
    Option Json → Option α
  | none => some default
  | some value => read value

/-- The record of limits on files. -/
def readFileLimits (j : Json) : Option Nat := do
  match ← fieldsOf ["max_file_size"] j with
  | [size] => orDefault Scanner.defaultMaxFileSize readNat size
  | _ => none

/-- The record of limits on a walk. -/
def readParseLimits (j : Json) : Option ParseLimits := do
  match ← fieldsOf ["max_name_len", "max_module_name_len", "max_imports"] j with
  | [name, moduleName, imports] =>
    let d := ParseLimits.default
    return { nameLength := ← orDefault d.nameLength readNat name
             moduleNameLength :=
               ← orDefault d.moduleNameLength readNat moduleName
             imports := ← orDefault d.imports readNat imports }
  | _ => none

/-- The record on candidates. -/
def readCandidates (j : Json) : Option (List String) := do
  match ← fieldsOf ["extensions"] j with
  | [extensions] => orDefault default.extensions readStrings extensions
  | _ => none

/-- The record on the report. -/
def readReport (j : Json) : Option ReportTarget := do
  match ← fieldsOf ["output", "format"] j with
  | [output, format] =>
    let d := ReportTarget.default
    return { output := ← orDefault d.output readString output
             format := ← orDefault d.format readFormat format }
  | _ => none

/-- The fields of all settings. -/
def fieldNames : List String :=
  ["io", "parse", "targets", "candidates", "workers", "report", "log_json"]

/-- **The settings in a document.** -/
def ofJson? (j : Json) : Option Settings := do
  match ← fieldsOf fieldNames j with
  | [io, parse, targets, candidates, workers, report, logJson] =>
    let d := default
    return { maxFileSize := ← orDefault d.maxFileSize readFileLimits io
             limits := ← orDefault d.limits readParseLimits parse
             targets := ← orDefault d.targets readStrings targets
             extensions := ← orDefault d.extensions readCandidates candidates
             workers := ← orDefault d.workers readNat workers
             report := ← orDefault d.report readReport report
             logJson := ← orDefault d.logJson readBool logJson }
  | _ => none

/-- **The settings in a text.** A scan that looks for nothing is refused. -/
def parse (text : String) : Except RunError Settings :=
  match (Json.parse text).bind ofJson? with
  | none => .error .malformed
  | some s =>
    if s.targets.isEmpty then
      .error (.invalidInput "target list must name at least one import")
    else .ok s

/-- **The settings in a file**, given what the system answers to reading it. -/
def load (path : String) (answer : Except FileError ByteArray) :
    Except RunError Settings :=
  match answer with
  | .error cause => .error (.file path cause)
  | .ok d =>
    match String.fromUTF8? d with
    | none => .error (.file path .invalidText)
    | some text =>
      match parse text with
      | .ok s => .ok s
      | .error e => .error (.invalidSettings path e.message)

/-! ## Writing settings -/

/-- **The settings as a document** that names every field. -/
def toJson (s : Settings) : Json :=
  .record
    [("io", .record [("max_file_size", .nat s.maxFileSize)]),
     ("parse", .record
       [("max_name_len", .nat s.limits.nameLength),
        ("max_module_name_len", .nat s.limits.moduleNameLength),
        ("max_imports", .nat s.limits.imports)]),
     ("targets", .strs s.targets),
     ("candidates", .record [("extensions", .strs s.extensions)]),
     ("workers", .nat s.workers),
     ("report", .record
       [("output", .str s.report.output),
        ("format", .str s.report.format.keyword)]),
     ("log_json", .bool s.logJson)]

end Settings

end DriverAudit
