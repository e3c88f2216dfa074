import DriverAudit.Report.Document
import DriverAudit.Report.Text
import DriverAudit.Settings

/-!
# Scanning a list of candidates

A batch scans its candidates one by one, in the order of the list, and reports
on all of them. Which file a path leads to is somebody else's business: a batch
is given a function that answers for every path. How many candidates are
scanned at a time makes no difference to the report, so the number is only
mentioned.
-/

namespace DriverAudit

/-- What the system answers to reading the file of a path. -/
abbrev FileAnswer := Except FileError ByteArray

/-- The outcomes of some candidates, in their order. -/
def Scanner.outcomes (s : Scanner) (answer : String → FileAnswer) :
    List String → Traced (List Outcome)
  | [] => return []
  | path :: rest => do
    let first ← s.scanFile path (answer path)
    let others ← s.outcomes answer rest
    return first :: others

/-- **The report on the outcomes of a batch**, with a word at its end. -/
def batchReport (candidates : Nat) (outcomes : List Outcome) :
    Traced BatchReport := do
  let report ← BatchReport.ofOutcomes candidates outcomes
  Traced.emit (.batchComplete report.totalCandidates report.scanned
    report.failures.length report.flagged.length)
  return report

/-- **Scan a list of candidates.** -/
def scanBatch (s : Scanner) (workers : Nat) (answer : String → FileAnswer)
    (paths : List String) : Traced BatchReport := do
  Traced.emit (.batchStarted paths.length workers)
  let outcomes ← s.outcomes answer paths
  batchReport paths.length outcomes

/-- **The contents of the file that keeps a report.** -/
def BatchReport.contents (r : BatchReport) (format : ReportFormat)
    (targets : NameSet) (time : String) : String :=
  match format with
  | .text => r.renderText
  | .json => r.renderJson targets time

/-- The outcome of keeping a report, given what the system answers to writing
its file. -/
def reportKept {α : Type} (target : ReportTarget)
    (answer : Except FileError α) : Traced (Except RunError α) :=
  match answer with
  | .error cause => return .error (.file target.output cause)
  | .ok a => do
    Traced.emit (.reportWritten target.output target.format)
    return .ok a

end DriverAudit
