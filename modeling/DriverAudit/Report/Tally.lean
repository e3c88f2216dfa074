import DriverAudit.Files.Path
import DriverAudit.Scan.Scanner

/-!
# Adding up the outcomes of a batch

Every candidate has exactly one outcome, and a report accounts for all of them:
drivers with a finding are kept and ranked, drivers without one are counted,
and failures are kept with their reasons. The drivers with the most findings
come first. Drivers with equally many are ordered by their paths, and those
whose paths are spellings of one path stay in the order in which they came.

Outcomes are added one at a time to a *tally*, so that the order in which they
arrive is plain to see, and the report is made when no more are to come.
-/

namespace DriverAudit

/-- The outcome of scanning a candidate. -/
abbrev Outcome := Except ScanFailure ScanResult

/-- **What a report says about a failure.** -/
structure FailedScan where
  path : String
  reason : String
  deriving DecidableEq, Repr

/-- The entry of a failure in a report. -/
def ScanFailure.toFailedScan (f : ScanFailure) : FailedScan :=
  ⟨f.path, f.cause.message⟩

/-- **The account of a batch.** -/
structure BatchReport where
  totalCandidates : Nat
  scanned : Nat
  clean : Nat
  failures : List FailedScan
  /-- The drivers with findings, highest rank first. -/
  flagged : List ScanResult
  deriving DecidableEq

/-- **The order of drivers with findings**: more findings first, then by
path. -/
def rank : ScanResult → ScanResult → Ordering :=
  compareLex (fun a b => compare b.matchCount a.matchCount)
    (fun a b => Path.order a.path b.path)

/-- **What has been added up so far.** -/
structure Tally where
  totalCandidates : Nat
  scanned : Nat
  clean : Nat
  failures : Array FailedScan
  flagged : Array ScanResult

namespace Tally

/-- Nothing yet, of so many candidates. -/
def start (totalCandidates : Nat) : Tally := ⟨totalCandidates, 0, 0, #[], #[]⟩

/-- **Add one outcome.** -/
def record (t : Tally) : Outcome → Tally
  | .ok r =>
    if r.isFlagged then
      { t with scanned := t.scanned + 1, flagged := t.flagged.push r }
    else { t with scanned := t.scanned + 1, clean := t.clean + 1 }
  | .error f => { t with failures := t.failures.push f.toFailedScan }

/-- The event of an outcome, if it has one. -/
def eventOf? : Outcome → Option Event
  | .ok _ => none
  | .error f => some (.scanFailed f.path f.cause)

/-- **The report** on everything that has been added. -/
def report (t : Tally) : BatchReport where
  totalCandidates := t.totalCandidates
  scanned := t.scanned
  clean := t.clean
  failures := t.failures.toList
  flagged := t.flagged.toList.mergeSort fun a b => (rank a b).isLE

/-- Whether there were as many outcomes as candidates. -/
def isBalanced (t : Tally) : Bool :=
  t.scanned + t.failures.size == t.totalCandidates

/-- The report, and a word on candidates without an outcome. -/
def finish (t : Tally) : Traced BatchReport := do
  Traced.emitIf (!t.isBalanced)
    (.outcomesMissing t.totalCandidates t.scanned t.failures.size)
  return t.report

end Tally

/-- **The report on some outcomes** of so many candidates. -/
def BatchReport.ofOutcomes (totalCandidates : Nat) (outcomes : List Outcome) :
    Traced BatchReport := do
  let tally := outcomes.foldl Tally.record (.start totalCandidates)
  (⟨(), outcomes.filterMap Tally.eventOf?⟩ : Traced Unit)
  tally.finish

end DriverAudit
