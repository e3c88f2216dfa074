import DriverAudit.Report.Tally

/-!
# The report as text

One line for each driver with a finding: its short name, the names that were
found between brackets, and how many they are. The opening brackets stand
below each other, five columns behind the end of the longest name.
-/

namespace DriverAudit

/-- The least number of blanks between a name and its findings. -/
def columnGap : Nat := 5

/-- The column in which the findings start. -/
def BatchReport.column (r : BatchReport) : Nat :=
  (r.flagged.map fun f => (Path.shortName f.path).length).foldl max 0
    + columnGap

/-- **The line of a driver.** -/
def ScanResult.line (column : Nat) (f : ScanResult) : String :=
  let name := Path.shortName f.path
  name ++ String.ofList (List.replicate (column - name.length) ' ')
    ++ "[" ++ " / ".intercalate f.matched.names ++ "] ("
    ++ toString f.matchCount ++ ")\n"

/-- **The report as text.** -/
def BatchReport.renderText (r : BatchReport) : String :=
  String.join (r.flagged.map (ScanResult.line r.column))

/-- **A summary for the terminal**, with a line for each failure. -/
def BatchReport.summary (r : BatchReport) : List String :=
  ["Candidates: " ++ toString r.totalCandidates,
   "Scanned:    " ++ toString r.scanned,
   "Errored:    " ++ toString r.failures.length]
    ++ r.failures.map (fun f => "  " ++ f.path ++ ": " ++ f.reason)
    ++ ["Flagged:    " ++ toString r.flagged.length]

end DriverAudit
