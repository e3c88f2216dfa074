import DriverAudit.Json.Writer
import DriverAudit.Report.Tally

/-!
# The report as a document

The report as JSON holds everything that the account of a batch holds, and the
targets that were looked for, so that it can be read without the settings of
the run. It also says when it was made; the time is handed in as text.
-/

namespace DriverAudit

/-- A driver with findings in the document. -/
def ScanResult.document (f : ScanResult) : Json :=
  .record
    [("path", .str f.path),
     ("architecture", .str f.architecture.label),
     ("matched", .strs f.matched.names)]

/-- A failure in the document. -/
def FailedScan.document (f : FailedScan) : Json :=
  .record [("path", .str f.path), ("reason", .str f.reason)]

/-- **The document of a report.** -/
def BatchReport.document (r : BatchReport) (targets : NameSet)
    (time : String) : Json :=
  .record
    [("generated_at", .str time),
     ("total_candidates", .nat r.totalCandidates),
     ("scanned", .nat r.scanned),
     ("clean", .nat r.clean),
     ("errored", .nat r.failures.length),
     ("targets", .strs targets.names),
     ("flagged", .array (r.flagged.map ScanResult.document)),
     ("failures", .array (r.failures.map FailedScan.document))]

/-- **The report as JSON.** -/
def BatchReport.renderJson (r : BatchReport) (targets : NameSet)
    (time : String) : String :=
  (r.document targets time).render 0

end DriverAudit
