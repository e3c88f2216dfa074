import DriverAudit.Proofs.Imports.RoundTrip
import DriverAudit.Proofs.Scan.Results
import DriverAudit.Scan.Targets

/-!
# Scans of built images

What a scan answers for an image that was built can be said without the image:
its result is that of the headers and of the import table that the blueprint
asks for, and it matches the targets that the blueprint imports by name. So a
blueprint decides what a scan of its image finds.
-/

namespace DriverAudit

namespace Scanner

variable {s : Scanner} {b : Blueprint}

/-- **The result of scanning data that show a tidy blueprint** is that of what
can be seen of it. -/
theorem scanBytes_of_shows {d : ByteArray} (hb : b.Tidy) (h : b.Shows d)
    (path : String) :
    (s.scanBytes path d).value
      = .ok (s.resultOf path b.headers (b.visibleTable s.limits)) :=
  scanBytes_eq_ok_iff.2
    ⟨b.headers, h.hasHeaders.read_eq, b.visibleTable s.limits,
      Blueprint.walk_of_shows hb h, rfl⟩

/-- **The result of scanning a built image** is that of its blueprint. -/
theorem scanBytes_build (h : b.Readable s.limits) (path : String) :
    (s.scanBytes path b.build).value
      = .ok (s.resultOf path b.headers b.importedTable) := by
  rw [scanBytes_of_shows h.tidy b.shows_build,
    Blueprint.visibleTable_of_readable h]

/-- **What a scan matches** is what the table imports among the targets. -/
theorem mem_matched_resultOf {path routine : String} {h : Headers}
    {t : ImportTable} :
    routine ∈ (s.resultOf path h t).matched
      ↔ t.imports routine = true ∧ routine ∈ s.targets := by
  rw [ImportTable.imports_iff]
  exact NameSet.mem_inter

end Scanner

/-- The scanner that looks for the usual routines. -/
def sampleScanner : Scanner := .ofTargets dangerousTargets

/-- The scan of the sample. -/
theorem scanBytes_sample (path : String) :
    (sampleScanner.scanBytes path Blueprint.sample.build).value
      = .ok (sampleScanner.resultOf path Blueprint.sample.headers
          Blueprint.sample.importedTable) :=
  Scanner.scanBytes_build Blueprint.readable_sample path

end DriverAudit
