import DriverAudit.Proofs.Imports.Tables
import DriverAudit.Scan.Scanner

/-!
# What a scan answers

A scan reads the headers, walks the import table and intersects. Events aside,
its answer is a function of the headers and of what the walk answers
(`scanBytes_value`), and it succeeds exactly when both are there
(`scanBytes_eq_ok_iff`).
-/

namespace DriverAudit

/-- What is said by the way does not change what opening an image answers. -/
theorem Image.value_load (d : ByteArray) (limits : ParseLimits) :
    (Image.load d limits).value
      = (Headers.read d).map fun h => ⟨d, h, limits, none⟩ := by
  unfold Image.load Headers.load
  cases Headers.read d <;> rfl

/-- **The table of an image that has just been opened** is what the walk
answers. -/
theorem Image.value_imports (d : ByteArray) (h : Headers)
    (limits : ParseLimits) :
    (Image.imports ⟨d, h, limits, none⟩).value.1
      = ((h.importSource d limits).walk h.optional.imports).value := by
  unfold Image.imports
  simp only [Traced.value_bind]
  split <;> exact Eq.symm ‹_›

namespace Scanner

/-- The result of a scan, given the headers and the import table. -/
def resultOf (s : Scanner) (path : String) (h : Headers) (t : ImportTable) :
    ScanResult where
  path := path
  architecture := h.optional.architecture
  machine := h.file.machine
  importedCount := t.names.size
  matched := t.names.inter s.targets

/-- **The answer of a scan**, from that of the headers and that of the walk. -/
theorem scanBytes_value (s : Scanner) (path : String) (d : ByteArray) :
    (s.scanBytes path d).value
      = match Headers.read d with
        | .error e => .error ⟨path, .image e⟩
        | .ok h =>
          match ((h.importSource d s.limits).walk h.optional.imports).value with
          | .error e => .error ⟨path, .image e⟩
          | .ok t => .ok (s.resultOf path h t) := by
  unfold scanBytes
  rw [Traced.value_bind, Image.value_load]
  cases Headers.read d with
  | error e => rfl
  | ok h =>
    simp only [Except.map, Traced.value_bind, Image.value_imports]
    cases ((h.importSource d s.limits).walk h.optional.imports).value <;> rfl

/-- **A scan succeeds** when the headers and the import table are there. -/
theorem scanBytes_eq_ok_iff {s : Scanner} {path : String} {d : ByteArray}
    {r : ScanResult} :
    (s.scanBytes path d).value = .ok r
      ↔ ∃ h, Headers.read d = .ok h ∧ ∃ t,
          ((h.importSource d s.limits).walk h.optional.imports).value = .ok t
          ∧ s.resultOf path h t = r := by
  rw [scanBytes_value]
  cases Headers.read d with
  | error e =>
    refine iff_of_false (fun h => ?_) (fun ⟨_, h, _⟩ => ?_)
    · cases h
    · cases h
  | ok h =>
    simp only [Except.ok.injEq, exists_eq_left']
    cases ((h.importSource d s.limits).walk h.optional.imports).value with
    | error e =>
      refine iff_of_false (fun h => ?_) (fun ⟨_, h, _⟩ => ?_)
      · cases h
      · cases h
    | ok t => simp

end Scanner

end DriverAudit
