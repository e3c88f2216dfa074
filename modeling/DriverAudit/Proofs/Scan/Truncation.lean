import DriverAudit.Proofs.Image.HeaderExtent
import DriverAudit.Proofs.Scan.BuiltImages

/-!
# Cut files are noticed

A file that is cut short is never taken for a smaller file that imports less.
Two places decide what a cut does: the extent of the headers, and the end of
the record of zeros that ends the import descriptors. A cut before the first
leaves a file whose headers are out of bounds, a cut between the two leaves
descriptors without an end mark, and only a cut behind both leaves a file that
is scanned. What else may have been cut off – names, thunks – is not essential
and costs no more than the imports it held.

The places may come in either order, and the headers and the descriptors may
overlap. Nothing is assumed of the file but that it is scanned when whole.
-/

namespace DriverAudit

/-! ## Cut files -/

/-- **Where the import descriptors of a file end**: at the end of their end
mark, or nowhere (which is written zero) when the file has none. -/
inductive DescriptorsEnd (d : ByteArray) (h : Headers) : Nat → Prop
  /-- The file has no import directory. -/
  | absent (address_eq : h.optional.imports.address = 0) : DescriptorsEnd d h 0
  /-- The directory locates descriptors, and behind `count` of them there is a
  record of zeros. -/
  | sentinel (offset count : Nat)
      (address_ne : h.optional.imports.address ≠ 0)
      (mapped : h.sections.fileOffset h.optional.imports.address = .ok offset)
      (live : ∀ i < count, RecordArray.Live d Descriptor.byteSize offset i)
      (blank : RecordArray.Blank d Descriptor.byteSize offset count) :
      DescriptorsEnd d h
        (RecordArray.recordOffset Descriptor.byteSize offset (count + 1))

variable {c d : ByteArray} {h : Headers}

/-- The descriptors of a file whose table can be walked have an end. -/
theorem exists_descriptorsEnd {limits : ParseLimits} {t : ImportTable}
    (hwalk : ((h.importSource d limits).walk h.optional.imports).value
      = .ok t) : ∃ last, DescriptorsEnd d h last := by
  obtain ⟨hzero, _⟩ | ⟨hne, offset, hoffset, htable⟩ :=
    ImportSource.walk_eq_ok_iff.1 hwalk
  · exact ⟨0, .absent hzero⟩
  · have hfits : RecordArray.Fits d Descriptor.byteSize offset
        ((h.importSource d limits).descriptorArray offset) :=
      RecordArray.fits_measure (by decide)
    exact ⟨_, .sentinel offset _ hne hoffset hfits.live
      (hfits.blank (ImportSource.tableAt_eq_ok_iff.1 htable).1)⟩

/-- **A walk of a cut file** finds a table when the end of the descriptors
survives, and else says that they are truncated. -/
theorem walk_of_begins (hc : Begins c d) {last : Nat}
    (hend : DescriptorsEnd d h last) (limits : ParseLimits) :
    (last ≤ c.size → ∃ t,
        ((h.importSource c limits).walk h.optional.imports).value = .ok t)
      ∧ (c.size < last → ∃ offset,
        ((h.importSource c limits).walk h.optional.imports).value
          = .error (.importTableTruncated offset)) := by
  cases hend with
  | absent hzero =>
    refine ⟨fun _ => ?_, fun hlt => absurd hlt (Nat.not_lt_zero _)⟩
    exact ⟨_, ImportSource.walk_eq_ok_iff.2 (Or.inl ⟨hzero, rfl⟩)⟩
  | sentinel offset count hne hmapped hlive hblank =>
    have hending := RecordArray.ending_measure_of_begins hc (by decide) hlive
      hblank
    have hwalk : ((h.importSource c limits).walk h.optional.imports).value
        = ((h.importSource c limits).tableAt offset).value :=
      ImportSource.walk_value_of_mapped hne hmapped
    rw [hwalk, ImportSource.tableAt_value]
    constructor
    · intro hsize
      have hterm : ((h.importSource c limits).descriptorArray offset).ending
          = .terminator := hending.2 hsize
      rw [hterm]
      exact ⟨_, rfl⟩
    · intro hsize
      cases he : ((h.importSource c limits).descriptorArray offset).ending with
      | terminator => exact absurd (hending.1 he) (Nat.not_le.2 hsize)
      | endOfFile => exact ⟨_, rfl⟩

/-- **A cut is never silent.** Of a file that is scanned when whole, the first
`k` bytes are no image when they are less than a word, out of bounds when they
do not hold the extent of the headers, truncated when they do not hold the end
of the descriptors, and scanned when they hold both – whatever the limits and
the targets, and with the architecture and machine of the whole file. -/
theorem scanBytes_extract {s : Scanner} {path : String} {r : ScanResult}
    (hscan : (s.scanBytes path d).value = .ok r) :
    ∃ h last, Headers.read d = .ok h ∧ DescriptorsEnd d h last
      ∧ ∀ (s' : Scanner) (path' : String) (k : Nat), k ≤ d.size →
        (k < 2 → (s'.scanBytes path' (d.extract 0 k)).value
          = .error ⟨path', .image .notAnImage⟩)
        ∧ (2 ≤ k → k < h.extent → ∃ offset width,
          (s'.scanBytes path' (d.extract 0 k)).value
            = .error ⟨path', .image (.unreadable
                (.outOfBounds offset width k))⟩)
        ∧ (h.extent ≤ k → k < last → ∃ offset,
          (s'.scanBytes path' (d.extract 0 k)).value
            = .error ⟨path', .image (.importTableTruncated offset)⟩)
        ∧ (h.extent ≤ k → last ≤ k → ∃ r',
          (s'.scanBytes path' (d.extract 0 k)).value = .ok r'
            ∧ r'.architecture = r.architecture ∧ r'.machine = r.machine) := by
  obtain ⟨h, hread, t, hwalk, rfl⟩ := Scanner.scanBytes_eq_ok_iff.1 hscan
  obtain ⟨last, hend⟩ := exists_descriptorsEnd hwalk
  obtain ⟨_, hneeds⟩ := Headers.needs_read hread
  refine ⟨h, last, hread, hend, fun s' path' k hk => ?_⟩
  have hbegins := begins_extract d k
  have hsize : (d.extract 0 k).size = k := by
    rw [ByteArray.size_extract, Nat.sub_zero, Nat.min_eq_left hk]
  -- from here on only the size of the cut file and that it begins `d` count
  generalize d.extract 0 k = c at hbegins hsize ⊢
  subst hsize
  obtain ⟨hfound, htruncated⟩ := walk_of_begins hbegins hend s'.limits
  rw [Scanner.scanBytes_value]
  refine ⟨fun hshort => ?_, fun htwo hshort => ?_, fun hheaders hshort => ?_,
    fun hheaders hlast => ?_⟩
  · rw [Headers.read_of_size_lt hshort]
  · obtain ⟨offset, width, herror⟩ := hneeds.short c hbegins htwo hshort
    rw [herror]
    exact ⟨offset, width, rfl⟩
  · obtain ⟨offset, herror⟩ := htruncated hshort
    rw [hneeds.enough c hbegins hheaders]
    dsimp only
    rw [herror]
    exact ⟨offset, rfl⟩
  · obtain ⟨t', hok⟩ := hfound hlast
    rw [hneeds.enough c hbegins hheaders]
    dsimp only
    rw [hok]
    exact ⟨_, rfl, rfl, rfl⟩

/-- The first hundred bytes of the sample are out of bounds. -/
theorem scanBytes_extract_sample :
    (sampleScanner.scanBytes "sample.sys" Blueprint.sample.build).value
        = .ok (sampleScanner.resultOf "sample.sys" Blueprint.sample.headers
          Blueprint.sample.importedTable)
      ∧ ∃ offset width,
        (sampleScanner.scanBytes "sample.sys"
            (Blueprint.sample.build.extract 0 100)).value
          = .error ⟨"sample.sys", .image (.unreadable
              (.outOfBounds offset width 100))⟩ := by
  have hscan := scanBytes_sample "sample.sys"
  obtain ⟨h, last, hread, _, hcuts⟩ := scanBytes_extract hscan
  obtain rfl : Blueprint.sample.headers = h :=
    Except.ok.inj (Blueprint.sample.read_build.symm.trans hread)
  have hsize : 100 ≤ Blueprint.sample.build.size := by
    rw [Blueprint.size_build]
    decide
  obtain ⟨_, hshort, _, _⟩ := hcuts sampleScanner "sample.sys" 100 hsize
  exact ⟨hscan, hshort (by decide) (by decide)⟩

end DriverAudit
