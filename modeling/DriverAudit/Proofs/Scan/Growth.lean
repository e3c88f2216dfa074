import DriverAudit.Proofs.Image.LastingHeaders
import DriverAudit.Proofs.Scan.Detection

/-!
# Appending data loses no import

A file that goes on behind its end has the same headers and the same
descriptors, and every descriptor that led somewhere leads there still. What
the appended data can do is to make reads succeed that failed: a name gets its
terminator, a descriptor that was passed over leads somewhere, a table of
thunks that ran out of the file goes on. So a module can only gain imports, and
there can only be more modules, in between the others.

More imports cost more, and so the budget may cut off what was found before.
That is the only way in which an import can get lost: a walk of the longer file
that is not limited finds all imports that the walk of the shorter one found,
whether or not the budget had cut that one short.
-/

namespace DriverAudit

variable {c d : ByteArray} {h : Headers} {limits : ParseLimits}

/-! ## Thunks -/

/-- **A thunk that was resolved** stands for the same import when the data go
on. -/
theorem ImportSource.lasts_resolve (h : Headers) (limits : ParseLimits)
    (thunk : UInt64) :
    Lasts fun d => (h.importSource d limits).resolve thunk := by
  unfold resolve Headers.importSource
  dsimp only
  refine Lasts.choice (Lasts.const _) (Lasts.choice ?_ (Lasts.const _))
  refine Lasts.bind (Lasts.const _) fun offset => ?_
  refine Lasts.bind (Lasts.u16At offset).ofRead fun _ => ?_
  exact Lasts.bind
    (Lasts.stringAt (offset + 2) limits.nameLength).ofRead
    fun _ => Lasts.const _

/-- A thunk inside the data stays what it is. -/
theorem Begins.thunkAt_eq (hc : Begins c d) {offset : Nat}
    (hin : Inside c offset h.optional.architecture.thunkWidth) :
    (h.importSource c limits).thunkAt offset
      = (h.importSource d limits).thunkAt offset :=
  congrArg UInt64.ofNat (hc.wordAt_eq hin)

/-- The import that was found at a thunk is found there still. -/
theorem Begins.found?_eq (hc : Begins c d) {offset : Nat}
    (hin : Inside c offset h.optional.architecture.thunkWidth)
    {e : ImportEntry}
    (hfound : ((h.importSource c limits).resolutionAt offset).found? = some e) :
    ((h.importSource d limits).resolutionAt offset).found? = some e := by
  rw [ImportSource.found?_resolutionAt_eq_some_iff] at hfound ⊢
  rw [← hc.thunkAt_eq hin]
  exact ImportSource.lasts_resolve h limits _ hc hfound

/-! ## Modules -/

/-- A module keeps its imports, and may get more. -/
theorem Begins.wholeModule_subset (hc : Begins c d) (l : ImportSource.Lead) :
    ((h.importSource c limits).wholeModule l).entries
      ⊆ ((h.importSource d limits).wholeModule l).entries := by
  intro e he
  obtain ⟨name, table⟩ := l
  unfold ImportSource.wholeModule ImportSource.leadThunks at he ⊢
  cases table with
  | none => cases he
  | some offset =>
    obtain ⟨o, ho, hfound⟩ := List.mem_filterMap.1 he
    obtain ⟨i, hi, rfl⟩ := RecordArray.mem_offsets.1 ho
    have hwidth := h.optional.architecture.thunkWidth_pos
    have hlive : RecordArray.Live c _ offset i :=
      (RecordArray.fits_measure hwidth).live i hi
    exact List.mem_filterMap.2
      ⟨_, RecordArray.mem_offsets.2
        ⟨i, RecordArray.lt_count_of_begins hc hwidth hi, rfl⟩,
        hc.found?_eq hlive.1 hfound⟩

/-- **A descriptor that led somewhere** leads there when the data go on. -/
theorem ImportSource.lasts_lead (h : Headers) (limits : ParseLimits)
    (x : Descriptor) : Lasts fun d => (h.importSource d limits).lead x :=
  Lasts.bind (Lasts.const (h.sections.fileOffset x.moduleName)) fun offset =>
    Lasts.bind (Lasts.stringAt offset limits.moduleNameLength).ofRead fun _ =>
    Lasts.choice (Lasts.const _) <|
      Lasts.bind (Lasts.const (h.sections.fileOffset x.thunkAddress))
        fun _ => Lasts.const _

/-- A descriptor inside the data stays what it is. -/
theorem Begins.atOffset_eq (hc : Begins c d) {offset : Nat}
    (hin : Inside c offset Descriptor.byteSize) :
    Descriptor.atOffset c offset = Descriptor.atOffset d offset := by
  have hword : ∀ i ≤ 16, wordAt c (offset + i) 4 = wordAt d (offset + i) 4 := by
    intro i hi
    refine hc.wordAt_eq ?_
    unfold Inside Descriptor.byteSize at *
    omega
  have hfirst := hword 0 (by omega)
  rw [Nat.add_zero] at hfirst
  unfold Descriptor.atOffset
  rw [hfirst, hword 4 (by omega), hword 8 (by omega), hword 12 (by omega),
    hword 16 (by omega)]

/-- **Every whole module is still there**, with at least its imports. -/
theorem Begins.exists_mem_wholeModules (hc : Begins c d) {offset : Nat}
    {m : ImportModule}
    (hm : m ∈ (h.importSource c limits).wholeModules offset) :
    ∃ m' ∈ (h.importSource d limits).wholeModules offset,
      m.entries ⊆ m'.entries := by
  obtain ⟨k, hk, l, hlead, rfl⟩ := ImportSource.mem_wholeModules_iff.1 hm
  have hwidth : 0 < Descriptor.byteSize := by decide
  have hlive : RecordArray.Live c Descriptor.byteSize offset k :=
    (RecordArray.fits_measure hwidth).live k hk
  refine ⟨_, ImportSource.mem_wholeModules_iff.2
    ⟨k, RecordArray.lt_count_of_begins hc hwidth hk, l, ?_, rfl⟩,
    hc.wholeModule_subset l⟩
  have hlast := ImportSource.lasts_lead h limits _ hc hlead
  show (h.importSource d limits).lead (Descriptor.atOffset d _) = .ok l
  rwa [← hc.atOffset_eq hlive.1]

/-! ## Tables -/

/-- **A table is still there**, and has the imports it had unless it is
limited. -/
theorem Begins.exists_tableAt (hc : Begins c d) {offset : Nat} {t : ImportTable}
    (ht : ((h.importSource c limits).tableAt offset).value = .ok t) :
    ∃ t', ((h.importSource d limits).tableAt offset).value = .ok t'
      ∧ (t'.limitedModules = 0 → t.entries ⊆ t'.entries) := by
  have hend := (ImportSource.tableAt_eq_ok_iff.1 ht).1
  have harray : (h.importSource d limits).descriptorArray offset
      = (h.importSource c limits).descriptorArray offset :=
    RecordArray.measure_eq_of_begins hc (by decide) hend
  have ht' := ImportSource.tableAt_eq_ok_iff.2
    ⟨(congrArg (·.ending) harray).trans hend, rfl⟩
  refine ⟨_, ht', fun hlimited e he => ?_⟩
  -- the entry is one of a whole module, and those are all in the new table
  obtain ⟨m, hm, hem⟩ := ImportSource.mem_entries_wholeModules ht he
  obtain ⟨m', hm', hsubset⟩ := hc.exists_mem_wholeModules hm
  rw [← ImportSource.modules_eq_wholeModules ht' hlimited] at hm'
  exact List.mem_flatMap.2 ⟨m', hm', hsubset hem⟩

/-- **A walk that found a table** finds one when the data go on. -/
theorem Begins.exists_walk (hc : Begins c d) {t : ImportTable}
    (ht : ((h.importSource c limits).walk h.optional.imports).value = .ok t) :
    ∃ t', ((h.importSource d limits).walk h.optional.imports).value = .ok t'
      ∧ (t'.limitedModules = 0 → t.entries ⊆ t'.entries) := by
  obtain ⟨hzero, rfl⟩ | ⟨hne, offset, hmapped, htable⟩ :=
    ImportSource.walk_eq_ok_iff.1 ht
  · exact ⟨_, ImportSource.walk_value_of_absent hzero,
      fun _ => List.Subset.refl _⟩
  · obtain ⟨t', ht', hsubset⟩ := hc.exists_tableAt htable
    refine ⟨t', ?_, hsubset⟩
    exact ImportSource.walk_eq_ok_iff.2 (Or.inr ⟨hne, offset, hmapped, ht'⟩)

/-- A name that a table imports is imported by every table that has all of its
imports. -/
theorem ImportTable.names_subset {t t' : ImportTable}
    (hsubset : t.entries ⊆ t'.entries) {name : String}
    (hname : name ∈ t.names) : name ∈ t'.names := by
  obtain ⟨e, he, hename⟩ := ImportTable.mem_names_iff.1 hname
  exact ImportTable.mem_names_iff.2 ⟨e, hsubset he, hename⟩

/-! ## Scans -/

/-- **Appending data loses no detection.** A file that is scanned is scanned
with any data behind it, and has the same headers then. When the walk of the
longer file is not limited, all imports of the shorter file are among those of
the longer one, and whatever was matched is matched still. -/
theorem scanBytes_append {s : Scanner} {path : String} {d : ByteArray}
    {r : ScanResult} (hscan : (s.scanBytes path d).value = .ok r)
    (e : ByteArray) :
    ∃ h t t' r',
      Headers.read d = .ok h ∧ Headers.read (d ++ e) = .ok h
      ∧ importTableOf d s.limits = .ok t
      ∧ importTableOf (d ++ e) s.limits = .ok t'
      ∧ (s.scanBytes path (d ++ e)).value = .ok r'
      ∧ r'.architecture = r.architecture ∧ r'.machine = r.machine
      ∧ (t'.limitedModules = 0 →
        (∀ x ∈ t.entries, x ∈ t'.entries)
          ∧ (∀ name, t.imports name = true → t'.imports name = true)
          ∧ ∀ routine ∈ r.matched, routine ∈ r'.matched) := by
  have hc := begins_append d e
  obtain ⟨h, hread, t, hwalk, rfl⟩ := Scanner.scanBytes_eq_ok_iff.1 hscan
  have hread' := Headers.lasts_read hc hread
  obtain ⟨t', hwalk', hsubset⟩ := hc.exists_walk hwalk
  refine ⟨h, t, t', s.resultOf path h t', hread, hread',
    bind_eq_ok_iff.2 ⟨h, hread, hwalk⟩, bind_eq_ok_iff.2 ⟨h, hread', hwalk'⟩,
    Scanner.scanBytes_eq_ok_iff.2 ⟨h, hread', t', hwalk', rfl⟩, rfl, rfl,
    fun hlimited => ?_⟩
  have hentries := hsubset hlimited
  refine ⟨fun x hx => hentries hx, fun name hname => ?_, fun routine hr => ?_⟩
  · rw [ImportTable.imports_iff] at hname ⊢
    exact ImportTable.names_subset hentries hname
  · obtain ⟨hname, htarget⟩ := NameSet.mem_inter.1 hr
    exact NameSet.mem_inter.2
      ⟨ImportTable.names_subset hentries hname, htarget⟩

/-- The sample with two bytes behind it still imports what it imported, and is
not limited. -/
theorem scanBytes_append_sample :
    (sampleScanner.scanBytes "sample.sys" Blueprint.sample.build).value
        = .ok (sampleScanner.resultOf "sample.sys" Blueprint.sample.headers
          Blueprint.sample.importedTable)
      ∧ ∃ t r',
        importTableOf (Blueprint.sample.build ++ ⟨#[1, 1]⟩) .default = .ok t
          ∧ t.limitedModules = 0
          ∧ t.imports "MmMapIoSpace" = true
          ∧ (sampleScanner.scanBytes "sample.sys"
            (Blueprint.sample.build ++ ⟨#[1, 1]⟩)).value = .ok r'
          ∧ r'.architecture = .pe32
          ∧ "MmMapIoSpace" ∈ r'.matched := by
  have hscan := scanBytes_sample "sample.sys"
  obtain ⟨h, t, t', r', hread, _, htable, htable', hscan', harchitecture, _,
    hkept⟩ := scanBytes_append hscan ⟨#[1, 1]⟩
  -- the walk of the longer file is not limited either
  have hunlimited : (importTableOf (Blueprint.sample.build ++ ⟨#[1, 1]⟩)
      .default).map (·.limitedModules) = .ok 0 := by
    decide +kernel
  have hlimited : t'.limitedModules = 0 := by
    rw [show importTableOf (Blueprint.sample.build ++ ⟨#[1, 1]⟩) .default
      = .ok t' from htable'] at hunlimited
    exact Except.ok.inj hunlimited
  obtain ⟨_, hnames, hmatched⟩ := hkept hlimited
  obtain rfl : Blueprint.sample.importedTable = t :=
    Except.ok.inj ((Blueprint.importTableOf_build
      Blueprint.readable_sample).symm.trans htable)
  have htarget : "MmMapIoSpace" ∈ dangerousTargets :=
    NameSet.mem_ofList.2 (by decide)
  have himports : Blueprint.sample.importedTable.imports "MmMapIoSpace"
      = true := by
    decide
  exact ⟨hscan, t', r', htable', hlimited, hnames _ himports, hscan',
    harchitecture,
    hmatched _ (Scanner.mem_matched_resultOf.2 ⟨himports, htarget⟩)⟩

end DriverAudit
