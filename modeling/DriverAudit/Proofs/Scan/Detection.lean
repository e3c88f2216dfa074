import DriverAudit.Proofs.Imports.Thunks
import DriverAudit.Proofs.Scan.BuiltImages

/-!
# A scan finds what the file imports

What it means that a file imports a routine by name can be said of its bytes,
without any walk: there are descriptors up to one that names a module, thunks
up to one that is the address of a hint and a name, and the name decodes to the
routine. An `ImportTrace` holds these places. It says nothing of limits on the
number of imports, of damage elsewhere in the table or of events.

A scan is sound for that meaning whatever its budget, and complete for it as
long as the budget was not used up.
-/

namespace DriverAudit

/-- **The places of a file through which it imports a routine by name**: a
descriptor, one of its thunks, and the name that the thunk leads to. -/
structure ImportTrace (d : ByteArray) (h : Headers) (limits : ParseLimits)
    (routine : String) where
  /-- The offset of the array of descriptors. -/
  table : Nat
  present : h.optional.imports.address ≠ 0
  table_mapped :
    h.sections.fileOffset h.optional.imports.address = .ok table
  /-- The number of the descriptor. -/
  descriptor : Nat
  /-- No record up to the descriptor is outside the file or all zero. -/
  descriptors_live :
    ∀ i ≤ descriptor, RecordArray.Live d Descriptor.byteSize table i
  /-- The descriptor itself. -/
  record : Descriptor
  record_eq : record = Descriptor.atOffset d
    (RecordArray.recordOffset Descriptor.byteSize table descriptor)
  /-- The offset of the name of the module, and the length of the name. -/
  moduleName : Nat
  moduleLength : Nat
  moduleName_mapped : h.sections.fileOffset record.moduleName = .ok moduleName
  moduleLength_lt : moduleLength < limits.moduleNameLength
  moduleName_terminated : TerminatedAt d moduleName moduleLength
  /-- The offset of the table of thunks. -/
  thunks : Nat
  thunkAddress_ne_zero : record.thunkAddress ≠ 0
  thunks_mapped : h.sections.fileOffset record.thunkAddress = .ok thunks
  /-- The number of the thunk. -/
  thunk : Nat
  /-- No thunk up to that one is outside the file or zero. -/
  thunks_live : ∀ i ≤ thunk,
    RecordArray.Live d h.optional.architecture.thunkWidth thunks i
  /-- The word of the thunk. -/
  value : Nat
  value_eq : value = thunkValue d h.optional.architecture
    (RecordArray.recordOffset h.optional.architecture.thunkWidth thunks thunk)
  not_flagged : ¬ h.optional.architecture.IsFlagged value
  value_lt : value < 2 ^ 32
  /-- The offset of the hint, and the length of the name behind it. -/
  hint : Nat
  length : Nat
  hint_mapped : h.sections.fileOffset (UInt32.ofNat value) = .ok hint
  hint_inside : Inside d hint 2
  length_lt : length < limits.nameLength
  name_terminated : TerminatedAt d (hint + 2) length
  name_eq : textAt d (hint + 2) length = routine

/-- **What it means that some data import a routine by name.** -/
def ImportsByName (d : ByteArray) (limits : ParseLimits) (routine : String) :
    Prop :=
  ∃ h, Headers.read d = .ok h ∧ Nonempty (ImportTrace d h limits routine)

namespace ImportSource

variable {s : ImportSource}

/-- **A lead to a table of thunks**: the name of the module is readable, and
the table has an address that a section covers. -/
theorem lead_eq_table_iff {x : Descriptor} {name : String} {thunks : Nat} :
    s.lead x = .ok ⟨name, some thunks⟩
      ↔ (∃ offset, s.sections.fileOffset x.moduleName = .ok offset
          ∧ ∃ length < s.limits.moduleNameLength,
            TerminatedAt s.data offset length
            ∧ textAt s.data offset length = name)
        ∧ x.thunkAddress ≠ 0
        ∧ s.sections.fileOffset x.thunkAddress = .ok thunks := by
  unfold lead
  cases s.sections.fileOffset x.moduleName with
  | error e => exact iff_of_false (fun h => by cases h) (by simp)
  | ok offset =>
    simp only [Except.ok.injEq, exists_eq_left']
    rw [← stringAt_eq_ok_iff]
    show (ofRead (stringAt ..) >>= _) = _ ↔ _
    cases stringAt s.data offset s.limits.moduleNameLength with
    | error e => exact iff_of_false (fun h => by cases h) (by simp)
    | ok text =>
      show (if _ then _ else _) = _ ↔ _
      split
      case isTrue hzero =>
        refine iff_of_false (fun h => ?_) (fun h => h.2.1 hzero)
        cases h
      case isFalse hne =>
        cases s.sections.fileOffset x.thunkAddress with
        | error e => exact iff_of_false (fun h => by cases h) (by simp)
        | ok found =>
          show (Except.ok (Lead.mk text (some found)) : Except ImageError _)
            = _ ↔ _
          simp [hne]

/-- **The imports by name of a whole module** are those of its thunks. -/
theorem exists_name_mem_wholeModule_iff {l : Lead} {routine : String} :
    (∃ e ∈ (s.wholeModule l).entries, e.name? = some routine)
      ↔ ∃ thunks, l.table = some thunks
        ∧ ∃ i < (s.thunkArray thunks).count, ∃ hint,
          s.resolve (s.thunkAt
            (RecordArray.recordOffset s.architecture.thunkWidth thunks i))
          = .ok (.byName hint routine) := by
  unfold wholeModule leadThunks
  cases l.table with
  | none => simp
  | some thunks =>
    simp only [List.mem_filterMap, Option.some.injEq, exists_eq_left',
      found?_resolutionAt_eq_some_iff]
    constructor
    · rintro ⟨e, ⟨o, ho, hresolve⟩, hname⟩
      obtain ⟨i, hi, rfl⟩ := RecordArray.mem_offsets.1 ho
      cases e with
      | byOrdinal n => cases hname
      | byName hint name =>
        cases hname
        exact ⟨i, hi, hint, hresolve⟩
    · rintro ⟨i, hi, hint, hresolve⟩
      exact ⟨.byName hint routine,
        ⟨_, RecordArray.mem_offsets.2 ⟨i, hi, rfl⟩, hresolve⟩, rfl⟩

/-- The whole modules of a table are those that its descriptors lead to. -/
theorem mem_wholeModules_iff {offset : Nat} {m : ImportModule} :
    m ∈ s.wholeModules offset
      ↔ ∃ k < (s.descriptorArray offset).count, ∃ l,
        s.leadAt (RecordArray.recordOffset Descriptor.byteSize offset k)
          = .ok l ∧ s.wholeModule l = m := by
  unfold wholeModules descriptorOffsets wholeModuleAt?
  rw [List.mem_filterMap]
  constructor
  · rintro ⟨o, ho, hm⟩
    obtain ⟨k, hk, rfl⟩ := RecordArray.mem_offsets.1 ho
    refine ⟨k, hk, ?_⟩
    cases hl : s.leadAt (RecordArray.recordOffset Descriptor.byteSize offset k) with
    | error e =>
      rw [hl] at hm
      cases hm
    | ok l =>
      rw [hl] at hm
      exact ⟨l, rfl, Option.some.inj hm⟩
  · rintro ⟨k, hk, l, hl, rfl⟩
    refine ⟨_, RecordArray.mem_offsets.2 ⟨k, hk, rfl⟩, ?_⟩
    rw [hl]
    rfl

end ImportSource

/-! ## Traces and whole modules -/

section Trace

variable {d : ByteArray} {h : Headers} {limits : ParseLimits}
variable {routine : String}

/-- The places of a trace are those of an import of some whole module. -/
theorem ImportTrace.exists_mem_wholeModules
    (t : ImportTrace d h limits routine) :
    ∃ m ∈ (h.importSource d limits).wholeModules t.table,
      ∃ e ∈ m.entries, e.name? = some routine := by
  have hlead : (h.importSource d limits).lead t.record
      = .ok ⟨textAt d t.moduleName t.moduleLength, some t.thunks⟩ :=
    ImportSource.lead_eq_table_iff.2
      ⟨⟨t.moduleName, t.moduleName_mapped, t.moduleLength,
        t.moduleLength_lt, t.moduleName_terminated, rfl⟩,
        t.thunkAddress_ne_zero, t.thunks_mapped⟩
  rw [t.record_eq] at hlead
  -- the places before the descriptor and the thunk put them inside their arrays
  refine ⟨_, ImportSource.mem_wholeModules_iff.2
    ⟨t.descriptor, (RecordArray.lt_count_measure_iff (by decide)).2
      t.descriptors_live, _, hlead, rfl⟩, ?_⟩
  have hvalue : ((h.importSource d limits).thunkAt
      (RecordArray.recordOffset h.optional.architecture.thunkWidth
        t.thunks t.thunk)).toNat = t.value :=
    (ImportSource.toNat_thunkAt _ _).trans t.value_eq.symm
  refine ImportSource.exists_name_mem_wholeModule_iff.2
    ⟨t.thunks, rfl, t.thunk,
      (RecordArray.lt_count_measure_iff
        h.optional.architecture.thunkWidth_pos).2 t.thunks_live,
      UInt16.ofNat (wordAt d t.hint 2),
      ImportSource.resolve_eq_byName_iff.2 ⟨?_, ?_, ?_⟩⟩
  · exact hvalue.symm ▸ t.not_flagged
  · exact hvalue.symm ▸ t.value_lt
  · refine ⟨t.hint, ?_, t.hint_inside, rfl, t.length, t.length_lt,
      t.name_terminated, t.name_eq⟩
    have hmapped := t.hint_mapped
    rw [← hvalue] at hmapped
    exact hmapped

/-- An import of a whole module leaves a trace. -/
theorem nonempty_importTrace_of_mem {table : Nat}
    (hpresent : h.optional.imports.address ≠ 0)
    (htable : h.sections.fileOffset h.optional.imports.address = .ok table)
    {m : ImportModule} (hm : m ∈ (h.importSource d limits).wholeModules table)
    (he : ∃ e ∈ m.entries, e.name? = some routine) :
    Nonempty (ImportTrace d h limits routine) := by
  obtain ⟨k, hk, ⟨name, thunks?⟩, hlead, rfl⟩ :=
    ImportSource.mem_wholeModules_iff.1 hm
  -- only a lead with a table of thunks has imports
  obtain ⟨thunks, rfl, i, hi, hint, hresolve⟩ :=
    ImportSource.exists_name_mem_wholeModule_iff.1 he
  obtain ⟨⟨moduleName, hmodule, moduleLength, hmlt, hmterm, _⟩, hne, hmap⟩ :=
    ImportSource.lead_eq_table_iff.1 hlead
  obtain ⟨hflag, hsmall, offset, hoffset, hinside, _, length, hlt, hterm,
    hname⟩ := ImportSource.resolve_eq_byName_iff.1 hresolve
  exact ⟨{
    table := table
    present := hpresent
    table_mapped := htable
    descriptor := k
    descriptors_live := (RecordArray.lt_count_measure_iff (by decide)).1 hk
    record := _
    record_eq := rfl
    moduleName := moduleName
    moduleLength := moduleLength
    moduleName_mapped := hmodule
    moduleLength_lt := hmlt
    moduleName_terminated := hmterm
    thunks := thunks
    thunkAddress_ne_zero := hne
    thunks_mapped := hmap
    thunk := i
    thunks_live := (RecordArray.lt_count_measure_iff
      h.optional.architecture.thunkWidth_pos).1 hi
    value := _
    value_eq := ImportSource.toNat_thunkAt _ _
    not_flagged := hflag
    value_lt := hsmall
    hint := offset
    length := length
    hint_mapped := hoffset
    hint_inside := hinside
    length_lt := hlt
    name_terminated := hterm
    name_eq := hname }⟩

/-- **The routines that a file imports by name are those of its whole
modules.** -/
theorem nonempty_importTrace_iff :
    Nonempty (ImportTrace d h limits routine)
      ↔ h.optional.imports.address ≠ 0 ∧ ∃ offset,
        h.sections.fileOffset h.optional.imports.address = .ok offset
        ∧ ∃ m ∈ (h.importSource d limits).wholeModules offset,
          ∃ e ∈ m.entries, e.name? = some routine := by
  constructor
  · rintro ⟨t⟩
    exact ⟨t.present, t.table, t.table_mapped, t.exists_mem_wholeModules⟩
  · rintro ⟨hpresent, table, htable, m, hm, he⟩
    exact nonempty_importTrace_of_mem hpresent htable hm he

end Trace

/-! ## Tables and traces -/

section Walk

variable {d : ByteArray} {h : Headers} {limits : ParseLimits}
variable {table : ImportTable}

/-- **Whatever a walk names is imported.** -/
theorem nonempty_importTrace_of_mem_names
    (hwalk : ((h.importSource d limits).walk h.optional.imports).value
      = .ok table) {routine : String} (hname : routine ∈ table.names) :
    Nonempty (ImportTrace d h limits routine) := by
  obtain ⟨e, he, hroutine⟩ := ImportTable.mem_names_iff.1 hname
  obtain ⟨_, rfl⟩ | ⟨hpresent, offset, hoffset, htable⟩ :=
    ImportSource.walk_eq_ok_iff.1 hwalk
  · cases he
  · obtain ⟨m, hm, hem⟩ := ImportSource.mem_entries_wholeModules htable he
    exact nonempty_importTrace_iff.2
      ⟨hpresent, offset, hoffset, m, hm, e, hem, hroutine⟩

/-- **Whatever is imported is named by a walk that was not limited.** -/
theorem mem_names_of_nonempty_importTrace
    (hwalk : ((h.importSource d limits).walk h.optional.imports).value
      = .ok table) (hlimited : table.limitedModules = 0) {routine : String}
    (htrace : Nonempty (ImportTrace d h limits routine)) :
    routine ∈ table.names := by
  obtain ⟨hpresent, offset, hoffset, m, hm, e, he, hroutine⟩ :=
    nonempty_importTrace_iff.1 htrace
  obtain ⟨hzero, _⟩ | ⟨_, offset', hoffset', htable⟩ :=
    ImportSource.walk_eq_ok_iff.1 hwalk
  · exact absurd hzero hpresent
  · obtain rfl : offset = offset' := Except.ok.inj (hoffset.symm.trans hoffset')
    rw [← ImportSource.modules_eq_wholeModules htable hlimited] at hm
    exact ImportTable.mem_names_iff.2
      ⟨e, List.mem_flatMap.2 ⟨m, hm, he⟩, hroutine⟩

end Walk

/-- **A scan is sound, and complete unless it was limited.** Whatever it
matches is a target that the data import by name. Conversely, when the budget
left no module out and cut none short, every target that the data import by
name is matched. -/
theorem scanBytes_matched_sound_complete {s : Scanner} {path : String}
    {d : ByteArray} {r : ScanResult}
    (hscan : (s.scanBytes path d).value = .ok r) :
    (∀ routine ∈ r.matched,
        routine ∈ s.targets ∧ ImportsByName d s.limits routine)
      ∧ ∃ table, importTableOf d s.limits = .ok table
        ∧ (table.limitedModules = 0 →
          ∀ routine ∈ s.targets, ImportsByName d s.limits routine →
            routine ∈ r.matched) := by
  obtain ⟨h, hread, table, hwalk, rfl⟩ := Scanner.scanBytes_eq_ok_iff.1 hscan
  constructor
  · intro routine hmatched
    obtain ⟨hname, htarget⟩ := NameSet.mem_inter.1 hmatched
    exact ⟨htarget, h, hread, nonempty_importTrace_of_mem_names hwalk hname⟩
  · refine ⟨table, ?_, fun hlimited routine htarget himports => ?_⟩
    · unfold importTableOf
      rw [hread]
      exact hwalk
    · obtain ⟨h', hread', htrace⟩ := himports
      obtain rfl : h = h' := Except.ok.inj (hread.symm.trans hread')
      exact NameSet.mem_inter.2
        ⟨mem_names_of_nonempty_importTrace hwalk hlimited htrace, htarget⟩

/-- The sample imports a target, and its scan is not limited. -/
theorem importsByName_sample :
    (sampleScanner.scanBytes "sample.sys" Blueprint.sample.build).value
        = .ok (sampleScanner.resultOf "sample.sys" Blueprint.sample.headers
          Blueprint.sample.importedTable)
      ∧ ImportsByName Blueprint.sample.build .default "MmMapIoSpace"
      ∧ Blueprint.sample.importedTable.limitedModules = 0
      ∧ ∀ routine ∈ dangerousTargets,
        ImportsByName Blueprint.sample.build .default routine →
          routine ∈ (sampleScanner.resultOf "sample.sys"
            Blueprint.sample.headers Blueprint.sample.importedTable).matched := by
  have hscan := scanBytes_sample "sample.sys"
  obtain ⟨hsound, table, htable, hcomplete⟩ :=
    scanBytes_matched_sound_complete hscan
  have htarget : "MmMapIoSpace" ∈ dangerousTargets :=
    NameSet.mem_ofList.2 (by decide)
  have hmatched : "MmMapIoSpace" ∈ (sampleScanner.resultOf "sample.sys"
      Blueprint.sample.headers Blueprint.sample.importedTable).matched :=
    Scanner.mem_matched_resultOf.2 ⟨by decide, htarget⟩
  -- the table of the scan is the one that the blueprint asks for
  have hsample : importTableOf Blueprint.sample.build .default
      = .ok Blueprint.sample.importedTable :=
    bind_eq_ok_iff.2 ⟨_, Blueprint.sample.read_build,
      Blueprint.walk_source Blueprint.readable_sample⟩
  obtain rfl : Blueprint.sample.importedTable = table :=
    Except.ok.inj (hsample.symm.trans htable)
  have hlimited : Blueprint.sample.importedTable.limitedModules = 0 := by
    decide
  exact ⟨hscan, (hsound _ hmatched).2, hlimited, hcomplete hlimited⟩

end DriverAudit
