import DriverAudit.Proofs.Imports.RecordArrays
import DriverAudit.Proofs.Imports.RoundTrip
import DriverAudit.Proofs.Imports.Thunks
import DriverAudit.Proofs.Imports.Views

/-!
# What the descriptors of a file say

The walk over an import table is two loops with a budget in common, and each
of them goes on past damage. What it is after can be said without loops, and
one descriptor at a time. A thunk *denotes* an import, or it does not
(`Denotes`). A table of thunks holds what its thunks denote, in order, and ends
with a zero or with the file (`HoldsThunks`). A descriptor *describes* a module
when its name can be read and its table has a place in the file (`Describes`).

None of these looks at the budget, at the events or at any other descriptor:
they are about the file, its sections, the ceilings on names and one
descriptor. A walk that was not limited has found the modules that the
descriptors describe one by one, and nothing else (`walk_of_unlimited`). So
damage to one descriptor, or to one thunk, is no matter for any other.
-/

namespace DriverAudit.ImportSource

/-! ## Thunks -/

/-- **What a thunk denotes.** With its highest bit set it is an import by
number, in its low 16 bits; else it is the address of a hint and a name. -/
inductive Denotes (s : ImportSource) (thunk : Nat) : ImportEntry → Prop
  | byOrdinal (hflag : s.architecture.IsFlagged thunk) :
      Denotes s thunk (.byOrdinal (UInt16.ofNat (thunk % 2 ^ 16)))
  | byName {hint : UInt16} {name : String}
      (hflag : ¬ s.architecture.IsFlagged thunk) (hsmall : thunk < 2 ^ 32)
      (hentry : s.NameEntry (UInt32.ofNat thunk) hint name) :
      Denotes s thunk (.byName hint name)

/-- **What a table of thunks holds**: the import that each thunk denotes, if it
denotes one, and how the table ends. -/
structure HoldsThunks (s : ImportSource) (offset : Nat)
    (found : List (Option ImportEntry)) (ending : Ending) : Prop where
  fits : RecordArray.Fits s.data s.architecture.thunkWidth offset
    ⟨found.length, ending⟩
  denotes : ∀ i (hi : i < found.length) e, found[i] = some e
    ↔ s.Denotes (thunkValue s.data s.architecture
        (RecordArray.recordOffset s.architecture.thunkWidth offset i)) e

variable {s : ImportSource}

/-- Only a thunk with its highest bit set resolves to a number. -/
theorem isFlagged_of_resolve_eq_byOrdinal {thunk : UInt64} {ordinal : UInt16}
    (h : s.resolve thunk = .ok (.byOrdinal ordinal)) :
    s.architecture.IsFlagged thunk.toNat := by
  rw [← s.architecture.and_ordinalFlag_ne_zero_iff]
  unfold resolve at h
  split at h
  case isTrue hflag => exact hflag
  case isFalse =>
    split at h
    case isTrue =>
      obtain ⟨_, _, h⟩ := bind_eq_ok_iff.1 h
      obtain ⟨_, _, h⟩ := bind_eq_ok_iff.1 h
      obtain ⟨_, _, h⟩ := bind_eq_ok_iff.1 h
      cases h
    case isFalse => cases h

/-- **A thunk resolves to what it denotes.** -/
theorem resolve_eq_ok_iff {thunk : UInt64} {e : ImportEntry} :
    s.resolve thunk = .ok e ↔ s.Denotes thunk.toNat e := by
  constructor
  · intro h
    cases e with
    | byOrdinal ordinal =>
      have hflag := isFlagged_of_resolve_eq_byOrdinal h
      rw [resolve_of_isFlagged hflag] at h
      cases h
      have hlow : thunk.toUInt16 = UInt16.ofNat (thunk.toNat % 2 ^ 16) := by
        rw [← UInt16.toNat_inj]
        simp
      rw [hlow]
      exact .byOrdinal hflag
    | byName hint name =>
      obtain ⟨hflag, hsmall, hentry⟩ := resolve_eq_byName_iff.1 h
      exact .byName hflag hsmall hentry
  · intro h
    cases h with
    | byOrdinal hflag =>
      rw [resolve_of_isFlagged hflag]
      refine congrArg (Except.ok ∘ ImportEntry.byOrdinal) ?_
      rw [← UInt16.toNat_inj]
      simp
    | byName hflag hsmall hentry =>
      exact resolve_eq_byName_iff.2 ⟨hflag, hsmall, hentry⟩

/-- **A table holds what is found at its thunks.** -/
theorem holdsThunks_iff {offset : Nat} {found : List (Option ImportEntry)}
    {ending : Ending} :
    s.HoldsThunks offset found ending
      ↔ (s.thunkArray offset).ending = ending
        ∧ ((s.thunkArray offset).offsets s.architecture.thunkWidth offset).map
          (fun o => (s.resolutionAt o).found?) = found := by
  have hdenotes : ∀ o e, (s.resolutionAt o).found? = some e
      ↔ s.Denotes (thunkValue s.data s.architecture o) e := by
    intro o e
    rw [found?_resolutionAt_eq_some_iff, resolve_eq_ok_iff, toNat_thunkAt]
  rw [thunkArray, RecordArray.map_offsets_measure_iff
    s.architecture.thunkWidth_pos]
  constructor
  · intro h
    refine ⟨h.fits, fun i hi => Option.ext fun e => ?_⟩
    rw [hdenotes, h.denotes i hi]
  · rintro ⟨hfits, hfound⟩
    refine ⟨hfits, fun i hi e => ?_⟩
    rw [← hfound i hi, hdenotes]

/-! ## Descriptors -/

/-- **The name of a module at an address**: it is inside the file and ends
below its ceiling. -/
def NamesModule (s : ImportSource) (address : UInt32) (name : String) : Prop :=
  ∃ offset, s.sections.fileOffset address = .ok offset
    ∧ ∃ length < s.limits.moduleNameLength,
      TerminatedAt s.data offset length ∧ textAt s.data offset length = name

/-- **What a descriptor describes**: a module with its name, and what its
table of thunks holds if it has one. -/
structure Describes (s : ImportSource) (x : Descriptor) (v : View) : Prop where
  name : s.NamesModule x.moduleName v.name
  noTable : x.thunkAddress = 0 → v.found = [] ∧ v.ending = .terminator
  table : x.thunkAddress ≠ 0 →
    ∃ offset, s.sections.fileOffset x.thunkAddress = .ok offset
      ∧ s.HoldsThunks offset v.found v.ending

/-- **A descriptor that can be read**: the name of its module can, and its
table of thunks has a place in the file if it has an address. -/
def IsReadable (s : ImportSource) (x : Descriptor) : Prop :=
  (∃ name, s.NamesModule x.moduleName name)
    ∧ (x.thunkAddress = 0
      ∨ ∃ offset, s.sections.fileOffset x.thunkAddress = .ok offset)

/-- **Where a descriptor leads**, in terms of the file. -/
theorem lead_eq_ok_iff {x : Descriptor} {l : Lead} :
    s.lead x = .ok l
      ↔ s.NamesModule x.moduleName l.name
        ∧ (x.thunkAddress = 0 → l.table = none)
        ∧ (x.thunkAddress ≠ 0 → ∃ offset,
          s.sections.fileOffset x.thunkAddress = .ok offset
            ∧ l.table = some offset) := by
  obtain ⟨name, table⟩ := l
  -- the name comes first; what is left is the place of the table
  have hname : s.lead x = .ok ⟨name, table⟩
      ↔ s.NamesModule x.moduleName name
        ∧ (if x.thunkAddress = 0 then .ok none
          else (s.sections.fileOffset x.thunkAddress).map some) = .ok table := by
    unfold lead NamesModule
    cases s.sections.fileOffset x.moduleName with
    | error e => exact iff_of_false (fun h => by cases h) (by simp)
    | ok offset =>
      simp only [Except.ok.injEq, exists_eq_left']
      rw [← stringAt_eq_ok_iff]
      show (ofRead (stringAt ..) >>= _) = _ ↔ _
      cases stringAt s.data offset s.limits.moduleNameLength with
      | error e => exact iff_of_false (fun h => by cases h) (by simp)
      | ok text =>
        show (if _ then _ else _) = _ ↔ _
        split
        · show (Except.ok (Lead.mk text none) : Except ImageError Lead) = _ ↔ _
          simp
        · cases s.sections.fileOffset x.thunkAddress with
          | error e =>
            exact iff_of_false (fun h => by cases h) (fun h => by cases h.2)
          | ok place =>
            show (Except.ok (Lead.mk text (some place))
              : Except ImageError Lead) = _ ↔ _
            simp [Except.map]
  rw [hname]
  refine and_congr_right fun _ => ?_
  by_cases hzero : x.thunkAddress = 0
  · simp [hzero, eq_comm]
  · cases s.sections.fileOffset x.thunkAddress <;>
      simp [hzero, Except.map, eq_comm]

/-- **A descriptor describes what its lead shows.** -/
theorem describes_iff {x : Descriptor} {v : View} :
    s.Describes x v ↔ ∃ l, s.lead x = .ok l ∧ s.view l = v := by
  obtain ⟨name, found, ending⟩ := v
  constructor
  · rintro ⟨hname, hnone, htable⟩
    by_cases hzero : x.thunkAddress = 0
    · obtain ⟨rfl, rfl⟩ := hnone hzero
      exact ⟨⟨name, none⟩, lead_eq_ok_iff.2
        ⟨hname, fun _ => rfl, fun hne => absurd hzero hne⟩, rfl⟩
    · obtain ⟨offset, hmapped, hholds⟩ := htable hzero
      obtain ⟨rfl, rfl⟩ := holdsThunks_iff.1 hholds
      exact ⟨⟨name, some offset⟩, lead_eq_ok_iff.2
        ⟨hname, fun hz => absurd hz hzero, fun _ => ⟨offset, hmapped, rfl⟩⟩,
        rfl⟩
  · rintro ⟨⟨name', table⟩, hlead, hview⟩
    obtain ⟨hname, hnone, htable⟩ := lead_eq_ok_iff.1 hlead
    cases hview
    refine ⟨hname, fun hzero => ?_, fun hne => ?_⟩
    · obtain rfl : table = none := hnone hzero
      exact ⟨rfl, rfl⟩
    · obtain ⟨offset, hmapped, rfl⟩ := htable hne
      exact ⟨offset, hmapped, holdsThunks_iff.2 ⟨rfl, rfl⟩⟩

/-- What a descriptor describes is what it shows. -/
theorem viewAt?_eq_some_iff {offset : Nat} {v : View} :
    s.viewAt? offset = some v
      ↔ s.Describes (Descriptor.atOffset s.data offset) v := by
  rw [describes_iff, viewAt?, Option.map_eq_some_iff]
  refine exists_congr fun l => and_congr_left fun _ => ?_
  unfold leadAt
  cases s.lead (Descriptor.atOffset s.data offset) with
  | error e => exact iff_of_false (fun h => by cases h) (fun h => by cases h)
  | ok found =>
    show some found = some l ↔ _
    rw [Option.some.injEq, Except.ok.injEq]

/-- **A descriptor describes a module just when it can be read.** -/
theorem exists_describes_iff {x : Descriptor} :
    (∃ v, s.Describes x v) ↔ s.IsReadable x := by
  constructor
  · rintro ⟨v, hv⟩
    refine ⟨⟨v.name, hv.name⟩, ?_⟩
    by_cases hzero : x.thunkAddress = 0
    · exact Or.inl hzero
    · obtain ⟨offset, hmapped, _⟩ := hv.table hzero
      exact Or.inr ⟨offset, hmapped⟩
  · rintro ⟨⟨name, hname⟩, hplace⟩
    by_cases hzero : x.thunkAddress = 0
    · exact ⟨_, describes_iff.2 ⟨⟨name, none⟩, lead_eq_ok_iff.2
        ⟨hname, fun _ => rfl, fun hne => absurd hzero hne⟩, rfl⟩⟩
    · obtain ⟨offset, hmapped⟩ := hplace.resolve_left hzero
      exact ⟨_, describes_iff.2 ⟨⟨name, some offset⟩, lead_eq_ok_iff.2
        ⟨hname, fun hz => absurd hz hzero, fun _ => ⟨offset, hmapped, rfl⟩⟩,
        rfl⟩⟩

/-! ## Directories -/

/-- The descriptor with a number in the array at an offset. -/
def descriptorAt (s : ImportSource) (offset i : Nat) : Descriptor :=
  Descriptor.atOffset s.data
    (RecordArray.recordOffset Descriptor.byteSize offset i)

/-- **What the descriptors at an offset describe**, one by one up to the one
of zeros. -/
structure ShowsAt (s : ImportSource) (offset : Nat)
    (views : List (Option View)) : Prop where
  live : ∀ i < views.length,
    RecordArray.Live s.data Descriptor.byteSize offset i
  blank : RecordArray.Blank s.data Descriptor.byteSize offset views.length
  describes : ∀ i (hi : i < views.length) v,
    views[i] = some v ↔ s.Describes (s.descriptorAt offset i) v

/-- **What the descriptors of a directory describe.** Without the directory
there are none. -/
inductive Lists (s : ImportSource) (directory : DataDirectory) :
    List (Option View) → Prop
  | absent (h : directory.address = 0) : Lists s directory []
  | present {offset : Nat} {views : List (Option View)}
      (h : directory.address ≠ 0)
      (hmapped : s.sections.fileOffset directory.address = .ok offset)
      (hshows : s.ShowsAt offset views) : Lists s directory views

theorem showsAt_iff {offset : Nat} {views : List (Option View)} :
    s.ShowsAt offset views
      ↔ (s.descriptorArray offset).ending = .terminator
        ∧ (s.descriptorOffsets offset).map s.viewAt? = views := by
  rw [descriptorOffsets, descriptorArray,
    RecordArray.map_offsets_measure_iff (by decide)]
  constructor
  · intro h
    refine ⟨⟨h.live, fun _ => h.blank, fun he => by cases he⟩,
      fun i hi => Option.ext fun v => ?_⟩
    rw [viewAt?_eq_some_iff]
    exact (h.describes i hi v).symm
  · rintro ⟨hfits, hviews⟩
    refine ⟨hfits.live, hfits.blank rfl, fun i hi v => ?_⟩
    rw [← hviews i hi, viewAt?_eq_some_iff]
    rfl

variable {directory : DataDirectory} {table : ImportTable}

/-- **What a walk finds**, from what the descriptors describe: as much of it
as the budget covers. -/
theorem walk_eq_ok_iff_lists :
    (s.walk directory).value = .ok table
      ↔ ∃ views, s.Lists directory views
        ∧ View.tableWithin s.limits.imports views = table := by
  rw [walk_eq_ok_iff]
  constructor
  · rintro (⟨hzero, rfl⟩ | ⟨hne, offset, hmapped, htable⟩)
    · exact ⟨[], .absent hzero, rfl⟩
    · have hend := (tableAt_eq_ok_iff.1 htable).1
      refine ⟨_, .present hne hmapped (showsAt_iff.2 ⟨hend, rfl⟩), ?_⟩
      exact Except.ok.inj ((tableAt_of_views hend rfl).symm.trans htable)
  · rintro ⟨views, hlists, rfl⟩
    cases hlists with
    | absent hzero => exact Or.inl ⟨hzero, rfl⟩
    | present hne hmapped hshows =>
      obtain ⟨hend, hviews⟩ := showsAt_iff.1 hshows
      exact Or.inr ⟨hne, _, hmapped, tableAt_of_views hend hviews⟩

/-- **A walk that was not limited finds what each descriptor describes.** Of
the descriptors up to the one of zeros it has the modules of those that can be
read, in order and whole: the imports that the thunks of each denote, in order
up to the first zero or to the end of the file, and a count of the thunks that
denote nothing and of the end of the file. It counts the other descriptors.
What becomes of a descriptor is a matter of what it describes, and so of no
other descriptor. -/
theorem walk_of_unlimited (hwalk : (s.walk directory).value = .ok table)
    (hpresent : directory.address ≠ 0) (hlimited : table.limitedModules = 0) :
    ∃ offset, ∃ views : List (Option View),
      s.sections.fileOffset directory.address = .ok offset
      ∧ (∀ i < views.length,
        RecordArray.Live s.data Descriptor.byteSize offset i)
      ∧ RecordArray.Blank s.data Descriptor.byteSize offset views.length
      ∧ (∀ i (hi : i < views.length),
        (views[i].isSome = true ↔ s.IsReadable (s.descriptorAt offset i))
        ∧ ∀ v, views[i] = some v ↔ s.Describes (s.descriptorAt offset i) v)
      ∧ table.modules = views.filterMap (Option.map View.whole)
      ∧ table.skippedModules = views.countP (·.isNone) := by
  obtain ⟨views, hlists, rfl⟩ := walk_eq_ok_iff_lists.1 hwalk
  cases hlists with
  | absent hzero => exact absurd hzero hpresent
  | @present offset _ _ hmapped hshows =>
    refine ⟨offset, views, hmapped, hshows.live, hshows.blank,
      fun i hi => ⟨?_, hshows.describes i hi⟩, ?_, ?_⟩
    · rw [Option.isSome_iff_exists, ← exists_describes_iff]
      exact exists_congr fun v => hshows.describes i hi v
    · rw [View.tableWithin_of_cost_le
        (View.limitedModules_tableWithin_eq_zero_iff.1 hlimited)]
    · rw [View.tableWithin_of_cost_le
        (View.limitedModules_tableWithin_eq_zero_iff.1 hlimited)]

/-- What a walk of the image of the sample looks at. -/
def sample : ImportSource :=
  Blueprint.sample.source Blueprint.sample.build .default

/-- The directory of the sample. -/
def sampleDirectory : DataDirectory :=
  Blueprint.sample.headers.optional.imports

theorem walk_sample :
    (sample.walk sampleDirectory).value
      = .ok Blueprint.sample.importedTable :=
  Blueprint.walk_source Blueprint.readable_sample

/-- The walk of the sample is not limited. It has imports by name and by
number, a thunk that denotes nothing and a descriptor that cannot be read. -/
theorem walk_of_unlimited_sample :
    (sample.walk sampleDirectory).value
        = .ok Blueprint.sample.importedTable
      ∧ sampleDirectory.address ≠ 0
      ∧ Blueprint.sample.importedTable.limitedModules = 0
      ∧ ∃ views : List (Option View),
        views.filterMap (Option.map View.whole)
          = List.replicate 2
            ⟨"ntoskrnl.exe", [.byName 0 "MmMapIoSpace", .byOrdinal 7], 1⟩
        ∧ views.countP (·.isNone) = 1 := by
  have hpresent : sampleDirectory.address ≠ 0 := by decide
  have hlimited : Blueprint.sample.importedTable.limitedModules = 0 := by
    decide
  obtain ⟨_, views, _, _, _, _, hmodules, hskipped⟩ :=
    walk_of_unlimited walk_sample hpresent hlimited
  refine ⟨walk_sample, hpresent, hlimited, views, ?_, ?_⟩
  · rw [← hmodules]
    decide
  · rw [← hskipped]
    decide

end DriverAudit.ImportSource
