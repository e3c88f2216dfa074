import DriverAudit.Proofs.Scan.BuiltImages

/-!
# The layout of an image does not show in what it imports

The same blueprint makes different images in the two layouts: the headers have
other lengths, thunks have another width and another flag, and so nearly every
piece of the section is somewhere else. None of that can be seen in the import
table. What can be seen of a thunk depends on the layout only where the bits of
the thunk are written as they are, since a thunk is as wide as the layout says;
all else is names and numbers.

This holds under all limits, whether or not they cut anything short: what a
budget leaves of a table depends on how many thunks there are and in which
order, and not on where they are.
-/

namespace DriverAudit

namespace Blueprint

variable {b : Blueprint} {limits : ParseLimits}

/-- **A blueprint in one of the layouts.** -/
def inLayout (b : Blueprint) (a : Architecture) : Blueprint :=
  { b with architecture := a }

/-- **A blueprint that names what it imports**: each thunk is an import by name
or by number. -/
def HasNoRawThunk (b : Blueprint) : Prop :=
  ∀ m ∈ b.modules, ∀ t ∈ m.thunks, t.isRaw = false

instance (b : Blueprint) : Decidable b.HasNoRawThunk :=
  inferInstanceAs (Decidable (∀ m ∈ b.modules, ∀ t ∈ m.thunks, t.isRaw = false))

/-- What can be seen of a thunk with a meaning does not depend on the layout. -/
theorem visible?_eq_of_not_raw {t : ThunkSpec} (ht : t.isRaw = false)
    (a a' : Architecture) (limits : ParseLimits) (slot : Nat) :
    t.visible? a limits slot = t.visible? a' limits slot := by
  cases t with
  | name text => rfl
  | ordinal number => rfl
  | raw bits => cases ht

/-- A thunk with a meaning does not end its table. -/
theorem isEndMark_of_not_raw {t : ThunkSpec} (ht : t.isRaw = false)
    (a : Architecture) : t.isEndMark a = false := by
  cases t with
  | name text => rfl
  | ordinal number => rfl
  | raw bits => cases ht

/-- **What a module shows does not depend on the layout.** -/
theorem view?_eq_of_not_raw {m : ModuleSpec}
    (hm : ∀ t ∈ m.thunks, t.isRaw = false) (a a' : Architecture)
    (limits : ParseLimits) : m.view? a limits = m.view? a' limits := by
  have hfound : (m.thunks.zipIdx.map fun x => x.1.visible? a limits x.2)
      = m.thunks.zipIdx.map fun x => x.1.visible? a' limits x.2 :=
    List.map_congr_left fun x hx =>
      visible?_eq_of_not_raw (hm x.1 (List.fst_mem_of_mem_zipIdx hx)) a a'
        limits x.2
  have hall : ∀ a : Architecture, m.visibleThunks a = m.thunks := fun a =>
    visibleThunks_eq_thunks fun t ht => isEndMark_of_not_raw (hm t ht) a
  unfold ModuleSpec.view?
  rw [hall, hall, hfound]

/-- **What can be seen of a blueprint does not depend on the layout.** -/
theorem visibleTable_inLayout (hraw : b.HasNoRawThunk) (a : Architecture)
    (limits : ParseLimits) :
    (b.inLayout a).visibleTable limits = b.visibleTable limits := by
  have hviews : (b.describedModules.map (·.view? a limits))
      = b.describedModules.map (·.view? b.architecture limits) :=
    List.map_congr_left fun m hm =>
      view?_eq_of_not_raw (hraw m (mem_of_mem_shareFirst hm)) a _ limits
  show (if b.hasImportDirectory then
      View.tableWithin _ (b.describedModules.map (·.view? a limits)) else _) = _
  rw [hviews]
  rfl

/-- The images of a blueprint in both layouts, and a scan of each. -/
theorem scanBytes_inLayout (s : Scanner) (path : String)
    (hraw : b.HasNoRawThunk) (htidy : ∀ a, (b.inLayout a).Tidy)
    (a : Architecture) :
    importTableOf (b.inLayout a).build s.limits = .ok (b.visibleTable s.limits)
      ∧ (s.scanBytes path (b.inLayout a).build).value
        = .ok (s.resultOf path (b.inLayout a).headers
            (b.visibleTable s.limits)) := by
  have hshows := shows_build (b.inLayout a)
  rw [← visibleTable_inLayout hraw a]
  exact ⟨importTableOf_of_shows (htidy a) hshows s.limits,
    Scanner.scanBytes_of_shows (htidy a) hshows path⟩

/-- **Both layouts import the same.** For every blueprint without bits that are
written as they are, the image in the 32-bit layout and the image in the 64-bit
layout have the same import table, entry by entry and count by count, under any
limits; so a scan for any targets matches the same routines in both, out of as
many imported ones. -/
theorem importTableOf_inLayout (s : Scanner) (path : String)
    (hraw : b.HasNoRawThunk) (hdirectory : b.importDirectoryAddress = none)
    (hlow : ∀ a, (b.inLayout a).IsLow)
    (hnames : ∀ a, ∀ m ∈ b.modules, ∀ address ∈ m.nameAddress,
      ¬ (b.inLayout a).Covers address.toNat) :
    ∃ t narrow wide,
      importTableOf (b.inLayout .pe32).build s.limits = .ok t
      ∧ importTableOf (b.inLayout .pe32Plus).build s.limits = .ok t
      ∧ (s.scanBytes path (b.inLayout .pe32).build).value = .ok narrow
      ∧ (s.scanBytes path (b.inLayout .pe32Plus).build).value = .ok wide
      ∧ narrow.matched = wide.matched
      ∧ narrow.importedCount = wide.importedCount := by
  have htidy : ∀ a, (b.inLayout a).Tidy := fun a =>
    { low := hlow a
      directory := hdirectory
      rawThunks := fun m hm bits hbits => by cases hraw m hm _ hbits
      nameAddresses := hnames a }
  obtain ⟨hnarrow, hscan⟩ := scanBytes_inLayout s path hraw htidy .pe32
  obtain ⟨hwide, hscan'⟩ := scanBytes_inLayout s path hraw htidy .pe32Plus
  exact ⟨_, _, _, hnarrow, hwide, hscan, hscan', rfl, rfl⟩

/-- A blueprint that names all that it imports, with a copy of its first module
and a module of which the name cannot be found. -/
def namedSample : Blueprint where
  architecture := .pe32
  modules :=
    [{ name := "ntoskrnl.exe"
       thunks := [.name "MmMapIoSpace", .ordinal 7] },
     { name := "hal.dll"
       thunks := [.name "HalGetBusData"]
       hasLookupTable := false
       nameAddress := some 0 }]
  sharedDescriptors := 1

/-- The sample in both layouts. -/
theorem importTableOf_inLayout_sample :
    namedSample.HasNoRawThunk ∧ (∀ a, (namedSample.inLayout a).IsLow)
      ∧ ∃ t narrow wide,
        importTableOf (namedSample.inLayout .pe32).build .default = .ok t
        ∧ importTableOf (namedSample.inLayout .pe32Plus).build .default = .ok t
        ∧ (sampleScanner.scanBytes "sample.sys"
            (namedSample.inLayout .pe32).build).value = .ok narrow
        ∧ (sampleScanner.scanBytes "sample.sys"
            (namedSample.inLayout .pe32Plus).build).value = .ok wide
        ∧ narrow.matched = wide.matched
        ∧ narrow.importedCount = wide.importedCount := by
  have hraw : namedSample.HasNoRawThunk := by decide
  have hlow : ∀ a, (namedSample.inLayout a).IsLow := by
    intro a
    cases a <;> decide
  have hnames : ∀ a, ∀ m ∈ namedSample.modules, ∀ address ∈ m.nameAddress,
      ¬ (namedSample.inLayout a).Covers address.toNat := by
    intro a m hm address haddress
    rcases List.mem_cons.1 hm with rfl | hlast
    · cases haddress
    · rw [List.mem_singleton.1 hlast] at haddress
      obtain rfl : 0 = address := Option.some.inj haddress
      cases a <;> decide
  exact ⟨hraw, hlow, importTableOf_inLayout sampleScanner "sample.sys" hraw rfl
    hlow hnames⟩

end Blueprint

end DriverAudit
