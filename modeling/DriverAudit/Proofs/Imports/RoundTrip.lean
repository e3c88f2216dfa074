import DriverAudit.Proofs.Imports.BuiltTables
import Mathlib.Algebra.Order.BigOperators.Group.List
import Mathlib.Algebra.Order.Group.Nat

/-!
# Walking a built image gives back what it was built from

What can be seen of a blueprint need not be what it was written for. A text with
the character zero ends early, a text that is too long is not read at all, bits
that are written as they are may happen to mean something, and the budget may
end before the table does. `Readable` rules these out. Of a readable blueprint,
every module whose name can be found shows just what was written, and the
budget covers them all: the walk finds the import table that the blueprint asks
for, entry by entry.
-/

namespace DriverAudit

/-! ## What a blueprint imports -/

/-- The import that a thunk was written for, if it was written for one. The
hint of a name is the slot of its thunk. -/
def ThunkSpec.import? (slot : Nat) : ThunkSpec → Option ImportEntry
  | .name text => some (.byName (UInt16.ofNat slot) text)
  | .ordinal number => some (.byOrdinal number)
  | .raw _ => none

/-- **The imports from a module.** -/
def ModuleSpec.imported (m : ModuleSpec) : ImportModule where
  name := m.name
  entries := m.thunks.zipIdx.filterMap fun x => x.1.import? x.2
  skippedEntries := m.thunks.countP (·.isRaw)

/-- What the descriptor of a module costs a walk at most. -/
def ModuleSpec.cost (m : ModuleSpec) : Nat := 1 + m.thunks.length

/-- The imports from a module, if its name can be found. -/
def ModuleSpec.imported? (m : ModuleSpec) : Option ImportModule :=
  if m.isNamed then some m.imported else none

theorem ModuleSpec.isNone_imported? (m : ModuleSpec) :
    m.imported?.isNone = !m.isNamed := by
  unfold imported?
  cases m.isNamed <;> rfl

/-- The imports from the modules of which the name can be found. -/
theorem ModuleSpec.map_filter_isNamed (l : List ModuleSpec) :
    (l.filter (·.isNamed)).map (·.imported) = l.filterMap (·.imported?) := by
  rw [← List.filterMap_eq_filter, List.map_filterMap]
  refine List.filterMap_congr (fun m _ => ?_)
  unfold imported? Option.guard
  split <;> rfl

namespace Blueprint

/-- **The import table that a blueprint asks for.** -/
def importedTable (b : Blueprint) : ImportTable :=
  if b.hasImportDirectory then
    { modules := (b.describedModules.filter (·.isNamed)).map (·.imported)
      skippedModules := b.describedModules.countP (!·.isNamed)
      limitedModules := 0 }
  else .empty

/-- **A thunk that can be read back**: a text that is terminated where it ends,
a number, or bits that mean nothing. -/
def ReadableThunk (b : Blueprint) (limits : ParseLimits) : ThunkSpec → Prop
  | .name text =>
    '\x00' ∉ text.toList ∧ text.utf8ByteSize < limits.nameLength
  | .ordinal _ => True
  | .raw bits =>
    let written := bits.toNat % 256 ^ b.architecture.thunkWidth
    written ≠ 0 ∧ ¬ b.architecture.IsFlagged written ∧ ¬ b.Covers written

instance (b : Blueprint) (limits : ParseLimits) :
    (t : ThunkSpec) → Decidable (b.ReadableThunk limits t)
  | .name _ => inferInstanceAs (Decidable (_ ∧ _))
  | .ordinal _ => inferInstanceAs (Decidable True)
  | .raw _ => inferInstanceAs (Decidable (_ ∧ _))

/-- **A blueprint that can be read back** under some limits. -/
structure Readable (b : Blueprint) (limits : ParseLimits) : Prop where
  low : b.IsLow
  directory : b.importDirectoryAddress = none
  thunks : ∀ m ∈ b.modules, ∀ t ∈ m.thunks, b.ReadableThunk limits t
  names : ∀ m ∈ b.modules,
    '\x00' ∉ m.name.toList ∧ m.name.utf8ByteSize < limits.moduleNameLength
  /-- An address given in place of the right one leads nowhere. -/
  nameAddresses : ∀ m ∈ b.modules, ∀ address ∈ m.nameAddress,
    ¬ b.Covers address.toNat
  budget : (b.describedModules.map (·.cost)).sum ≤ limits.imports

variable {b : Blueprint} {limits : ParseLimits}

/-- A blueprint that can be read back is tidy. -/
theorem Readable.tidy (h : b.Readable limits) : b.Tidy where
  low := h.low
  directory := h.directory
  rawThunks m hm _ hbits := (h.thunks m hm _ hbits).2.2
  nameAddresses := h.nameAddresses

/-! ## What was written is what can be seen -/

variable {m : ModuleSpec}

/-- A thunk that can be read back comes to what it was written for. -/
theorem visible?_of_readable {t : ThunkSpec} (ht : b.ReadableThunk limits t)
    (slot : Nat) : t.visible? b.architecture limits slot = t.import? slot := by
  cases t with
  | name text => rw [ThunkSpec.visible?, textBelow_eq_some ht.1 ht.2]; rfl
  | ordinal number => rfl
  | raw bits => exact if_neg ht.2.1

/-- A thunk that can be read back does not end its table. -/
theorem isEndMark_of_readable {t : ThunkSpec}
    (ht : b.ReadableThunk limits t) : t.isEndMark b.architecture = false := by
  cases t with
  | name text => rfl
  | ordinal number => rfl
  | raw bits => exact beq_eq_false_iff_ne.2 ht.1

section Readable

variable (h : b.Readable limits) (hm : m ∈ b.modules)
include h hm

/-- **A module that can be read back** shows just what was written. -/
theorem view?_of_readable :
    m.view? b.architecture limits
      = if m.isNamed then
          some ⟨m.name, m.thunks.zipIdx.map fun x => x.1.import? x.2,
            .terminator⟩
        else none := by
  obtain ⟨hzero, hlength⟩ := h.names m hm
  have hfound : (m.thunks.zipIdx.map fun x =>
        x.1.visible? b.architecture limits x.2)
      = m.thunks.zipIdx.map fun x => x.1.import? x.2 := by
    refine List.map_congr_left (fun x hx => ?_)
    exact visible?_of_readable (h.thunks m hm x.1 (List.fst_mem_of_mem_zipIdx hx))
      x.2
  have hall : m.visibleThunks b.architecture = m.thunks :=
    visibleThunks_eq_thunks fun t ht => isEndMark_of_readable (h.thunks m hm t ht)
  rw [ModuleSpec.view?, textBelow_eq_some hzero hlength, hall, hfound]
  rfl

theorem whole_view?_of_readable :
    (m.view? b.architecture limits).map View.whole = m.imported? := by
  rw [view?_of_readable h hm, ModuleSpec.imported?]
  split
  · -- a thunk is passed over just when it was written without a meaning
    have hslots : ∀ x : ThunkSpec × Nat,
        (x.1.import? x.2).isNone = x.1.isRaw := by
      rintro ⟨t, slot⟩
      cases t <;> rfl
    have hraw : m.thunks.zipIdx.countP (fun x => (x.1.import? x.2).isNone)
        = m.thunks.countP (·.isRaw) := by
      simp only [hslots]
      show m.thunks.zipIdx.countP (ThunkSpec.isRaw ∘ Prod.fst) = _
      rw [← List.countP_map, List.zipIdx_map_fst]
    refine congrArg some (ImportModule.ext rfl List.filterMap_map ?_)
    show List.countP _ (List.map _ _) + 0 = _
    rw [List.countP_map]
    exact hraw
  · rfl

/-- The descriptor of a module costs at most what its module would. -/
theorem cost_view?_of_readable :
    View.cost (m.view? b.architecture limits) ≤ m.cost := by
  rw [view?_of_readable h hm]
  unfold ModuleSpec.cost
  split
  · show 1 + (m.thunks.zipIdx.map _).length ≤ _
    rw [List.length_map, List.length_zipIdx]
  · exact Nat.le_add_right 1 _

end Readable

/-- **What can be seen of a readable blueprint is what it asks for.** -/
theorem visibleTable_of_readable (h : b.Readable limits) :
    b.visibleTable limits = b.importedTable := by
  have hmem : ∀ m ∈ b.describedModules, m ∈ b.modules :=
    fun m hm => mem_of_mem_shareFirst hm
  have hbudget : ((b.describedModules.map
      (·.view? b.architecture limits)).map View.cost).sum ≤ limits.imports := by
    rw [List.map_map]
    refine Nat.le_trans (List.sum_le_sum (fun m hm => ?_)) h.budget
    exact cost_view?_of_readable h (hmem m hm)
  have hmodules : (b.describedModules.map
        (·.view? b.architecture limits)).filterMap (Option.map View.whole)
      = b.describedModules.filterMap (·.imported?) := by
    rw [List.filterMap_map]
    exact List.filterMap_congr
      (fun m hm => whole_view?_of_readable h (hmem m hm))
  have hskipped : (b.describedModules.map
        (·.view? b.architecture limits)).countP (·.isNone)
      = b.describedModules.countP (!·.isNamed) := by
    rw [List.countP_map]
    refine List.countP_congr (fun m hm => ?_)
    have hwhole := whole_view?_of_readable h (hmem m hm)
    rw [Function.comp_apply, ← Option.isNone_map (f := View.whole), hwhole,
      m.isNone_imported?]
  unfold visibleTable importedTable
  rw [View.tableWithin_of_cost_le hbudget, hmodules, hskipped,
    ModuleSpec.map_filter_isNamed]

/-- **The walk of a built image finds the import table of its blueprint.** -/
theorem walk_source (h : b.Readable limits) :
    ((b.source b.build limits).walk b.headers.optional.imports).value
      = .ok b.importedTable := by
  rw [walk_of_shows h.tidy b.shows_build, visibleTable_of_readable h]

/-- A blueprint with thunks of every kind, a copy of its first module, and a
module of which the name cannot be found. -/
def sample : Blueprint where
  architecture := .pe32
  modules :=
    [{ name := "ntoskrnl.exe"
       thunks := [.name "MmMapIoSpace", .ordinal 7, .raw 0x10] },
     { name := "hal.dll"
       thunks := [.name "HalGetBusData"]
       hasLookupTable := false
       nameAddress := some 0 }]
  sharedDescriptors := 1

theorem readable_sample : sample.Readable .default where
  low := by decide
  directory := rfl
  thunks := by decide
  names := by decide
  nameAddresses := by
    intro m hm address haddress
    rcases List.mem_cons.1 hm with rfl | hlast
    · cases haddress
    · rw [List.mem_singleton.1 hlast] at haddress
      obtain rfl : 0 = address := Option.some.inj haddress
      decide
  budget := by decide

/-- **Reading undoes building.** Of every blueprint that can be read back, the
image that is built from it has exactly the import table that the blueprint
asks for: the modules with a name that can be found, in order and with the
copies of the first one behind them, each with its imports by name and by
number in order and with a count of the thunks that mean nothing; a count of
the other modules; and nothing limited. -/
theorem importTableOf_build (h : b.Readable limits) :
    importTableOf b.build limits = .ok b.importedTable :=
  bind_eq_ok_iff.2 ⟨b.headers, b.read_build, walk_source h⟩

/-- The import table of the sample. -/
theorem importTableOf_build_sample :
    sample.Readable .default
      ∧ importTableOf sample.build .default
        = .ok ⟨List.replicate 2
          ⟨"ntoskrnl.exe", [.byName 0 "MmMapIoSpace", .byOrdinal 7], 1⟩,
          1, 0⟩ := by
  refine ⟨readable_sample, ?_⟩
  rw [importTableOf_build readable_sample]
  decide

end Blueprint

end DriverAudit
