import DriverAudit.Image
import DriverAudit.Proofs.Imports.Progress

/-!
# Import tables and the whole modules behind them

The table at an offset of a file is what the walk over its descriptors has
found, and there is one exactly when the array of descriptors has its end mark
(`tableAt_eq_ok_iff`). By what is known of walks, an import of the table is one
of some whole module, and of a walk that was not limited the table holds the
whole modules themselves.
-/

namespace DriverAudit

/-- The names of a table are those of its imports. -/
theorem ImportTable.mem_names_iff {t : ImportTable} {name : String} :
    name ∈ t.names ↔ ∃ e ∈ t.entries, e.name? = some name := by
  unfold names
  rw [NameSet.mem_ofList, List.mem_filterMap]

namespace ImportSource

variable {s : ImportSource} {offset : Nat} {table : ImportTable}

/-- The offsets of the descriptors of a table. -/
def descriptorOffsets (s : ImportSource) (offset : Nat) : List Nat :=
  (s.descriptorArray offset).offsets Descriptor.byteSize offset

/-- What a walk over all descriptors has found. -/
def walked (s : ImportSource) (offset : Nat) : Progress :=
  (s.descriptorOffsets offset).foldl s.advance (.start s.limits.imports)

/-- **What is at an offset** depends on how the descriptors end: either what
the walk has found, or an error that says where they run out of the file. -/
theorem tableAt_value (s : ImportSource) (offset : Nat) :
    (s.tableAt offset).value
      = match (s.descriptorArray offset).ending with
        | .terminator => .ok (s.walked offset).table
        | .endOfFile =>
          .error (.importTableTruncated
            (RecordArray.recordOffset Descriptor.byteSize offset
              (s.descriptorArray offset).count)) := by
  unfold tableAt
  dsimp only
  cases (s.descriptorArray offset).ending <;> rfl

/-- There is no table where the descriptors run out of the file. -/
theorem tableAt_value_of_endOfFile
    (hend : (s.descriptorArray offset).ending = .endOfFile) :
    (s.tableAt offset).value
      = .error (.importTableTruncated
        (RecordArray.recordOffset Descriptor.byteSize offset
          (s.descriptorArray offset).count)) := by
  rw [tableAt_value, hend]

/-- **There is a table where the descriptors have an end mark.** -/
theorem tableAt_eq_ok_iff :
    (s.tableAt offset).value = .ok table
      ↔ (s.descriptorArray offset).ending = .terminator
        ∧ (s.walked offset).table = table := by
  rw [tableAt_value]
  cases (s.descriptorArray offset).ending with
  | endOfFile =>
    refine iff_of_false (fun h => ?_) (fun h => ?_)
    · cases h
    · cases h.1
  | terminator =>
    show Except.ok (s.walked offset).table = Except.ok table ↔ _
    rw [Except.ok.injEq]
    exact (and_iff_right rfl).symm

/-- **The whole modules of a table**, one for each descriptor that leads
somewhere. -/
def wholeModules (s : ImportSource) (offset : Nat) : List ImportModule :=
  (s.descriptorOffsets offset).filterMap s.wholeModuleAt?

/-- Every import of a table is one of a whole module. -/
theorem mem_entries_wholeModules (h : (s.tableAt offset).value = .ok table)
    {e : ImportEntry} (he : e ∈ table.entries) :
    ∃ m ∈ s.wholeModules offset, e ∈ m.entries := by
  obtain ⟨_, rfl⟩ := tableAt_eq_ok_iff.1 h
  obtain ⟨m, hm, hem⟩ := List.mem_flatMap.1 he
  rcases mem_modules_foldl (Array.mem_toList_iff.1 hm) with
    hstart | ⟨o, ho, whole, hwhole, hcut⟩
  · exact absurd hstart (Array.not_mem_empty m)
  · exact ⟨whole, List.mem_filterMap.2 ⟨o, ho, hwhole⟩,
      hcut.entries.subset hem⟩

/-- **A table that is not limited** holds the whole modules. -/
theorem modules_eq_wholeModules (h : (s.tableAt offset).value = .ok table)
    (hlimited : table.limitedModules = 0) :
    table.modules = s.wholeModules offset := by
  obtain ⟨_, rfl⟩ := tableAt_eq_ok_iff.1 h
  exact (foldl_of_unlimited hlimited).1

end ImportSource

/-! ## The table of an image -/

/-- What a walk of an image with some headers looks at. -/
def Headers.importSource (h : Headers) (d : ByteArray)
    (limits : ParseLimits) : ImportSource :=
  ⟨d, h.sections, h.optional.architecture, limits⟩

/-- **The import table of some data**, or what is wrong with its headers or
with the table. -/
def importTableOf (d : ByteArray) (limits : ParseLimits) :
    Except ImageError ImportTable := do
  let h ← Headers.read d
  ((h.importSource d limits).walk h.optional.imports).value

namespace ImportSource

variable {s : ImportSource} {directory : DataDirectory} {table : ImportTable}

theorem isPresent_iff : directory.isPresent = true ↔ directory.address ≠ 0 := by
  unfold DataDirectory.isPresent
  exact bne_iff_ne

/-- Without the directory there is nothing to walk. -/
theorem walk_value_of_absent (h : directory.address = 0) :
    (s.walk directory).value = .ok .empty := by
  unfold walk
  rw [if_neg (fun hp => isPresent_iff.1 hp h)]
  rfl

/-- With a directory whose address lies in a section, the table is there. -/
theorem walk_value_of_mapped {offset : Nat} (h : directory.address ≠ 0)
    (hmapped : s.sections.fileOffset directory.address = .ok offset) :
    (s.walk directory).value = (s.tableAt offset).value := by
  unfold walk
  rw [if_pos (isPresent_iff.2 h), hmapped]

/-- A directory whose address lies in no section is an error. -/
theorem walk_value_of_unmapped {e : ImageError} (h : directory.address ≠ 0)
    (hmapped : s.sections.fileOffset directory.address = .error e) :
    (s.walk directory).value
      = .error (.importDirectoryUnmapped directory.address) := by
  unfold walk
  rw [if_pos (isPresent_iff.2 h), hmapped]
  rfl

/-- **A walk finds an empty table without the directory**, and else the table
at the offset that the directory locates. -/
theorem walk_eq_ok_iff :
    (s.walk directory).value = .ok table
      ↔ (directory.address = 0 ∧ table = .empty)
        ∨ (directory.address ≠ 0 ∧ ∃ offset,
            s.sections.fileOffset directory.address = .ok offset
            ∧ (s.tableAt offset).value = .ok table) := by
  by_cases h : directory.address = 0
  · rw [walk_value_of_absent h]
    simp [h, eq_comm]
  · cases hmapped : s.sections.fileOffset directory.address with
    | error e =>
      rw [walk_value_of_unmapped h hmapped]
      simp [h]
    | ok offset =>
      rw [walk_value_of_mapped h hmapped]
      simp [h]

end ImportSource

end DriverAudit
