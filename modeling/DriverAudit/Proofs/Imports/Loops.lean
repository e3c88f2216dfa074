import DriverAudit.Proofs.Imports.Failures
import DriverAudit.Proofs.Imports.Thunks

/-!
# The walk as two loops

The walk measures an array before it reads its records. A loop that reads a
record, tests it and goes on to the next one comes to the same, and it is what
can be watched step by step. Here are the steps of both loops: over the thunks
of a module, and over the descriptors.
-/

namespace DriverAudit

/-! ## The first record of an array -/

namespace RecordArray

variable {d : ByteArray} {width offset : Nat}

/-- The records passed before count as well as those that follow. -/
theorem measureFrom_add (d : ByteArray) (width offset seen k : Nat) :
    measureFrom d width offset (seen + k)
      = ⟨(measureFrom d width offset seen).count + k,
        (measureFrom d width offset seen).ending⟩ := by
  fun_induction measureFrom d width offset seen with
  | case1 offset seen h hzero =>
    rw [measureFrom, dif_pos h, if_pos hzero]
  | case2 offset seen h hzero ih =>
    rw [measureFrom, dif_pos h, if_neg hzero, Nat.add_right_comm, ih]
  | case3 offset seen h => rw [measureFrom, dif_neg h]

theorem measure_of_outside (h : ¬ Inside d offset width) :
    measure d width offset = ⟨0, .endOfFile⟩ := by
  rw [measure, measureFrom, dif_neg (fun hin => h hin.2)]

theorem measure_of_isZero (hwidth : 0 < width) (h : Inside d offset width)
    (hzero : isZero d offset width = true) :
    measure d width offset = ⟨0, .terminator⟩ := by
  rw [measure, measureFrom, dif_pos ⟨hwidth, h⟩, if_pos hzero]

/-- **An array whose first record does not end it** is one record longer than
the array behind that record. -/
theorem measure_of_not_isZero (hwidth : 0 < width) (h : Inside d offset width)
    (hzero : ¬ isZero d offset width = true) :
    measure d width offset
      = ⟨(measure d width (offset + width)).count + 1,
        (measure d width (offset + width)).ending⟩ := by
  rw [measure, measureFrom, dif_pos ⟨hwidth, h⟩, if_neg hzero,
    measureFrom_add]
  rfl

theorem offsets_succ (count width offset : Nat) (ending : Ending) :
    offsets ⟨count + 1, ending⟩ width offset
      = offset :: offsets ⟨count, ending⟩ width (offset + width) := by
  unfold offsets
  rw [List.range_succ_eq_map, List.map_cons, List.map_map, Nat.zero_mul,
    Nat.add_zero]
  refine congrArg (offset :: ·) (List.map_congr_left (fun i _ => ?_))
  show offset + (i + 1) * width = offset + width + i * width
  rw [Nat.succ_mul]
  omega

theorem isZero_iff_wordAt :
    isZero d offset width = true ↔ wordAt d offset width = 0 := by
  rw [isZero_iff, wordAt_eq_zero_iff]

/-- A record of zeros is zero in both of its parts. -/
theorem isZero_add_iff {rest : Nat} :
    isZero d offset (width + rest) = true
      ↔ isZero d offset width = true
        ∧ isZero d (offset + width) rest = true := by
  simp only [isZero_iff]
  constructor
  · refine fun h => ⟨fun j hj => h j (by omega), fun j hj => ?_⟩
    rw [Nat.add_assoc]
    exact h (width + j) (by omega)
  · rintro ⟨hfirst, hrest⟩ j hj
    by_cases hlt : j < width
    · exact hfirst j hlt
    · have hbyte := hrest (j - width) (by omega)
      rwa [Nat.add_assoc, Nat.add_sub_cancel' (by omega)] at hbyte

end RecordArray

namespace ImportSource

variable {s : ImportSource} {offset : Nat} {name : String}

/-! ## The loop over thunks -/

/-- A thunk in front of what a module contributes. -/
def Contribution.behind (r : Resolution) (c : Contribution) : Contribution where
  module := ⟨c.module.name, r.found?.toList ++ c.module.entries,
    (r.event? c.module.name).toList.length + c.module.skippedEntries⟩
  limited := c.limited
  spent := c.spent + 1
  events := (r.event? c.module.name).toList ++ c.events

/-- **A table of thunks that runs out of the file** contributes the event. -/
theorem moduleAt_of_outside {budget : Nat}
    (h : ¬ Inside s.data offset s.architecture.thunkWidth) :
    s.moduleAt budget name offset
      = { module := ⟨name, [], 1⟩, limited := false, spent := 0,
          events := [.thunksCutOff name offset (s.thunkError offset)] } := by
  have harray : s.thunkArray offset = ⟨0, .endOfFile⟩ :=
    RecordArray.measure_of_outside h
  simp [moduleAt, harray, RecordArray.offsets]

/-- A thunk that is zero ends the table of thunks. -/
theorem thunkArray_of_zero
    (h : Inside s.data offset s.architecture.thunkWidth)
    (hzero : s.thunkAt offset = 0) :
    s.thunkArray offset = ⟨0, .terminator⟩ := by
  refine RecordArray.measure_of_isZero s.architecture.thunkWidth_pos h ?_
  rw [RecordArray.isZero_iff_wordAt]
  exact (s.toNat_thunkAt offset).symm.trans (congrArg UInt64.toNat hzero)

theorem moduleAt_of_zero {budget : Nat}
    (h : Inside s.data offset s.architecture.thunkWidth)
    (hzero : s.thunkAt offset = 0) :
    s.moduleAt budget name offset
      = { module := ⟨name, [], 0⟩, limited := false, spent := 0,
          events := [] } := by
  simp [moduleAt, thunkArray_of_zero h hzero, RecordArray.offsets]

/-- A first thunk that is not zero makes the table of thunks longer. -/
theorem thunkArray_of_ne_zero
    (h : Inside s.data offset s.architecture.thunkWidth)
    (hne : s.thunkAt offset ≠ 0) :
    s.thunkArray offset
      = ⟨(s.thunkArray (offset + s.architecture.thunkWidth)).count + 1,
        (s.thunkArray (offset + s.architecture.thunkWidth)).ending⟩ := by
  refine RecordArray.measure_of_not_isZero s.architecture.thunkWidth_pos h
    (fun hzero => hne (UInt64.toNat_inj.1 ?_))
  rw [RecordArray.isZero_iff_wordAt] at hzero
  exact (s.toNat_thunkAt offset).trans hzero

/-- **A spent budget** leaves the table of thunks at once. -/
theorem moduleAt_of_spent
    (h : Inside s.data offset s.architecture.thunkWidth)
    (hne : s.thunkAt offset ≠ 0) :
    s.moduleAt 0 name offset
      = { module := ⟨name, [], 0⟩, limited := true, spent := 0,
          events := [] } := by
  simp [moduleAt, thunkArray_of_ne_zero h hne]

/-- **One thunk further.** -/
theorem moduleAt_of_ne_zero {budget : Nat}
    (h : Inside s.data offset s.architecture.thunkWidth)
    (hne : s.thunkAt offset ≠ 0) :
    s.moduleAt (budget + 1) name offset
      = (s.moduleAt budget name (offset + s.architecture.thunkWidth)).behind
        (s.resolutionAt offset) := by
  have hend : ∀ count, offset + (count + 1) * s.architecture.thunkWidth
      = offset + s.architecture.thunkWidth
        + count * s.architecture.thunkWidth := by
    intro count
    rw [Nat.succ_mul]
    omega
  unfold moduleAt Contribution.behind
  simp only [thunkArray_of_ne_zero h hne, RecordArray.offsets_succ, hend,
    List.take_succ_cons, List.map_cons, List.filterMap_cons,
    Nat.add_lt_add_iff_right, List.length_cons]
  cases (s.resolutionAt offset).found? <;>
    cases (s.resolutionAt offset).event? name <;>
    simp [Nat.add_assoc, Nat.add_comm, Nat.add_left_comm]

/-! ## The counters of the walk -/

/-- **The counters of a walk that has come to an offset**: they are not above
the offset, and the imports found so far have been paid for. -/
structure Progress.Within (limit offset : Nat) (p : Progress) : Prop where
  skipped : p.skippedModules ≤ offset
  limited : p.limitedModules ≤ offset
  found : p.table.count + p.budget ≤ limit

theorem Progress.within_start (limit offset : Nat) :
    (Progress.start limit).Within limit offset :=
  ⟨Nat.zero_le _, Nat.zero_le _, (Nat.zero_add limit).le⟩

/-- The imports of a contribution have been paid for. -/
theorem entries_contribution_le (s : ImportSource) (budget : Nat) (l : Lead) :
    (s.contribution budget l).module.entries.length
      + (budget - (s.contribution budget l).spent) ≤ budget := by
  have hentries : (s.contribution budget l).module.entries.length
      ≤ min budget (s.leadArray l).count := by
    rw [contribution_entries, ← length_leadThunks, ← List.length_take]
    exact List.length_filterMap_le _ _
  rw [contribution_spent]
  omega

theorem Progress.count_add (p : Progress) (budget : Nat) (c : Contribution) :
    (p.add budget c).table.count
      = p.table.count + c.module.entries.length := by
  simp only [ImportTable.count_eq_length_entries, ImportTable.entries,
    Progress.table, Progress.add, Array.toList_push, List.flatMap_append,
    List.length_append, List.flatMap_cons, List.flatMap_nil,
    List.append_nil]

/-- **One descriptor further**, no counter has gone further than the walk. -/
theorem Progress.Within.advance {limit next place : Nat} {p : Progress}
    (h : p.Within limit offset) (hnext : offset < next) :
    (s.advance p place).Within limit next := by
  obtain ⟨hskipped, hlimited, hfound⟩ := h
  obtain ⟨_, ha⟩ | ⟨budget, _, hbudget, _, ha⟩ | ⟨budget, l, hbudget, _, ha⟩ :=
    advance_cases s p place
  · rw [ha]
    exact ⟨Nat.le_trans hskipped hnext.le, Nat.succ_le_of_lt
      (Nat.lt_of_le_of_lt hlimited hnext), hfound⟩
  · rw [ha]
    refine ⟨Nat.succ_le_of_lt (Nat.lt_of_le_of_lt hskipped hnext),
      Nat.le_trans hlimited hnext.le, ?_⟩
    show p.table.count + budget ≤ limit
    omega
  · have hpaid := entries_contribution_le s budget l
    rw [ha]
    refine ⟨Nat.le_trans hskipped hnext.le, ?_, ?_⟩
    · show p.limitedModules + _ ≤ next
      split <;> omega
    · rw [Progress.count_add]
      show _ + (budget - _) ≤ limit
      omega

/-! ## The loop over descriptors -/

/-- A descriptor marks the end when all its bytes are zero. -/
theorem isSentinel_atOffset_iff {d : ByteArray} :
    (Descriptor.atOffset d offset).isSentinel = true
      ↔ RecordArray.isZero d offset Descriptor.byteSize = true := by
  have hfield : ∀ place, UInt32.ofNat (wordAt d place 4) = 0
      ↔ RecordArray.isZero d place 4 = true := by
    intro place
    have hlt : wordAt d place 4 < 2 ^ 32 := wordAt_lt d place 4
    rw [RecordArray.isZero_iff_wordAt, ← UInt32.toNat_inj,
      UInt32.toNat_ofNat_of_lt' hlt]
    rfl
  unfold Descriptor.isSentinel
  rw [beq_iff_eq, show Descriptor.byteSize = 4 + (4 + (4 + (4 + 4))) from rfl]
  simp only [RecordArray.isZero_add_iff, ← hfield, Nat.add_assoc]
  simp [Descriptor.atOffset, Descriptor.sentinel]

/-- **What the loop over descriptors comes to**, from an offset on. -/
def runFrom (s : ImportSource) (offset : Nat) (p : Progress) :
    Except ImageError Unit × Progress :=
  (outcomeAt (s.descriptorArray offset) offset,
    (s.descriptorOffsets offset).foldl s.advance p)

variable {p : Progress}

theorem runFrom_of_outside
    (h : ¬ Inside s.data offset Descriptor.byteSize) :
    s.runFrom offset p = (.error (.importTableTruncated offset), p) := by
  have harray : s.descriptorArray offset = ⟨0, .endOfFile⟩ :=
    RecordArray.measure_of_outside h
  simp [runFrom, descriptorOffsets, harray, outcomeAt, RecordArray.offsets,
    RecordArray.recordOffset]

theorem runFrom_of_isSentinel (h : Inside s.data offset Descriptor.byteSize)
    (hsentinel : (Descriptor.atOffset s.data offset).isSentinel = true) :
    s.runFrom offset p = (.ok (), p) := by
  have harray : s.descriptorArray offset = ⟨0, .terminator⟩ :=
    RecordArray.measure_of_isZero (by decide) h
      (isSentinel_atOffset_iff.1 hsentinel)
  simp [runFrom, descriptorOffsets, harray, outcomeAt, RecordArray.offsets]

/-- **One descriptor further.** -/
theorem runFrom_of_not_isSentinel
    (h : Inside s.data offset Descriptor.byteSize)
    (hsentinel : ¬ (Descriptor.atOffset s.data offset).isSentinel = true) :
    s.runFrom offset p
      = s.runFrom (offset + Descriptor.byteSize) (s.advance p offset) := by
  have harray := RecordArray.measure_of_not_isZero (by decide) h
    (mt isSentinel_atOffset_iff.2 hsentinel)
  have hend : ∀ count, RecordArray.recordOffset Descriptor.byteSize offset
      (count + 1) = RecordArray.recordOffset Descriptor.byteSize
        (offset + Descriptor.byteSize) count := by
    intro count
    unfold RecordArray.recordOffset
    rw [Nat.succ_mul]
    omega
  unfold runFrom descriptorOffsets outcomeAt descriptorArray
  rw [harray, RecordArray.offsets_succ, List.foldl_cons]
  simp only [hend]

/-- What a walk comes to when there are no more descriptors. -/
def conclude (s : ImportSource) :
    Except ImageError Unit × Progress → Traced (Except ImageError ImportTable)
  | (.error e, p) => ⟨.error e, p.events.toList⟩
  | (.ok (), p) =>
    ⟨.ok p.table, p.events.toList
      ++ if p.table.isLimited then
          [Event.importLimitReached s.limits.imports p.table.limitedModules
            p.table.count]
        else []⟩

/-- What the loop comes to is the table. -/
theorem tableAt_eq_runFrom (s : ImportSource) (offset : Nat) :
    s.tableAt offset
      = s.conclude (s.runFrom offset (.start s.limits.imports)) := by
  unfold tableAt runFrom outcomeAt
  cases hend : (s.descriptorArray offset).ending <;>
    simp only [hend] <;> rfl

end ImportSource

end DriverAudit
