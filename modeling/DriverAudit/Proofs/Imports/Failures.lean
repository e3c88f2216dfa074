import DriverAudit.Proofs.Image.SectionLookup
import DriverAudit.Proofs.Imports.Tables

/-!
# When a walk fails

Damage to what a descriptor points to costs a walk no more than the imports it
held, so a walk can fail for two reasons only. No section covers the address of
the import directory, or the array of descriptors runs out of the file: some
record is not wholly inside it, and no record before is the end mark
(`RecordArray.RunsOut`).

Both are said of the file by its sections and its descriptors, and neither
mentions the layout, the limits, or any name or table of thunks. In particular
a budget that is used up hides nothing: the end mark is asked for all the same.
-/

namespace DriverAudit

/-! ## Arrays that run out of the file -/

namespace RecordArray

variable {d : ByteArray} {width offset k : Nat}

/-- **An array that runs out of the file at record `k`**: that record is the
first one that is not inside the file, and none before it ends the array. -/
structure RunsOut (d : ByteArray) (width offset k : Nat) : Prop where
  live : ∀ i < k, Live d width offset i
  outside : ¬ Inside d (recordOffset width offset k) width

/-- **An array with its end mark at record `k`.** -/
structure EndsAt (d : ByteArray) (width offset k : Nat) : Prop where
  live : ∀ i < k, Live d width offset i
  blank : Blank d width offset k

theorem runsOut_iff (hwidth : 0 < width) :
    RunsOut d width offset k ↔ measure d width offset = ⟨k, .endOfFile⟩ := by
  rw [measure_eq_iff hwidth]
  refine ⟨fun h => ⟨h.live, fun he => ?_, fun _ => h.outside⟩,
    fun h => ⟨h.live, h.outside rfl⟩⟩
  cases he

theorem endsAt_iff (hwidth : 0 < width) :
    EndsAt d width offset k ↔ measure d width offset = ⟨k, .terminator⟩ := by
  rw [measure_eq_iff hwidth]
  refine ⟨fun h => ⟨h.live, fun _ => h.blank, fun he => ?_⟩,
    fun h => ⟨h.live, h.blank rfl⟩⟩
  cases he

/-- A record inside the file either goes on or ends the array. -/
theorem live_or_blank (h : Inside d (recordOffset width offset k) width) :
    Live d width offset k ∨ Blank d width offset k := by
  by_cases hword : wordAt d (recordOffset width offset k) width = 0
  · exact Or.inr (blank_of_wordAt_eq_zero h hword)
  · exact Or.inl (live_of_wordAt_ne_zero h hword)

/-- **An array is measured by the records up to its end.** Two files have the
same array at some place when each record that is reached ends the array in
both files or in neither, and lies inside both or neither. -/
theorem measure_eq_of_reached {d' : ByteArray} (hwidth : 0 < width)
    (h : ∀ k, (∀ i < k, Live d width offset i) →
      (Live d' width offset k ↔ Live d width offset k)
        ∧ (Blank d' width offset k ↔ Blank d width offset k)) :
    measure d' width offset = measure d width offset := by
  have hfits : Fits d width offset (measure d width offset) :=
    fits_measure hwidth
  have hbefore : ∀ i < (measure d width offset).count,
      ∀ j < i, Live d width offset j :=
    fun i hi j hj => hfits.live j (Nat.lt_trans hj hi)
  have hend := h (measure d width offset).count hfits.live
  refine (measure_eq_iff hwidth).2
    ⟨fun i hi => ((h i (hbefore i hi)).1).2 (hfits.live i hi),
      fun he => hend.2.2 (hfits.blank he), fun he hin => ?_⟩
  rcases live_or_blank hin with hlive | hblank
  · exact hfits.outside he (hend.1.1 hlive).1
  · exact hfits.outside he (hend.2.1 hblank).1

end RecordArray

namespace ImportSource

open RecordArray

variable {s : ImportSource} {directory : DataDirectory}

/-! ## Outcomes -/

/-- **The outcome of a walk**: its failure, if it fails. -/
def outcome (s : ImportSource) (directory : DataDirectory) :
    Except ImageError Unit :=
  (s.walk directory).value.map fun _ => ()

/-- The outcome of a walk over the descriptors at an offset. -/
def outcomeAt (array : RecordArray) (offset : Nat) : Except ImageError Unit :=
  match array.ending with
  | .terminator => .ok ()
  | .endOfFile =>
    .error (.importTableTruncated
      (recordOffset Descriptor.byteSize offset array.count))

/-- Without a directory there is nothing to fail. -/
theorem outcome_of_absent (h : directory.address = 0) :
    s.outcome directory = .ok () := by
  unfold outcome
  rw [walk_value_of_absent h]
  rfl

theorem outcome_of_unmapped {e : ImageError} (h : directory.address ≠ 0)
    (hmapped : s.sections.fileOffset directory.address = .error e) :
    s.outcome directory
      = .error (.importDirectoryUnmapped directory.address) := by
  unfold outcome
  rw [walk_value_of_unmapped h hmapped]
  rfl

/-- **The outcome with a directory that is found** is decided by the descriptors
alone, with no regard to what they point to. -/
theorem outcome_of_mapped {offset : Nat} (h : directory.address ≠ 0)
    (hmapped : s.sections.fileOffset directory.address = .ok offset) :
    s.outcome directory = outcomeAt (s.descriptorArray offset) offset := by
  unfold outcome outcomeAt
  rw [walk_value_of_mapped h hmapped, tableAt_value]
  cases (s.descriptorArray offset).ending <;> rfl

theorem outcome_eq_error_iff {e : ImageError} :
    s.outcome directory = .error e ↔ (s.walk directory).value = .error e := by
  unfold outcome
  cases (s.walk directory).value <;> simp [Except.map]

theorem outcome_eq_ok_iff :
    s.outcome directory = .ok ()
      ↔ ∃ table, (s.walk directory).value = .ok table := by
  unfold outcome
  cases (s.walk directory).value <;> simp [Except.map]

/-- The outcome of descriptors is an error where they run out of the file. -/
theorem outcomeAt_eq_error_iff {offset : Nat} {e : ImageError} :
    outcomeAt (s.descriptorArray offset) offset = .error e
      ↔ ∃ k, RunsOut s.data Descriptor.byteSize offset k
        ∧ e = .importTableTruncated
          (recordOffset Descriptor.byteSize offset k) := by
  have hwidth : 0 < Descriptor.byteSize := by decide
  simp only [runsOut_iff hwidth]
  show outcomeAt (measure ..) _ = _ ↔ _
  unfold outcomeAt
  obtain ⟨count, ending⟩ := measure s.data Descriptor.byteSize offset
  cases ending <;> simp [eq_comm]

/-- The outcome of descriptors is a table where they have their end mark. -/
theorem outcomeAt_eq_ok_iff {offset : Nat} :
    outcomeAt (s.descriptorArray offset) offset = .ok ()
      ↔ ∃ k, EndsAt s.data Descriptor.byteSize offset k := by
  have hwidth : 0 < Descriptor.byteSize := by decide
  simp only [endsAt_iff hwidth]
  show outcomeAt (measure ..) _ = _ ↔ _
  unfold outcomeAt
  obtain ⟨count, ending⟩ := measure s.data Descriptor.byteSize offset
  cases ending <;> simp

/-- **A walk fails for want of a section** that covers the address of the
directory. -/
theorem outcome_eq_unmapped_iff {address : UInt32} :
    s.outcome directory = .error (.importDirectoryUnmapped address)
      ↔ directory.address ≠ 0
        ∧ (∀ x ∈ s.sections, directory.address.toNat ∉ x.range)
        ∧ address = directory.address := by
  by_cases hzero : directory.address = 0
  · rw [outcome_of_absent hzero]
    simp [hzero]
  cases hmapped : s.sections.fileOffset directory.address with
  | error e =>
    have huncovered := (SectionTable.fileOffset_eq_error_iff.1 hmapped).1
    rw [outcome_of_unmapped hzero hmapped, Except.error.injEq,
      ImageError.importDirectoryUnmapped.injEq]
    exact ⟨fun h => ⟨hzero, huncovered, h.symm⟩, fun h => h.2.2.symm⟩
  | ok offset =>
    rw [outcome_of_mapped hzero hmapped]
    refine iff_of_false (fun h => ?_) (fun h => ?_)
    · obtain ⟨_, _, herror⟩ := outcomeAt_eq_error_iff.1 h
      cases herror
    · have herror := SectionTable.fileOffset_eq_error_iff.2 ⟨h.2.1, rfl⟩
      cases hmapped.symm.trans herror

/-- **A walk fails for want of an end mark** of the descriptors. -/
theorem outcome_eq_truncated_iff {place : Nat} :
    s.outcome directory = .error (.importTableTruncated place)
      ↔ directory.address ≠ 0 ∧ ∃ offset k,
        s.sections.fileOffset directory.address = .ok offset
        ∧ RunsOut s.data Descriptor.byteSize offset k
        ∧ place = recordOffset Descriptor.byteSize offset k := by
  by_cases hzero : directory.address = 0
  · rw [outcome_of_absent hzero]
    simp [hzero]
  cases hmapped : s.sections.fileOffset directory.address with
  | error e =>
    rw [outcome_of_unmapped hzero hmapped]
    simp
  | ok offset =>
    rw [outcome_of_mapped hzero hmapped, outcomeAt_eq_error_iff]
    simp [hzero]

/-- **A walk finds a table** without a directory, and else where the descriptors
have their end mark. -/
theorem outcome_eq_ok_iff_ends :
    s.outcome directory = .ok ()
      ↔ directory.address = 0 ∨ ∃ offset k,
        s.sections.fileOffset directory.address = .ok offset
        ∧ EndsAt s.data Descriptor.byteSize offset k := by
  by_cases hzero : directory.address = 0
  · rw [outcome_of_absent hzero]
    simp [hzero]
  cases hmapped : s.sections.fileOffset directory.address with
  | error e =>
    rw [outcome_of_unmapped hzero hmapped]
    simp [hzero]
  | ok offset =>
    rw [outcome_of_mapped hzero hmapped, outcomeAt_eq_ok_iff]
    simp [hzero]

/-- **There is no third failure.** -/
theorem error_of_outcome {e : ImageError} (h : s.outcome directory = .error e) :
    e = .importDirectoryUnmapped directory.address
      ∨ ∃ place, e = .importTableTruncated place := by
  by_cases hzero : directory.address = 0
  · rw [outcome_of_absent hzero] at h
    cases h
  cases hmapped : s.sections.fileOffset directory.address with
  | error _ =>
    rw [outcome_of_unmapped hzero hmapped] at h
    exact Or.inl (Except.error.inj h).symm
  | ok offset =>
    rw [outcome_of_mapped hzero hmapped] at h
    obtain ⟨k, _, rfl⟩ := outcomeAt_eq_error_iff.1 h
    exact Or.inr ⟨_, rfl⟩

/-! ## What an outcome does not depend on -/

/-- **Two walks that come by the same descriptors**: the directory is at the
same offset, and each record that is reached goes on, ends the array or leaves
the file in both walks alike. What the records hold else may differ, and so may
all that they point to. -/
structure SameDescriptors (s s' : ImportSource) (directory : DataDirectory) :
    Prop where
  mapped : s'.sections.fileOffset directory.address
    = s.sections.fileOffset directory.address
  reached : ∀ offset, s.sections.fileOffset directory.address = .ok offset →
    ∀ k, (∀ i < k, Live s.data Descriptor.byteSize offset i) →
      (Live s'.data Descriptor.byteSize offset k
        ↔ Live s.data Descriptor.byteSize offset k)
      ∧ (Blank s'.data Descriptor.byteSize offset k
        ↔ Blank s.data Descriptor.byteSize offset k)

theorem SameDescriptors.outcome_eq {s' : ImportSource}
    (h : SameDescriptors s s' directory) :
    s'.outcome directory = s.outcome directory := by
  by_cases hzero : directory.address = 0
  · rw [outcome_of_absent hzero, outcome_of_absent hzero]
  cases hmapped : s.sections.fileOffset directory.address with
  | error e =>
    have hmapped' := h.mapped.trans hmapped
    rw [outcome_of_unmapped hzero hmapped, outcome_of_unmapped hzero hmapped']
  | ok offset =>
    have hmapped' := h.mapped.trans hmapped
    have harray : s'.descriptorArray offset = s.descriptorArray offset :=
      measure_eq_of_reached (by decide) (h.reached offset hmapped)
    rw [outcome_of_mapped hzero hmapped, outcome_of_mapped hzero hmapped',
      harray]

/-! ## The failures of a walk -/

/-- **When a walk fails, and with what.** It says that the directory is unmapped
just when there is a directory and no section covers its address. It says that
the table is truncated just when the descriptors run out of the file, and then
the offset it gives is that of the first record that is not inside. There is no
other failure, and a table is found in all other cases: without a directory, or
with an end mark behind the descriptors. So the outcome is the same for every
layout and all limits, a budget of zero included, and for any two walks that
come by the same descriptors. -/
theorem walk_value_eq_error_iff (s : ImportSource)
    (directory : DataDirectory) :
    (∀ address, (s.walk directory).value
        = .error (.importDirectoryUnmapped address)
      ↔ directory.address ≠ 0
        ∧ (∀ x ∈ s.sections, directory.address.toNat ∉ x.range)
        ∧ address = directory.address)
    ∧ (∀ place, (s.walk directory).value
        = .error (.importTableTruncated place)
      ↔ directory.address ≠ 0 ∧ ∃ offset k,
        s.sections.fileOffset directory.address = .ok offset
        ∧ RunsOut s.data Descriptor.byteSize offset k
        ∧ place = offset + k * 20)
    ∧ (∀ e, (s.walk directory).value = .error e →
        e = .importDirectoryUnmapped directory.address
          ∨ ∃ place, e = .importTableTruncated place)
    ∧ ((∃ table, (s.walk directory).value = .ok table)
      ↔ directory.address = 0 ∨ ∃ offset k,
        s.sections.fileOffset directory.address = .ok offset
        ∧ EndsAt s.data Descriptor.byteSize offset k)
    ∧ (∀ (architecture : Architecture) (limits : ParseLimits),
        outcome ⟨s.data, s.sections, architecture, limits⟩ directory
          = s.outcome directory)
    ∧ ∀ s' : ImportSource, SameDescriptors s s' directory →
        s'.outcome directory = s.outcome directory := by
  refine ⟨fun address => ?_, fun place => ?_, fun e he => ?_, ?_,
    fun architecture limits => ?_, fun s' h => h.outcome_eq⟩
  · rw [← outcome_eq_error_iff]
    exact outcome_eq_unmapped_iff
  · rw [← outcome_eq_error_iff]
    exact outcome_eq_truncated_iff
  · exact error_of_outcome (outcome_eq_error_iff.2 he)
  · rw [← outcome_eq_ok_iff]
    exact outcome_eq_ok_iff_ends
  · exact SameDescriptors.outcome_eq ⟨rfl, fun _ _ _ _ => ⟨Iff.rfl, Iff.rfl⟩⟩

/-- A file of one and a half descriptors, to be walked with no budget. -/
def truncated : ImportSource where
  data := ⟨Array.replicate 30 1⟩
  sections := [{ rawName := .replicate 8 0, virtualSize := 0x100,
                 virtualAddress := 0x1000, rawSize := 0, rawOffset := 0,
                 flags := 0 }]
  architecture := .pe32Plus
  limits := ⟨512, 256, 0⟩

/-- Without a budget the missing end mark is noticed all the same. -/
theorem walk_value_eq_error_iff_truncated :
    (truncated.walk ⟨0x1000, 0⟩).value
      = .error (.importTableTruncated 20) := by
  have hlive : ∀ i < 1, Live truncated.data Descriptor.byteSize 0 i := by
    rintro i hi
    obtain rfl : i = 0 := by omega
    exact ⟨by decide, 0, by decide, by decide⟩
  obtain ⟨_, htruncated, _⟩ :=
    walk_value_eq_error_iff truncated ⟨0x1000, 0⟩
  exact (htruncated 20).2
    ⟨by decide, 0, 1, rfl, ⟨hlive, by decide⟩, rfl⟩

end ImportSource

end DriverAudit
