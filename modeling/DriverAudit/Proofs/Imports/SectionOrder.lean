import DriverAudit.Imports.Walk
import DriverAudit.Proofs.Image.SectionLookup

/-!
# Walks and the order of sections

A walk follows many addresses – that of the directory, those of the names and
tables of the modules, and one for each thunk – and it follows all of them by
look-ups in the table of sections. So it is a function of the look-ups, and two
tables with the same look-ups are as good as each other
(`ImportSource.walk_withSections`). Tables that are kept apart have the same
look-ups in every order.
-/

namespace DriverAudit

namespace ImportSource

/-- A walk that is the same but for its table of sections. -/
def withSections (s : ImportSource) (t : SectionTable) : ImportSource :=
  { s with sections := t }

section Lookups

variable {s : ImportSource} {t : SectionTable}
  (h : ∀ address, t.fileOffset address = s.sections.fileOffset address)
include h

/-- Following an address gives the same with both tables. -/
theorem fileOffset_withSections (address : UInt32) :
    (s.withSections t).sections.fileOffset address
      = s.sections.fileOffset address := h address

theorem resolve_withSections (thunk : UInt64) :
    (s.withSections t).resolve thunk = s.resolve thunk := by
  unfold resolve
  rw [fileOffset_withSections h]
  rfl

theorem resolutionAt_withSections :
    (s.withSections t).resolutionAt = s.resolutionAt := by
  funext offset
  exact congrArg (Resolution.mk offset (s.thunkAt offset))
    (resolve_withSections h _)

/-- A table of thunks starts where it starts; only its thunks are looked up. -/
theorem moduleAt_withSections : (s.withSections t).moduleAt = s.moduleAt := by
  funext budget name offset
  unfold moduleAt
  rw [resolutionAt_withSections h]
  rfl

theorem readModule_withSections :
    (s.withSections t).readModule = s.readModule := by
  funext budget x
  unfold readModule
  simp only [moduleAt_withSections h, fileOffset_withSections h]
  rfl

theorem advance_withSections : (s.withSections t).advance = s.advance := by
  funext p offset
  unfold advance
  rw [readModule_withSections h]
  rfl

theorem tableAt_withSections : (s.withSections t).tableAt = s.tableAt := by
  funext offset
  unfold tableAt
  rw [advance_withSections h]
  rfl

/-- **A walk depends on its sections by look-ups only**: with another table of
the same look-ups it comes to the same table or error, and says the same. -/
theorem walk_withSections (directory : DataDirectory) :
    (s.withSections t).walk directory = s.walk directory := by
  unfold walk
  rw [tableAt_withSections h, fileOffset_withSections h]

end Lookups

end ImportSource

/-- **The order of sections.** Two tables with the same sections in different
orders have the same look-ups if no two of the sections cover the same address,
and then every walk comes to the same with both. In a table where sections
overlap the order does matter, but sections that are added at the end change no
look-up that had an answer. -/
theorem SectionTable.walk_eq_of_perm (t t' : SectionTable) :
    (t.Perm t' → t.Apart →
      (∀ address, t.fileOffset address = t'.fileOffset address)
        ∧ ∀ (s : ImportSource) (directory : DataDirectory),
          (s.withSections t).walk directory
            = (s.withSections t').walk directory)
      ∧ ∀ (more : SectionTable) (address : UInt32) (offset : Nat),
        t.fileOffset address = .ok offset →
          SectionTable.fileOffset (t ++ more) address = .ok offset := by
  refine ⟨fun hperm hapart => ?_, fun more _ _ h => fileOffset_append h more⟩
  have hlookups := hapart.fileOffset_eq_of_perm hperm
  refine ⟨hlookups, fun s directory => ?_⟩
  exact ImportSource.walk_withSections (s := s.withSections t')
    (t := t) hlookups directory

/-- A table of which the first section goes on past the last 32-bit address,
and the last one is empty. -/
def SectionTable.sample : SectionTable :=
  [{ rawName := .replicate 8 0, virtualSize := 0x2000,
     virtualAddress := 0xFFFFF000, rawSize := 0, rawOffset := 0x400,
     flags := 0 },
   { rawName := .replicate 8 0, virtualSize := 0x10, virtualAddress := 0x1000,
     rawSize := 0x200, rawOffset := 0x600, flags := 0 },
   { rawName := .replicate 8 0, virtualSize := 0, virtualAddress := 0x1000,
     rawSize := 0, rawOffset := 0, flags := 0 }]

theorem SectionTable.apart_sample : SectionTable.sample.Apart := by
  unfold Apart sample Section.range
  simp only [List.pairwise_cons, List.mem_cons, List.not_mem_nil, or_false,
    forall_eq_or_imp, forall_eq, Set.Ico_disjoint_Ico]
  refine ⟨⟨by decide, by decide⟩, by decide, fun _ h => h.elim, .nil⟩

/-- In the reversed table the last address still lies in the section that was
the first one. So a walk in empty data that starts there looks for descriptors
at the same place, and misses them. -/
theorem SectionTable.walk_eq_of_perm_sample :
    sample.Perm sample.reverse ∧ sample.Apart
      ∧ SectionTable.fileOffset sample.reverse 0xFFFFFFFF = .ok 0x13FF
      ∧ ((ImportSource.mk .empty [] .pe32 .default).withSections
          sample.reverse).walk ⟨0xFFFFFFFF, 0⟩
        = ((ImportSource.mk .empty [] .pe32 .default).withSections
          sample).walk ⟨0xFFFFFFFF, 0⟩
      ∧ (((ImportSource.mk .empty [] .pe32 .default).withSections
          sample.reverse).walk ⟨0xFFFFFFFF, 0⟩).value
        = .error (.importTableTruncated 0x13FF) := by
  have hperm : sample.Perm sample.reverse := (List.reverse_perm _).symm
  obtain ⟨hlookups, hwalks⟩ :=
    (walk_eq_of_perm sample sample.reverse).1 hperm apart_sample
  have hwalk := hwalks (ImportSource.mk .empty [] .pe32 .default)
    ⟨0xFFFFFFFF, 0⟩
  refine ⟨hperm, apart_sample, ?_, hwalk.symm, ?_⟩
  · rw [← hlookups]
    rfl
  · rw [← hwalk]
    decide +kernel

end DriverAudit
