import DriverAudit.Proofs.Imports.Accounts
import DriverAudit.Proofs.Imports.Rounds
import Mathlib.Data.Prod.Lex

/-!
# Both loops of a walk stop

A walk has two loops, and neither has a count to go by: each of them goes on
until it meets a zero. The place where it starts is anything that a section
says, so a table may lie behind the end of the file, over another table or over
itself, and the budget may be as large as any number. What makes the loops stop
is the file. A round that goes on has read a record inside it, so it leaves
fewer bytes of the file behind the descriptors, or as many behind the
descriptors and fewer behind the thunks (`GoesOn.remaining_lt`). That holds of
rounds that pass over damage too, and the budget has no part in it.

For the same reason a table is no larger than its file, whatever the limits: the
descriptors stand in a row, and so do the thunks of each module
(`RecordArray.le_div_of_live`).
-/

namespace DriverAudit

namespace ImportSource

variable {s : ImportSource} {directory : DataDirectory}

/-! ## What is left of the file -/

/-- **The bytes that are left** behind the next descriptor, and behind the next
thunk while a walk is at thunks. One more stands for the round that leaves the
thunks, and for the one that comes to the first descriptor. -/
def remaining (s : ImportSource) : State → Nat × Nat
  | .directory _ => (s.data.size + 1, 0)
  | .descriptor offset _ => (s.data.size - offset, 0)
  | .thunk next offset _ _ => (s.data.size - next, s.data.size - offset + 1)

/-- **Each round that goes on leaves less of the file.** -/
theorem GoesOn.remaining_lt {x y : State} (h : s.GoesOn x y) :
    Prod.Lex (· < ·) (· < ·) (s.remaining y) (s.remaining x) := by
  have hbyte : 0 < Descriptor.byteSize := by decide
  have hwidth := s.architecture.thunkWidth_pos
  cases h with
  | @directory _ offset _ =>
    have hless : s.data.size - offset < s.data.size + 1 := by omega
    exact .left _ _ hless
  | @descriptor offset _ _ hin | @firstThunk offset _ _ _ _ hin =>
    have hless : s.data.size - (offset + Descriptor.byteSize)
        < s.data.size - offset := by
      unfold Inside at hin
      omega
    exact .left _ _ hless
  | @thunk _ offset _ _ _ _ hin =>
    have hless : s.data.size - (offset + s.architecture.thunkWidth) + 1
        < s.data.size - offset + 1 := by
      unfold Inside at hin
      omega
    exact .right _ hless
  | lastThunk => exact .right _ (Nat.succ_pos _)

/-- **No rounds go on for ever**, from whatever state. -/
theorem wellFounded_round (s : ImportSource) :
    WellFounded fun y x => s.round x = .next y :=
  Subrelation.wf (fun h => (goesOn_of_round h).remaining_lt)
    (InvImage.wf s.remaining
      (WellFounded.prod_lex Nat.lt_wfRel.wf Nat.lt_wfRel.wf))

end ImportSource

/-! ## How much a file can hold -/

/-- No descriptor is both a module and passed over. -/
theorem View.length_modules_add_skipped_le (budget : Nat)
    (views : List (Option View)) :
    (tableWithin budget views).modules.length
      + (tableWithin budget views).skippedModules ≤ views.length := by
  induction views generalizing budget with
  | nil => exact Nat.le_refl _
  | cons v rest ih =>
    have hfirst : (addedWithin budget v).modules.length
        + (addedWithin budget v).skippedModules ≤ 1 := by
      unfold addedWithin
      split
      · exact Nat.zero_le _
      · exact Nat.le_refl _
      · exact Nat.le_refl _
    have hrest := ih (leftOf budget v)
    rw [tableWithin, List.length_cons]
    simp only [ImportTable.append, List.length_append]
    omega

/-- A visit finds what it has paid for, and perhaps the end of the file. -/
theorem Visit.length_entries_add_skipped_le (x : Visit) :
    x.module.entries.length + x.module.skippedEntries ≤ x.paid + 1 := by
  have hpaid := x.attempted_eq
  unfold attempted at hpaid
  split at hpaid <;> omega

namespace ImportSource

variable {s : ImportSource} {directory : DataDirectory}
  {views : List (Option View)}

/-- The thunks of a module are in the file. -/
theorem Describes.length_found_le {x : Descriptor} {v : View}
    (h : s.Describes x v) :
    v.found.length ≤ s.data.size / s.architecture.thunkWidth := by
  by_cases hzero : x.thunkAddress = 0
  · rw [(h.noTable hzero).1]
    exact Nat.zero_le _
  · obtain ⟨offset, _, hholds⟩ := h.table hzero
    exact RecordArray.le_div_of_live s.architecture.thunkWidth_pos
      hholds.fits.live

/-- The descriptors of a directory are in the file. -/
theorem Lists.length_le (h : s.Lists directory views) :
    views.length ≤ s.data.size / Descriptor.byteSize := by
  cases h with
  | absent => exact Nat.zero_le _
  | present _ _ hshows =>
    exact RecordArray.le_div_of_live (by decide) hshows.live

/-- What a directory lists is described by one of its descriptors. -/
theorem Lists.exists_describes (h : s.Lists directory views) {v : View}
    (hv : some v ∈ views) : ∃ x, s.Describes x v := by
  cases h with
  | absent => cases hv
  | present _ _ hshows =>
    obtain ⟨i, hi, hvi⟩ := List.getElem_of_mem hv
    exact ⟨_, (hshows.describes i hi v).1 hvi⟩

/-- **A module has no more imports than the file has thunks**, counting those
that were passed over, and the end of the file. -/
theorem Lists.length_entries_add_skipped_le (h : s.Lists directory views)
    {budget : Nat} {m : ImportModule}
    (hm : m ∈ (View.tableWithin budget views).modules) :
    m.entries.length + m.skippedEntries
      ≤ s.data.size / s.architecture.thunkWidth + 1 := by
  -- the module is that of a visit, and the visit is to one that is listed
  rw [View.modules_tableWithin] at hm
  obtain ⟨x, hx, rfl⟩ := List.mem_map.1 hm
  have hview : x.view ∈ views.filterMap id :=
    (View.map_view_visitsWithin budget views).subset
      (List.mem_map_of_mem hx)
  obtain ⟨shown, hshown, hsome⟩ := List.mem_filterMap.1 hview
  obtain rfl : shown = some x.view := hsome
  obtain ⟨_, hdescribes⟩ := h.exists_describes hshown
  have hroom := hdescribes.length_found_le
  have hpaid := x.paid_le
  have hfound := x.length_entries_add_skipped_le
  omega

/-! ## The walk -/

/-- **A walk that stops.** -/
structure Halts (s : ImportSource) (directory : DataDirectory) : Prop where
  /-- Each round that goes on leaves fewer bytes of the file behind the
  descriptors, or as many there and fewer behind the thunks. -/
  decreases : ∀ x y, s.round x = .next y →
    Prod.Lex (· < ·) (· < ·) (s.remaining y) (s.remaining x)
  /-- From no state do rounds go on for ever. -/
  wellFounded : WellFounded fun y x => s.round x = .next y
  /-- The loop over thunks comes to its end, wherever it starts. -/
  thunks : ∀ next offset m p,
    ∃ n ≤ s.data.size / s.architecture.thunkWidth + 1,
      Round.Leads s.round n (.thunk next offset m p)
        (.descriptor next
          (p.addBehind m (s.moduleAt p.budget m.name offset)))
  /-- The loop over descriptors comes to its end, wherever it starts. -/
  descriptors : ∀ offset p,
    ∃ n ≤ s.data.size / 20 * s.roundsPerDescriptor + 1,
      Round.Stops s.round n (.descriptor offset p)
        (s.conclude (s.runFrom offset p))
  /-- The whole walk comes to its end. -/
  walk : ∃ n ≤ s.data.size / 20 * s.roundsPerDescriptor + 2,
    Round.Stops s.round n (.directory directory) (s.walk directory)
  /-- A table has no more modules than there are descriptors in front of the
  end mark, and of these there are no more than the file has room for. -/
  modules : ∀ table, (s.walk directory).value = .ok table →
    ∃ views, s.Lists directory views
      ∧ table.modules.length + table.skippedModules ≤ views.length
      ∧ views.length ≤ s.data.size / 20
  /-- A module has no more imports than the file has room for thunks, and the
  end of the file. -/
  entries : ∀ table, (s.walk directory).value = .ok table →
    ∀ m ∈ table.modules, m.entries.length + m.skippedEntries
      ≤ s.data.size / s.architecture.thunkWidth + 1

/-- **A walk stops on every input**: whatever the file and its sections are, in
either layout, under all limits and with any directory. -/
theorem walk_halts (s : ImportSource) (directory : DataDirectory) :
    s.Halts directory where
  decreases := fun _ _ h => (goesOn_of_round h).remaining_lt
  wellFounded := s.wellFounded_round
  thunks := fun next offset m p => by
    have hcount : (s.thunkArray offset).count
        ≤ s.data.size / s.architecture.thunkWidth :=
      RecordArray.count_measure_le s.architecture.thunkWidth_pos
    exact ⟨_, by omega, s.leads_thunk next offset m p⟩
  descriptors := fun offset p => by
    obtain ⟨n, hn, hstops⟩ := s.stops_descriptor offset p
    have hcount : (s.descriptorArray offset).count ≤ s.data.size / 20 :=
      RecordArray.count_measure_le (by decide)
    have hmore := Nat.mul_le_mul_right s.roundsPerDescriptor hcount
    exact ⟨n, by omega, hstops⟩
  walk := s.stops_directory directory
  modules := fun table hwalk => by
    obtain ⟨views, hlists, rfl⟩ := walk_eq_ok_iff_lists.1 hwalk
    exact ⟨views, hlists, View.length_modules_add_skipped_le _ _,
      hlists.length_le⟩
  entries := fun table hwalk m hm => by
    obtain ⟨views, hlists, rfl⟩ := walk_eq_ok_iff_lists.1 hwalk
    exact hlists.length_entries_add_skipped_le hm

/-- A file of one descriptor and an end mark, whose table of thunks is the
descriptor itself, to be walked with the largest budget that a word can be. -/
def tangled : ImportSource where
  data := ⟨#[0x00, 0x10, 0, 0, 7, 0, 0, 0x80, 0, 0, 0x70, 0, 0x14, 0x10, 0, 0,
    0x00, 0x10, 0, 0] ++ Array.replicate 20 0⟩
  sections := [{ rawName := .replicate 8 0, virtualSize := 0x100,
                 virtualAddress := 0x1000, rawSize := 0, rawOffset := 0,
                 flags := 0 }]
  architecture := .pe32
  limits := ⟨512, 256, 2 ^ 64 - 1⟩

/-- The five words of the descriptor are followed as thunks, and the walk stops
at the end mark. -/
theorem walk_halts_tangled :
    ∃ m : ImportModule,
      (tangled.walk ⟨0x1000, 0⟩).value = .ok ⟨[m], 0, 0⟩
      ∧ m.entries = [.byName 0x1000 "", .byOrdinal 7, .byName 0 "",
          .byName 0x1000 ""]
      ∧ m.entries.length + m.skippedEntries ≤ 40 / 4 + 1
      ∧ ∃ n ≤ 26, Round.Stops tangled.round n (.directory ⟨0x1000, 0⟩)
        (tangled.walk ⟨0x1000, 0⟩) := by
  have hwalk : (tangled.walk ⟨0x1000, 0⟩).value
      = .ok ⟨[⟨"", [.byName 0x1000 "", .byOrdinal 7, .byName 0 "",
          .byName 0x1000 ""], 1⟩], 0, 0⟩ := by
    decide +kernel
  have hhalts := walk_halts tangled ⟨0x1000, 0⟩
  exact ⟨_, hwalk, rfl, hhalts.entries _ hwalk _ List.mem_cons_self,
    hhalts.walk⟩

end ImportSource

end DriverAudit
