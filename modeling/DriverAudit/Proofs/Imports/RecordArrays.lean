import DriverAudit.Imports.RecordArray
import DriverAudit.Proofs.Bytes.Beginnings

/-!
# What the measure of an array says about the file

A measured array is a count and an ending, and together they say which records
are in the file: all records below the count are inside it and not zero, and
the record at the count is inside it and zero, or not inside it at all. That
is the relation `RecordArray.Fits`. No two arrays fit one place of a file, so
the measure is the only one that does (`measure_eq_iff`), and whatever is to be
known of a measure can be asked of the records instead.
-/

namespace DriverAudit.RecordArray

variable {d : ByteArray} {width offset : Nat}

/-- The offset of record `i`. -/
def recordOffset (width offset i : Nat) : Nat := offset + i * width

/-- **A record that does not end its array**: it is inside the file, and one
of its bytes is not zero. -/
def Live (d : ByteArray) (width offset i : Nat) : Prop :=
  Inside d (recordOffset width offset i) width
    ∧ ∃ j < width, byteAt d (recordOffset width offset i + j) ≠ 0

/-- **A record that ends its array**: it is inside the file, and all of its
bytes are zero. -/
def Blank (d : ByteArray) (width offset i : Nat) : Prop :=
  Inside d (recordOffset width offset i) width
    ∧ ∀ j < width, byteAt d (recordOffset width offset i + j) = 0

theorem isZero_iff :
    isZero d offset width = true ↔ ∀ j < width, byteAt d (offset + j) = 0 := by
  unfold isZero
  simp

theorem Live.not_blank {i : Nat} (h : Live d width offset i) :
    ¬ Blank d width offset i := by
  obtain ⟨_, j, hj, hne⟩ := h
  exact fun hblank => hne (hblank.2 j hj)

/-- A record of which the word is not zero does not end its array. -/
theorem live_of_wordAt_ne_zero {i : Nat}
    (hin : Inside d (recordOffset width offset i) width)
    (hne : wordAt d (recordOffset width offset i) width ≠ 0) :
    Live d width offset i := by
  rw [ne_eq, wordAt_eq_zero_iff] at hne
  obtain ⟨j, hj⟩ := Classical.not_forall.1 hne
  obtain ⟨hlt, hbyte⟩ := Classical.not_imp.1 hj
  exact ⟨hin, j, hlt, hbyte⟩

/-- A record of which the word is zero ends its array. -/
theorem blank_of_wordAt_eq_zero {i : Nat}
    (hin : Inside d (recordOffset width offset i) width)
    (hzero : wordAt d (recordOffset width offset i) width = 0) :
    Blank d width offset i :=
  ⟨hin, wordAt_eq_zero_iff.1 hzero⟩

/-- **An array that fits a place of a file.** -/
structure Fits (d : ByteArray) (width offset : Nat) (a : RecordArray) :
    Prop where
  live : ∀ i < a.count, Live d width offset i
  /-- A terminated array ends with a record of zeros. -/
  blank : a.ending = .terminator → Blank d width offset a.count
  /-- An array that runs out of the file does so at its count. -/
  outside : a.ending = .endOfFile →
    ¬ Inside d (recordOffset width offset a.count) width

/-- The record at the count is not one of the array. -/
theorem Fits.not_live {a : RecordArray} (h : Fits d width offset a) :
    ¬ Live d width offset a.count := by
  intro hlive
  cases he : a.ending with
  | terminator => exact hlive.not_blank (h.blank he)
  | endOfFile => exact h.outside he hlive.1

/-- **Only one array fits a place of a file.** -/
theorem Fits.unique {a b : RecordArray} (ha : Fits d width offset a)
    (hb : Fits d width offset b) : a = b := by
  have hcount : a.count = b.count := by
    rcases Nat.lt_trichotomy a.count b.count with h | h | h
    · exact absurd (hb.live _ h) ha.not_live
    · exact h
    · exact absurd (ha.live _ h) hb.not_live
  have hending : a.ending = b.ending := by
    cases hae : a.ending <;> cases hbe : b.ending
    case terminator.terminator => rfl
    case endOfFile.endOfFile => rfl
    case terminator.endOfFile =>
      have hin := (ha.blank hae).1
      rw [hcount] at hin
      exact absurd hin (hb.outside hbe)
    case endOfFile.terminator =>
      have hin := (hb.blank hbe).1
      rw [← hcount] at hin
      exact absurd hin (ha.outside hae)
  cases a
  cases b
  cases hcount
  cases hending
  rfl

/-- The offset of the record behind a record. -/
theorem recordOffset_succ (width offset i : Nat) :
    recordOffset width offset (i + 1)
      = recordOffset width offset i + width := by
  unfold recordOffset
  rw [Nat.succ_mul, Nat.add_assoc]

/-- Going on from record `seen` of an array, where all records before it have
been passed, gives an array that fits. -/
theorem fits_measureFrom (hwidth : 0 < width) (start seen : Nat)
    (hoffset : offset = recordOffset width start seen)
    (hpassed : ∀ i < seen, Live d width start i) :
    Fits d width start (measureFrom d width offset seen) := by
  fun_induction measureFrom d width offset seen with
  | case1 offset seen h hzero =>
    refine ⟨hpassed, fun _ => ⟨hoffset ▸ h.2, ?_⟩, fun he => ?_⟩
    · exact hoffset ▸ isZero_iff.1 hzero
    · cases he
  | case2 offset seen h hzero ih =>
    refine ih ?_ (fun i hi => ?_)
    · rw [recordOffset_succ, hoffset]
    · rcases Nat.lt_succ_iff_lt_or_eq.1 hi with hlt | rfl
      · exact hpassed i hlt
      · refine ⟨hoffset ▸ h.2, ?_⟩
        rw [isZero_iff] at hzero
        obtain ⟨j, hj⟩ := Classical.not_forall.1 hzero
        obtain ⟨hlt, hne⟩ := Classical.not_imp.1 hj
        exact ⟨j, hlt, hoffset ▸ hne⟩
  | case3 offset seen h =>
    refine ⟨hpassed, fun he => ?_, fun _ hin => h ⟨hwidth, ?_⟩⟩
    · cases he
    · exact hoffset ▸ hin

/-- **The measure of an array fits the file.** -/
theorem fits_measure (hwidth : 0 < width) :
    Fits d width offset (measure d width offset) := by
  refine fits_measureFrom hwidth offset 0 ?_ ?_
  · unfold recordOffset
    rw [Nat.zero_mul, Nat.add_zero]
  · exact fun i hi => absurd hi (Nat.not_lt_zero i)

/-- **The measure is the array that fits.** -/
theorem measure_eq_iff (hwidth : 0 < width) {a : RecordArray} :
    measure d width offset = a ↔ Fits d width offset a :=
  ⟨fun h => h ▸ fits_measure hwidth, fun h => (fits_measure hwidth).unique h⟩

/-- **A record belongs to an array when no record up to it ends the array.** -/
theorem lt_count_measure_iff (hwidth : 0 < width) {k : Nat} :
    k < (measure d width offset).count
      ↔ ∀ i ≤ k, Live d width offset i := by
  have hfits : Fits d width offset (measure d width offset) :=
    fits_measure hwidth
  constructor
  · exact fun h i hi => hfits.live i (by omega)
  · intro h
    rcases Nat.lt_or_ge k (measure d width offset).count with hlt | hge
    · exact hlt
    · exact absurd (h _ hge) hfits.not_live

/-- **Records in a row fit into what is left of the file** behind their
offset, wherever that is. -/
theorem mul_le_of_live {n : Nat} (h : ∀ i < n, Live d width offset i) :
    n * width ≤ d.size - offset := by
  cases n with
  | zero =>
    rw [Nat.zero_mul]
    exact Nat.zero_le _
  | succ n =>
    have hlast : recordOffset width offset n + width ≤ d.size :=
      (h n (Nat.lt_succ_self n)).1
    unfold recordOffset at hlast
    rw [Nat.succ_mul]
    omega

/-- There are no more records in a row than there is room for in a file. -/
theorem le_div_of_live (hwidth : 0 < width) {n : Nat}
    (h : ∀ i < n, Live d width offset i) : n ≤ d.size / width :=
  (Nat.le_div_iff_mul_le hwidth).2
    (Nat.le_trans (mul_le_of_live h) (Nat.sub_le _ _))

/-- **An array is no longer than its file.** -/
theorem count_measure_le (hwidth : 0 < width) :
    (measure d width offset).count ≤ d.size / width :=
  le_div_of_live hwidth (fits_measure hwidth).live

/-- The records of an array are at the offsets of those below its count. -/
theorem mem_offsets {a : RecordArray} {x : Nat} :
    x ∈ a.offsets width offset
      ↔ ∃ i < a.count, recordOffset width offset i = x := by
  unfold offsets recordOffset
  simp

theorem length_offsets (a : RecordArray) :
    (a.offsets width offset).length = a.count := by
  rw [offsets, List.length_map, List.length_range]

/-- **Going through the records of an array** is going through a list of as
many elements, when what is found at each record is found at the element. -/
theorem map_offsets {α β : Type} {a : RecordArray} {l : List α}
    (hcount : a.count = l.length) {f : Nat → β} {g : α → β}
    (h : ∀ i (hi : i < l.length), f (recordOffset width offset i) = g l[i]) :
    (a.offsets width offset).map f = l.map g := by
  unfold offsets
  refine List.ext_getElem ?_ (fun i hi _ => ?_)
  · rw [List.length_map, List.length_map, List.length_map, List.length_range,
      hcount]
  · rw [List.length_map, List.length_map, List.length_range, hcount] at hi
    rw [List.getElem_map, List.getElem_map, List.getElem_map,
      List.getElem_range]
    exact h i hi

/-- **What is found at the records of a measured array**: as much as an array
that fits has records, and at each of them what is found there. -/
theorem map_offsets_measure_iff {α : Type} (hwidth : 0 < width)
    {ending : Ending} {f : Nat → α} {found : List α} :
    (measure d width offset).ending = ending
        ∧ ((measure d width offset).offsets width offset).map f = found
      ↔ Fits d width offset ⟨found.length, ending⟩
        ∧ ∀ i (hi : i < found.length),
          f (recordOffset width offset i) = found[i] := by
  constructor
  · rintro ⟨rfl, rfl⟩
    refine ⟨?_, fun i hi => ?_⟩
    · rw [List.length_map, length_offsets]
      exact fits_measure hwidth
    · simp only [offsets, List.getElem_map, List.getElem_range, recordOffset]
  · rintro ⟨hfits, hfound⟩
    rw [(measure_eq_iff hwidth).2 hfits]
    refine ⟨rfl, ?_⟩
    rw [map_offsets (g := id) rfl hfound, List.map_id]

/-! ## Arrays in data that begin other data

A record is a matter of its own bytes, so it is the same in all data that hold
it. What can change with the size of the data is how far an array reaches: an
array with an end mark reaches as far in all data that hold the mark, and one
that runs out of the data may go on when they do. -/

section Begins

variable {c : ByteArray}

theorem Live.of_begins (hc : Begins c d) {i : Nat}
    (h : Live c width offset i) : Live d width offset i := by
  obtain ⟨hin, j, hj, hne⟩ := h
  have hsize := hc.size_le
  unfold Inside at hin
  refine ⟨?_, j, hj, ?_⟩
  · unfold Inside
    omega
  · rwa [← hc.byteAt_eq _ (by omega)]

theorem Blank.of_begins (hc : Begins c d) {i : Nat}
    (h : Blank c width offset i) : Blank d width offset i := by
  obtain ⟨hin, hzero⟩ := h
  have hsize := hc.size_le
  unfold Inside at hin
  refine ⟨?_, fun j hj => ?_⟩
  · unfold Inside
    omega
  · rw [← hc.byteAt_eq _ (by omega)]
    exact hzero j hj

/-- A record that survives a cut is live if it was. -/
theorem Live.cut (hc : Begins c d) {i : Nat} (h : Live d width offset i)
    (hin : Inside c (recordOffset width offset i) width) :
    Live c width offset i := by
  obtain ⟨_, j, hj, hne⟩ := h
  refine ⟨hin, j, hj, ?_⟩
  unfold Inside at hin
  rwa [hc.byteAt_eq _ (by omega)]

/-- A record that survives a cut is blank if it was. -/
theorem Blank.cut (hc : Begins c d) {i : Nat} (h : Blank d width offset i)
    (hin : Inside c (recordOffset width offset i) width) :
    Blank c width offset i := by
  refine ⟨hin, fun j hj => ?_⟩
  unfold Inside at hin
  rw [hc.byteAt_eq _ (by omega)]
  exact h.2 j hj

/-- The records of an array follow one another. -/
theorem recordOffset_mono {i j : Nat} (h : i ≤ j) :
    recordOffset width offset i ≤ recordOffset width offset j :=
  Nat.add_le_add_left (Nat.mul_le_mul_right width h) offset

/-- **An array with an end mark ends the same after a cut behind the mark**, and
runs out of the file after a cut before the end of the mark. -/
theorem ending_measure_of_begins (hc : Begins c d) (hwidth : 0 < width)
    {count : Nat} (hlive : ∀ i < count, Live d width offset i)
    (hblank : Blank d width offset count) :
    (measure c width offset).ending = .terminator
      ↔ recordOffset width offset (count + 1) ≤ c.size := by
  have hfits : Fits c width offset (measure c width offset) :=
    fits_measure hwidth
  rw [recordOffset_succ]
  constructor
  · intro hend
    have hmark := hfits.blank hend
    -- the mark of the cut file is that of the whole one
    rcases Nat.lt_trichotomy (measure c width offset).count count with
      hlt | heq | hgt
    · exact absurd (hmark.of_begins hc) (hlive _ hlt).not_blank
    · rw [heq] at hmark
      exact hmark.1
    · exact absurd hblank ((hfits.live _ hgt).of_begins hc).not_blank
  · intro hsize
    have hcut : measure c width offset = ⟨count, .terminator⟩ := by
      refine (measure_eq_iff hwidth).2 ⟨fun i hi => ?_, fun _ => ?_, fun he => ?_⟩
      · refine (hlive i hi).cut hc ?_
        have hmono : recordOffset width offset (i + 1)
            ≤ recordOffset width offset count := recordOffset_mono hi
        rw [recordOffset_succ] at hmono
        unfold Inside
        omega
      · exact hblank.cut hc hsize
      · cases he
    rw [hcut]

/-- **An array with an end mark stays as it is** when the data go on. -/
theorem measure_eq_of_begins (hc : Begins c d) (hwidth : 0 < width)
    (hend : (measure c width offset).ending = .terminator) :
    measure d width offset = measure c width offset := by
  have hfits : Fits c width offset (measure c width offset) :=
    fits_measure hwidth
  refine (measure_eq_iff hwidth).2
    ⟨fun i hi => (hfits.live i hi).of_begins hc,
      fun he => (hfits.blank he).of_begins hc, fun he => ?_⟩
  rw [hend] at he
  cases he

/-- **An array loses no record** when the data go on. -/
theorem lt_count_of_begins (hc : Begins c d) (hwidth : 0 < width) {k : Nat}
    (h : k < (measure c width offset).count) :
    k < (measure d width offset).count := by
  rw [lt_count_measure_iff hwidth] at h ⊢
  exact fun i hi => (h i hi).of_begins hc

end Begins

end DriverAudit.RecordArray
