import DriverAudit.Proofs.Bytes.Overwriting

/-!
# Data that are written in place

Data can be put together piece by piece, or written in place: they start out as
zeros, and each *edit* writes into some range of them. An edit fails when the
range is not inside the data, is not as long as what is to be written, or when
what is to be written could not be computed; then nothing comes of the whole.

Edits are compared with the bytes that they should produce. They *draw* some
bytes if each writes a piece of them in its place, and if no byte other than
zero is left out (`Draws`). In which order they do so does not matter, and
neither does whether some of them write the same place. So that edits draw what
they should is found out piece by piece (`Draws.append`), whatever the order in
which they are run. Edits that draw some bytes never fail, and produce them
(`Draws.runEdits?_zeroed`).
-/

namespace DriverAudit

/-- **One step of writing in place.** -/
inductive Edit where
  /-- Put some bytes into the range from `first` up to `last`. There are none
  to put if they could not be computed. -/
  | put (first last : Nat) (bytes : Option (List UInt8))
  /-- Copy the first bytes to an offset. -/
  | copyFront (width offset : Nat)

/-! ## Running edits -/

/-- The data with the bytes from an offset on replaced. -/
def splice (d : ByteArray) (offset : Nat) (bytes : List UInt8) : ByteArray :=
  ⟨(d.data.toList.take offset ++ bytes
    ++ d.data.toList.drop (offset + bytes.length)).toArray⟩

/-- **One edit**, which must stay inside the data. -/
def Edit.run? (d : ByteArray) : Edit → Option ByteArray
  | put first last bytes => do
    let bytes ← bytes
    if first ≤ last ∧ last ≤ d.size ∧ bytes.length = last - first then
      some (splice d first bytes)
    else none
  | copyFront width offset =>
    if width ≤ d.size ∧ offset + width ≤ d.size then
      some (splice d offset (d.data.toList.take width))
    else none

/-- **Edits one after the other**, as long as none of them fails. -/
def runEdits? (d : ByteArray) (edits : List Edit) : Option ByteArray :=
  edits.foldlM Edit.run? d

/-- Data of some size, all of them zeros. -/
def zeroed (size : Nat) : ByteArray := ⟨(List.replicate size 0).toArray⟩

@[simp]
theorem size_zeroed (size : Nat) : (zeroed size).size = size :=
  List.length_replicate

@[simp]
theorem byteAt_zeroed (size i : Nat) : byteAt (zeroed size) i = 0 := by
  rw [byteAt_eq_toList]
  show (List.replicate size (0 : UInt8))[i]?.getD 0 = 0
  rw [List.getElem?_replicate]
  split <;> rfl

theorem runEdits?_cons (d : ByteArray) (e : Edit) (edits : List Edit) :
    runEdits? d (e :: edits) = (e.run? d).bind (runEdits? · edits) :=
  List.foldlM_cons

theorem runEdits?_append (d : ByteArray) (front back : List Edit) :
    runEdits? d (front ++ back)
      = (runEdits? d front).bind (runEdits? · back) :=
  List.foldlM_append

section Splice

variable {d : ByteArray} {offset : Nat} {bytes : List UInt8}

theorem size_splice (h : Inside d offset bytes.length) :
    (splice d offset bytes).size = d.size := by
  have hin : offset + bytes.length ≤ d.data.toList.length := h
  show (d.data.toList.take offset ++ bytes
    ++ d.data.toList.drop (offset + bytes.length)).length
      = d.data.toList.length
  rw [List.length_append, List.length_append, List.length_take,
    List.length_drop]
  omega

/-- Inside the range that was replaced the new bytes are found. -/
theorem byteAt_splice_add (h : Inside d offset bytes.length) {i : Nat}
    (hi : i < bytes.length) :
    byteAt (splice d offset bytes) (offset + i) = bytes[i] := by
  have hin : offset + bytes.length ≤ d.data.toList.length := h
  have hfront : (d.data.toList.take offset).length = offset := by
    rw [List.length_take]
    omega
  rw [byteAt_eq_toList]
  show (d.data.toList.take offset ++ bytes
    ++ d.data.toList.drop (offset + bytes.length))[offset + i]?.getD 0 = _
  rw [List.append_assoc, List.getElem?_append_right (by omega), hfront,
    Nat.add_sub_cancel_left, List.getElem?_append_left hi,
    List.getElem?_eq_getElem hi]
  rfl

/-- Outside of it the bytes are the old ones. -/
theorem byteAt_splice_of_not (h : Inside d offset bytes.length) {i : Nat}
    (hi : ¬ (offset ≤ i ∧ i < offset + bytes.length)) :
    byteAt (splice d offset bytes) i = byteAt d i := by
  have hin : offset + bytes.length ≤ d.data.toList.length := h
  have hfront : (d.data.toList.take offset).length = offset := by
    rw [List.length_take]
    omega
  rw [byteAt_eq_toList, byteAt_eq_toList]
  show (d.data.toList.take offset ++ bytes
    ++ d.data.toList.drop (offset + bytes.length))[i]?.getD 0 = _
  rw [List.append_assoc]
  rcases Nat.lt_or_ge i offset with hlt | hge
  · rw [List.getElem?_append_left (by omega), List.getElem?_take_of_lt hlt]
  · rw [List.getElem?_append_right (by omega), hfront,
      List.getElem?_append_right (by omega), List.getElem?_drop]
    congr 2
    omega

end Splice

/-! ## Edits that write pieces of the same bytes -/

/-- **An edit that writes a piece of some bytes in its place**, where the
bytes start at an offset. -/
def Edit.PutsPieceOf (offset : Nat) (bytes : List UInt8) (e : Edit) : Prop :=
  ∃ front piece back, bytes = front ++ piece ++ back
    ∧ e = .put (offset + front.length) (offset + front.length + piece.length)
        (some piece)

/-- Whether an edit writes a position. -/
def Edit.Writes (i : Nat) : Edit → Prop
  | put first last _ => first ≤ i ∧ i < last
  | copyFront width offset => offset ≤ i ∧ i < offset + width

variable {d : ByteArray} {target : List UInt8} {edits : List Edit}

/-- The byte that belongs at a position. -/
def targetAt (target : List UInt8) (i : Nat) : UInt8 := target[i]?.getD 0

/-- **An edit that writes a piece of the target** does not fail. What it
writes is as in the target, the rest as before. -/
theorem Edit.PutsPieceOf.run {e : Edit} (he : e.PutsPieceOf 0 target)
    (hsize : d.size = target.length) :
    ∃ d', e.run? d = some d' ∧ d'.size = target.length
      ∧ (∀ i, e.Writes i → byteAt d' i = targetAt target i)
      ∧ ∀ i, ¬ e.Writes i → byteAt d' i = byteAt d i := by
  obtain ⟨front, piece, back, rfl, rfl⟩ := he
  rw [Nat.zero_add]
  have hin : Inside d front.length piece.length := by
    unfold Inside
    rw [hsize, List.length_append, List.length_append]
    omega
  refine ⟨splice d front.length piece, ?_, by rw [size_splice hin, hsize],
    fun i hi => ?_, fun i hi => byteAt_splice_of_not hin hi⟩
  · have hsame : piece.length = front.length + piece.length - front.length :=
      (Nat.add_sub_cancel_left _ _).symm
    exact if_pos ⟨Nat.le_add_right _ _, hin, hsame⟩
  · obtain ⟨j, rfl⟩ := Nat.exists_eq_add_of_le hi.1
    have hj : j < piece.length := Nat.lt_of_add_lt_add_left hi.2
    rw [byteAt_splice_add hin hj, targetAt, List.append_assoc,
      List.getElem?_append_right (Nat.le_add_right _ _),
      Nat.add_sub_cancel_left, List.getElem?_append_left hj,
      List.getElem?_eq_getElem hj]
    rfl

/-- **Edits that write pieces of the target**, each in its place: none of them
fails, every position that one of them writes is as in the target, and the
others are as before. -/
theorem runEdits?_of_putsPieceOf (h : ∀ e ∈ edits, e.PutsPieceOf 0 target)
    (hsize : d.size = target.length) :
    ∃ d', runEdits? d edits = some d' ∧ d'.size = target.length
      ∧ (∀ i, (∃ e ∈ edits, e.Writes i) → byteAt d' i = targetAt target i)
      ∧ ∀ i, (¬ ∃ e ∈ edits, e.Writes i) → byteAt d' i = byteAt d i := by
  induction edits generalizing d with
  | nil =>
    exact ⟨d, rfl, hsize, fun i ⟨_, he, _⟩ => absurd he List.not_mem_nil,
      fun _ _ => rfl⟩
  | cons e rest ih =>
    obtain ⟨d₁, hrun, hsize₁, hnew, hold⟩ :=
      (h e List.mem_cons_self).run hsize
    obtain ⟨d', hrest, hsize', hnew', hold'⟩ :=
      ih (fun f hf => h f (List.mem_cons_of_mem e hf)) hsize₁
    refine ⟨d', ?_, hsize', fun i hi => ?_, fun i hi => ?_⟩
    · rw [runEdits?_cons, hrun]
      exact hrest
    · -- what is not written again later keeps what the first edit wrote
      by_cases hlater : ∃ f ∈ rest, f.Writes i
      · exact hnew' i hlater
      · obtain ⟨f, hf, hwrites⟩ := hi
        rcases List.mem_cons.1 hf with rfl | hf
        · rw [hold' i hlater]
          exact hnew i hwrites
        · exact absurd ⟨f, hf, hwrites⟩ hlater
    · rw [hold' i fun ⟨f, hf, hw⟩ => hi ⟨f, List.mem_cons_of_mem e hf, hw⟩]
      exact hold i fun hw => hi ⟨e, List.mem_cons_self, hw⟩

/-! ## Drawing -/

/-- **Edits that draw some bytes over zeros**, from an offset on. -/
structure Draws (edits : List Edit) (offset : Nat) (bytes : List UInt8) :
    Prop where
  /-- Each edit writes a piece of the bytes, in its place. -/
  piece : ∀ e ∈ edits, e.PutsPieceOf offset bytes
  /-- Every byte that is not zero is written. -/
  written : ∀ i (hi : i < bytes.length), bytes[i] ≠ 0 →
    ∃ e ∈ edits, e.Writes (offset + i)

namespace Draws

variable {offset : Nat} {bytes : List UInt8}

/-- Zeros need not be written. -/
theorem zeros (offset n : Nat) : Draws [] offset (List.replicate n 0) where
  piece := fun _ he => absurd he List.not_mem_nil
  written := fun _ hi hne => absurd (List.getElem_replicate hi) hne

/-- Nothing is drawn without an edit. -/
theorem nil (offset : Nat) : Draws [] offset [] := zeros offset 0

/-- **All bytes are drawn by one edit.** -/
theorem put (offset : Nat) (bytes : List UInt8) :
    Draws [.put offset (offset + bytes.length) (some bytes)] offset bytes where
  piece := by
    intro e he
    refine ⟨[], bytes, [], (List.append_nil bytes).symm, ?_⟩
    exact List.mem_singleton.1 he
  written := fun i hi _ =>
    ⟨_, List.mem_singleton_self _, Nat.le_add_right _ _,
      Nat.add_lt_add_left hi _⟩

/-- **One piece is drawn behind the other.** -/
theorem append {front back : List Edit} {x y : List UInt8}
    (hx : Draws front offset x) (hy : Draws back (offset + x.length) y) :
    Draws (front ++ back) offset (x ++ y) where
  piece := by
    intro e he
    rcases List.mem_append.1 he with hfront | hback
    · obtain ⟨before, piece, after, rfl, rfl⟩ := hx.piece e hfront
      exact ⟨before, piece, after ++ y, by rw [List.append_assoc _ after], rfl⟩
    · obtain ⟨before, piece, after, rfl, rfl⟩ := hy.piece e hback
      refine ⟨x ++ before, piece, after, by simp only [List.append_assoc], ?_⟩
      rw [List.length_append, ← Nat.add_assoc]
  written := by
    intro i hi hne
    rcases Nat.lt_or_ge i x.length with hlt | hge
    · rw [List.getElem_append_left hlt] at hne
      obtain ⟨e, he, hwrites⟩ := hx.written i hlt hne
      exact ⟨e, List.mem_append_left _ he, hwrites⟩
    · obtain ⟨j, rfl⟩ := Nat.exists_eq_add_of_le hge
      rw [List.length_append] at hi
      rw [List.getElem_append_right hge] at hne
      obtain ⟨e, he, hwrites⟩ := hy.written (x.length + j - x.length)
        (by omega) hne
      rw [Nat.add_sub_cancel_left, Nat.add_assoc] at hwrites
      exact ⟨e, List.mem_append_right _ he, hwrites⟩

/-- One piece is drawn where the other ends. -/
theorem append_at {front back : List Edit} {x y : List UInt8} {behind : Nat}
    (hx : Draws front offset x) (hy : Draws back behind y)
    (h : offset + x.length = behind) : Draws (front ++ back) offset (x ++ y) :=
  hx.append (h ▸ hy)

/-- Zeros behind a piece need not be written. -/
theorem append_zeros (h : Draws edits offset bytes) (n : Nat) :
    Draws edits offset (bytes ++ List.replicate n 0) := by
  have happend := h.append (zeros (offset + bytes.length) n)
  rwa [List.append_nil] at happend

/-- Neither need zeros in front of it. -/
theorem zeros_append {n : Nat} (h : Draws edits (offset + n) bytes) :
    Draws edits offset (List.replicate n 0 ++ bytes) := by
  refine (zeros offset n).append ?_
  rwa [List.length_replicate]

/-- Nothing is written outside of what is drawn. -/
theorem lt_of_writes (h : Draws edits offset bytes) {e : Edit} (he : e ∈ edits)
    {i : Nat} (hi : e.Writes i) : offset ≤ i ∧ i < offset + bytes.length := by
  obtain ⟨front, piece, back, rfl, rfl⟩ := h.piece e he
  obtain ⟨hfirst, hlast⟩ := hi
  rw [List.length_append, List.length_append]
  omega

/-- **The order of the edits does not matter**, nor how often each is made. -/
theorem of_mem_iff {edits' : List Edit} (h : Draws edits offset bytes)
    (hmem : ∀ e, e ∈ edits' ↔ e ∈ edits) : Draws edits' offset bytes where
  piece := fun e he => h.piece e ((hmem e).1 he)
  written := fun i hi hne =>
    let ⟨e, he, hwrites⟩ := h.written i hi hne
    ⟨e, (hmem e).2 he, hwrites⟩

end Draws

/-- Data are known from their size and their bytes. -/
theorem eq_of_byteAt {d e : ByteArray} (hsize : d.size = e.size)
    (h : ∀ i, byteAt d i = byteAt e i) : d = e := by
  refine ByteArray.ext (Array.toList_inj.1 (List.ext_getElem hsize ?_))
  intro i hd he
  have hi := h i
  rwa [byteAt_eq_toList, byteAt_eq_toList, List.getElem?_eq_getElem hd,
    List.getElem?_eq_getElem he] at hi

/-- What no edit writes is zero. -/
theorem Draws.targetAt_eq_zero (h : Draws edits 0 target) {i : Nat}
    (hi : ¬ ∃ e ∈ edits, e.Writes i) : targetAt target i = 0 := by
  unfold targetAt
  cases hbyte : target[i]? with
  | none => rfl
  | some b =>
    obtain ⟨hlt, rfl⟩ := List.getElem?_eq_some_iff.1 hbyte
    refine Decidable.byContradiction fun hne => hi ?_
    have hwritten := h.written i hlt hne
    rwa [Nat.zero_add] at hwritten

/-- **Edits that draw some bytes over zeros produce them.** -/
theorem Draws.runEdits?_zeroed (h : Draws edits 0 target) :
    runEdits? (zeroed target.length) edits = some ⟨target.toArray⟩ := by
  obtain ⟨d, hrun, hsize, hnew, hold⟩ :=
    runEdits?_of_putsPieceOf h.piece (size_zeroed target.length)
  rw [hrun]
  refine congrArg some (eq_of_byteAt hsize fun i => ?_)
  rw [byteAt_eq_toList ⟨target.toArray⟩]
  show byteAt d i = targetAt target i
  by_cases hwrites : ∃ e ∈ edits, e.Writes i
  · exact hnew i hwrites
  · rw [hold i hwrites, byteAt_zeroed, h.targetAt_eq_zero hwrites]

/-! ## Copies of what is there already -/

/-- The edit that writes out what a copy of the first bytes should write. -/
def writeOut (target : List UInt8) (width offset : Nat) : Edit :=
  .put offset (offset + width) (some (target.take width))

/-- Data that agree with the target in their first bytes start with them. -/
theorem take_eq_of_byteAt {width : Nat} (hsize : d.size = target.length)
    (h : ∀ i < width, byteAt d i = targetAt target i) :
    d.data.toList.take width = target.take width := by
  have hlength : d.data.toList.length = target.length := hsize
  refine List.ext_getElem (by simp only [List.length_take, hlength]) ?_
  intro i hd ht
  rw [List.length_take] at hd ht
  have hi := h i (by omega)
  rw [byteAt_eq_toList, targetAt, List.getElem?_eq_getElem (by omega),
    List.getElem?_eq_getElem (by omega)] at hi
  rw [List.getElem_take, List.getElem_take]
  exact hi

/-- A copy writes the target where the first bytes are already drawn. -/
theorem run?_copyFront {width offset : Nat}
    (hpiece : (writeOut target width offset).PutsPieceOf 0 target)
    (hsize : d.size = target.length)
    (hfront : ∀ i < width, byteAt d i = targetAt target i) :
    Edit.run? d (.copyFront width offset)
      = (writeOut target width offset).run? d := by
  obtain ⟨front, piece, back, htarget, hedit⟩ := hpiece
  injection hedit with hfirst hlast hbytes
  have hwidth : (target.take width).length = width := by
    rw [Option.some.inj hbytes]
    omega
  have hin : offset + width ≤ d.size := by
    rw [hsize, htarget, List.length_append, List.length_append]
    omega
  show (if _ then some (splice d offset (d.data.toList.take width)) else none)
    = if _ then some (splice d offset (target.take width)) else none
  rw [take_eq_of_byteAt hsize hfront, hwidth, if_pos ⟨by omega, hin⟩,
    if_pos ⟨Nat.le_add_right _ _, hin, (Nat.add_sub_cancel_left _ _).symm⟩]

/-- **Copies of the first bytes may as well be written out**, once the first
bytes are drawn. -/
theorem runEdits?_map_copyFront {width : Nat} {offsets : List Nat}
    (hpiece : ∀ offset ∈ offsets,
      (writeOut target width offset).PutsPieceOf 0 target)
    (hsize : d.size = target.length)
    (hfront : ∀ i < width, byteAt d i = targetAt target i) :
    runEdits? d (offsets.map (.copyFront width))
      = runEdits? d (offsets.map (writeOut target width)) := by
  induction offsets generalizing d with
  | nil => rfl
  | cons offset rest ih =>
    have hfirst := hpiece offset List.mem_cons_self
    obtain ⟨d', hrun, hsize', hnew, hold⟩ := hfirst.run hsize
    rw [List.map_cons, List.map_cons, runEdits?_cons, runEdits?_cons,
      run?_copyFront hfirst hsize hfront, hrun]
    refine ih (fun o ho => hpiece o (List.mem_cons_of_mem offset ho)) hsize' ?_
    -- a copy that overlaps the first bytes writes what is there already
    intro i hi
    by_cases hwrites : (writeOut target width offset).Writes i
    · exact hnew i hwrites
    · rw [hold i hwrites]
      exact hfront i hi

/-- **Edits that end with copies of the first bytes** produce the bytes that
they draw, when the copies leave the first bytes alone. -/
theorem Draws.runEdits?_copies {puts : List Edit} {width : Nat}
    {offsets : List Nat} {bytes : List UInt8}
    (h : Draws (puts ++ offsets.map (writeOut bytes width)) 0 bytes)
    (hbehind : ∀ offset ∈ offsets, width ≤ offset) :
    runEdits? (zeroed bytes.length) (puts ++ offsets.map (.copyFront width))
      = some ⟨bytes.toArray⟩ := by
  have hputs : ∀ e ∈ puts, e.PutsPieceOf 0 bytes := fun e he =>
    h.piece e (List.mem_append_left _ he)
  have hcopies : ∀ offset ∈ offsets,
      (writeOut bytes width offset).PutsPieceOf 0 bytes := fun offset ho =>
    h.piece _ (List.mem_append_right _ (List.mem_map_of_mem ho))
  obtain ⟨d, hrun, hsize, hnew, hold⟩ :=
    runEdits?_of_putsPieceOf hputs (size_zeroed bytes.length)
  have hfront : ∀ i < width, byteAt d i = targetAt bytes i := by
    intro i hi
    by_cases hwrites : ∃ e ∈ puts, e.Writes i
    · exact hnew i hwrites
    · rw [hold i hwrites, byteAt_zeroed]
      refine (h.targetAt_eq_zero fun ⟨e, he, hwrite⟩ => ?_).symm
      -- a first byte is not written by a copy
      rcases List.mem_append.1 he with hput | hcopy
      · exact hwrites ⟨e, hput, hwrite⟩
      · obtain ⟨offset, ho, rfl⟩ := List.mem_map.1 hcopy
        exact absurd hwrite.1 (by have := hbehind offset ho; omega)
  rw [runEdits?_append, hrun, Option.bind_some,
    runEdits?_map_copyFront hcopies hsize hfront]
  have hall := h.runEdits?_zeroed
  rwa [runEdits?_append, hrun] at hall

end DriverAudit
