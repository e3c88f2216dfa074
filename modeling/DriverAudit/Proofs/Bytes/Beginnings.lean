import DriverAudit.Image.Error
import DriverAudit.Proofs.Bytes.Words

/-!
# Reads and cut data

Data that have been cut short begin the data that were cut (`Begins`), and a
read from them answers the same as long as its range survives. A computation
made of reads therefore has an *extent*: the largest end of the ranges it
reads. Where the extent survives it answers as before, and where it does not,
some read is the first to fail and says that it is out of bounds.

That is `Needs`, and it composes: one computation after the other needs the
larger of the two extents. So the extent of a long computation is found by
going through its reads, with no thought of which of them fails first.
-/

namespace DriverAudit

/-- **One byte sequence begins another.** -/
structure Begins (c d : ByteArray) : Prop where
  size_le : c.size ≤ d.size
  byteAt_eq : ∀ i < c.size, byteAt c i = byteAt d i

/-- **The first bytes of some data begin them.** -/
theorem begins_extract (d : ByteArray) (k : Nat) :
    Begins (d.extract 0 k) d := by
  have hsize : (d.extract 0 k).size = min k d.size := by
    rw [ByteArray.size_extract, Nat.sub_zero]
  refine ⟨?_, fun i hi => ?_⟩
  · rw [hsize]
    exact Nat.min_le_right k d.size
  · rw [hsize] at hi
    rw [byteAt_eq_toList, byteAt_eq_toList, ByteArray.data_extract,
      Array.toList_extract, List.extract_eq_take_drop, List.drop_zero,
      List.getElem?_take_of_lt (by omega)]

variable {c d : ByteArray}

/-- The values of the bytes that are left do not change. -/
theorem Begins.wordAt_eq (h : Begins c d) {offset width : Nat}
    (hin : Inside c offset width) :
    wordAt c offset width = wordAt d offset width :=
  wordAt_congr (fun j hj => h.byteAt_eq _ (by unfold Inside at hin; omega))

/-- The bytes of a range that is left do not change. -/
theorem Begins.extract_eq (h : Begins c d) {offset width : Nat}
    (hin : Inside c offset width) :
    (c.extract offset (offset + width)).data.toList
      = (d.extract offset (offset + width)).data.toList := by
  have hsize := h.size_le
  have hd : Inside d offset width := by
    unfold Inside at hin ⊢
    omega
  rw [toList_extract hin, toList_extract hd]
  refine List.map_congr_left (fun i hi => h.byteAt_eq _ ?_)
  have hlt := List.mem_range.1 hi
  unfold Inside at hin
  omega

/-- Data begin themselves. -/
theorem Begins.refl (d : ByteArray) : Begins d d :=
  ⟨Nat.le_refl _, fun _ _ => rfl⟩

/-! ## Extents -/

/-- **A computation that needs the first `extent` bytes** to answer with a
value. Data of fewer than two bytes, of which not even the first word can be
read, are left aside. -/
structure Needs {α : Type} (read : ByteArray → Except ImageError α)
    (d : ByteArray) (extent : Nat) (value : α) : Prop where
  enough : ∀ c, Begins c d → extent ≤ c.size → read c = .ok value
  short : ∀ c, Begins c d → 2 ≤ c.size → c.size < extent →
    ∃ offset width,
      read c = .error (.unreadable (.outOfBounds offset width c.size))

namespace Needs

variable {α β : Type}

/-- A value that is there anyway needs nothing. -/
theorem pure (d : ByteArray) (value : α) :
    Needs (fun _ => .ok value) d 0 value :=
  ⟨fun _ _ _ => rfl, fun _ _ _ h => absurd h (Nat.not_lt_zero _)⟩

/-- The same extent, computed in another way. -/
theorem of_extent {read : ByteArray → Except ImageError α} {m n : Nat}
    {value : α} (h : Needs read d m value) (hmn : m = n) :
    Needs read d n value := hmn ▸ h

/-- The same computation, written in another way. -/
theorem of_read {read read' : ByteArray → Except ImageError α} {n : Nat}
    {value : α} (hsame : ∀ c, Begins c d → 2 ≤ c.size → read' c = read c)
    (hn : 2 ≤ n) (h : Needs read d n value) : Needs read' d n value := by
  constructor
  · intro c hc hextent
    rw [hsame c hc (by omega)]
    exact h.enough c hc hextent
  · intro c hc htwo hextent
    rw [hsame c hc htwo]
    exact h.short c hc htwo hextent

/-- **One after the other needs the larger extent.** -/
theorem bind {read : ByteArray → Except ImageError α}
    {next : ByteArray → α → Except ImageError β} {m n : Nat} {a : α} {b : β}
    (hread : Needs read d m a) (hnext : Needs (fun c => next c a) d n b) :
    Needs (fun c => read c >>= next c) d (max m n) b := by
  constructor
  · intro c hc hextent
    have ha : read c = .ok a := hread.enough c hc (by omega)
    show read c >>= next c = _
    rw [ha]
    exact hnext.enough c hc (by omega)
  · intro c hc htwo hextent
    show ∃ _ _, read c >>= next c = _
    by_cases hm : m ≤ c.size
    · rw [hread.enough c hc hm]
      exact hnext.short c hc htwo (by omega)
    · obtain ⟨offset, width, herror⟩ := hread.short c hc htwo (by omega)
      rw [herror]
      exact ⟨offset, width, rfl⟩

/-- **A checked read** needs its range, if its value depends on the bytes of
the range alone. -/
theorem checked {value : ByteArray → α} {offset width : Nat}
    (hvalue : ∀ c, Begins c d → Inside c offset width → value c = value d) :
    Needs (fun c => ofRead (DriverAudit.checked c offset width (value c))) d
      (offset + width) (value d) := by
  constructor
  · intro c hc hextent
    show ofRead (DriverAudit.checked c offset width (value c)) = _
    rw [checked_eq_ok_iff.2 ⟨hextent, hvalue c hc hextent⟩]
    rfl
  · intro c hc _ hextent
    refine ⟨offset, width, ?_⟩
    show ofRead (DriverAudit.checked c offset width (value c)) = _
    rw [checked_of_not_inside _ (Nat.not_le.2 hextent)]
    rfl

/-- **A computation that answers** has the value that it needs its extent for,
and its extent is inside the data. -/
theorem of_eq_ok {read : ByteArray → Except ImageError α} {extent : Nat}
    {value found : α} (h : Needs read d extent value) (htwo : 2 ≤ d.size)
    (hfound : read d = .ok found) : extent ≤ d.size ∧ value = found := by
  by_cases hextent : extent ≤ d.size
  · have hvalue := h.enough d (Begins.refl d) hextent
    exact ⟨hextent, Except.ok.inj (hvalue.symm.trans hfound)⟩
  · obtain ⟨_, _, herror⟩ := h.short d (Begins.refl d) htwo (by omega)
    rw [hfound] at herror
    cases herror

theorem u16At (d : ByteArray) (offset : Nat) :
    Needs (fun c => ofRead (DriverAudit.u16At c offset)) d (offset + 2)
      (UInt16.ofNat (wordAt d offset 2)) :=
  checked (fun _ hc hin => congrArg UInt16.ofNat (hc.wordAt_eq hin))

theorem u32At (d : ByteArray) (offset : Nat) :
    Needs (fun c => ofRead (DriverAudit.u32At c offset)) d (offset + 4)
      (UInt32.ofNat (wordAt d offset 4)) :=
  checked (fun _ hc hin => congrArg UInt32.ofNat (hc.wordAt_eq hin))

theorem u64At (d : ByteArray) (offset : Nat) :
    Needs (fun c => ofRead (DriverAudit.u64At c offset)) d (offset + 8)
      (UInt64.ofNat (wordAt d offset 8)) :=
  checked (fun _ hc hin => congrArg UInt64.ofNat (hc.wordAt_eq hin))

theorem bytesAt (d : ByteArray) (offset width : Nat) :
    Needs (fun c => ofRead (DriverAudit.bytesAt c offset width)) d
      (offset + width) (d.extract offset (offset + width)).data.toList :=
  checked (fun _ hc hin => hc.extract_eq hin)

end Needs

end DriverAudit
