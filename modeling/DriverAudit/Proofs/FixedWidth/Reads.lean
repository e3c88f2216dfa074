import DriverAudit.Proofs.Bytes.Strings
import DriverAudit.Image.Error
import DriverAudit.Proofs.FixedWidth.Arithmetic

/-!
# Reads in words

A read in words adds the offset and the width and takes the part of the data
between them. The offset may be any word, so the sum may fail to be one; then
the range is not inside the data, and the read says so, as it does for every
other range that is not. So reads are exact for all offsets, provided that the
data have less than 2⁶³ bytes.

The bytes of a word are copied before they are made one, and the bytes of a
string are those of its window before the first zero. Neither the copy nor the
front of the window ever asks for bytes that are not there.
-/

namespace DriverAudit.FixedWidth

/-! ## The reads -/

/-- **The bytes of a range.** -/
def bytesAt (d : ByteArray) (offset width : UInt64) :
    Except ImageError ByteArray :=
  match (checkedPlus offset width).bind (part? d offset) with
  | some bytes => .ok bytes
  | none =>
    .error (.unreadable (.outOfBounds offset.toNat width.toNat d.size))

/-- The word of `n` bytes at an offset, copied out and made into a value. -/
def wordOf {α : Type} (d : ByteArray) (offset : UInt64) (n : Nat)
    (make : Nat → α) : Attempt ImageError α := do
  let raw ← bytesAt d offset (UInt64.ofNat n)
  let bytes ← copied n raw
  return make (wordAt bytes 0 n)

/-- The 16-bit word at an offset. -/
def u16At (d : ByteArray) (offset : UInt64) : Attempt ImageError UInt16 :=
  wordOf d offset 2 UInt16.ofNat

/-- The 32-bit word at an offset. -/
def u32At (d : ByteArray) (offset : UInt64) : Attempt ImageError UInt32 :=
  wordOf d offset 4 UInt32.ofNat

/-- The 64-bit word at an offset. -/
def u64At (d : ByteArray) (offset : UInt64) : Attempt ImageError UInt64 :=
  wordOf d offset 8 UInt64.ofNat

/-- **A zero-terminated string.** The window ends at the ceiling or at the end
of the data, and the end of the window may well be cut down to the largest
word. -/
def stringAt (d : ByteArray) (offset ceiling : UInt64) :
    Attempt ImageError String :=
  if sizeOf d ≤ offset then
    throw (.unreadable (.outOfBounds offset.toNat 1 d.size))
  else
    match part? d offset (min (saturatingPlus offset ceiling) (sizeOf d)) with
    | none =>
      throw (.unreadable (.outOfBounds offset.toNat ceiling.toNat d.size))
    | some window =>
      match window.data.toList.findIdx? (· == 0) with
      | some length => do
        let front ← part window 0 (UInt64.ofNat length)
        return Utf8.decode front.data.toList
      | none =>
        if sizeOf window < ceiling then
          throw (.unreadable (.outOfBounds offset.toNat ceiling.toNat d.size))
        else
          throw (.unreadable (.unterminated offset.toNat ceiling.toNat))

/-! ## Parts of data -/

section Parts

variable {d : ByteArray} {offset width : Nat}

/-- The bytes of a part are those of the data. -/
theorem byteAt_extract (h : Inside d offset width) {i : Nat}
    (hi : i < width) :
    byteAt (d.extract offset (offset + width)) i = byteAt d (offset + i) := by
  rw [byteAt_eq_toList, toList_extract h, List.getElem?_map,
    List.getElem?_range hi]
  rfl

theorem size_extract (h : Inside d offset width) :
    (d.extract offset (offset + width)).size = width := by
  unfold Inside at h
  rw [ByteArray.size_extract]
  omega

/-- The words of a part are those of the data. -/
theorem wordAt_extract (h : Inside d offset width) {i n : Nat}
    (hn : i + n ≤ width) :
    wordAt (d.extract offset (offset + width)) i n
      = wordAt d (offset + i) n := by
  induction n generalizing i with
  | zero => rfl
  | succ n ih =>
    rw [wordAt, wordAt, byteAt_extract h (by omega), ih (by omega),
      Nat.add_assoc]

/-- **The search for a zero** in the data is the search in its window. -/
theorem zeroWithin_eq_findIdx? (d : ByteArray) (i seen n : Nat) :
    zeroWithin d i seen n
      = (((List.range n).map fun j => byteAt d (i + j)).findIdx?
          (· == 0)).map (seen + ·) := by
  induction n generalizing i seen with
  | zero => rfl
  | succ n ih =>
    have hrest : (fun j => byteAt d (i + (j + 1)))
        = fun j => byteAt d (i + 1 + j) := by
      funext j
      rw [Nat.add_assoc, Nat.add_comm 1 j]
    rw [zeroWithin, List.range_succ_eq_map, List.map_cons, List.map_map,
      List.findIdx?_cons, Nat.add_zero]
    split
    case isTrue hzero => simp [hzero]
    case isFalse hzero =>
      have hfirst : (byteAt d (i + 0) == 0) = false := by
        rw [Nat.add_zero, beq_eq_false_iff_ne]
        exact hzero
      rw [ih, hfirst, if_neg Bool.false_ne_true, Option.map_map]
      simp only [Function.comp_def, Nat.succ_eq_add_one, hrest]
      refine congrArg (Option.map · _) (funext fun j => ?_)
      omega

end Parts

/-! ## Their exactness -/

variable {d : ByteArray} (hd : d.size < 2 ^ 63)
include hd

theorem part?_eq_some {first last : UInt64}
    (hle : first.toNat ≤ last.toNat) (hlast : last.toNat ≤ d.size) :
    part? d first last = some (d.extract first.toNat last.toNat) := by
  refine if_pos ⟨UInt64.le_iff_toNat_le.2 hle, ?_⟩
  rw [UInt64.le_iff_toNat_le, toNat_sizeOf hd]
  exact hlast

theorem part?_eq_none {first last : UInt64} (hlast : d.size < last.toNat) :
    part? d first last = none := by
  refine if_neg (fun h => ?_)
  rw [UInt64.le_iff_toNat_le, UInt64.le_iff_toNat_le, toNat_sizeOf hd] at h
  omega

/-- **A range of bytes is read at every offset** as it is without words. -/
theorem bytesAt_eq (offset width : UInt64) :
    bytesAt d offset width
      = ofRead (checked d offset.toNat width.toNat
        (d.extract offset.toNat (offset.toNat + width.toNat))) := by
  unfold bytesAt
  by_cases hin : Inside d offset.toNat width.toNat
  · have hsum : offset.toNat + width.toNat < 2 ^ 64 := by
      unfold Inside at hin
      omega
    obtain ⟨last, hlast, hsome⟩ := checkedPlus_eq_some hsum
    rw [checked_eq_ok_iff.2 ⟨hin, rfl⟩, hsome, Option.bind_some,
      part?_eq_some hd (by omega) (by rw [hlast]; exact hin), hlast]
    rfl
  · rw [checked_of_not_inside _ hin]
    by_cases hsum : offset.toNat + width.toNat < 2 ^ 64
    · obtain ⟨last, hlast, hsome⟩ := checkedPlus_eq_some hsum
      rw [hsome, Option.bind_some, part?_eq_none hd]
      · rfl
      · rw [hlast]
        exact Nat.lt_of_not_le hin
    · rw [checkedPlus_eq_none hsum]
      rfl

/-- **A word is read at every offset** as it is without words. -/
theorem exact_wordOf {α : Type} (offset : UInt64) {n : Nat} (hn : n < 2 ^ 64)
    (make : Nat → α) :
    Exact (wordOf d offset n make).run
      (ofRead (checked d offset.toNat n (make (wordAt d offset.toNat n)))) := by
  have hwidth : (UInt64.ofNat n).toNat = n := UInt64.toNat_ofNat_of_lt' hn
  have hread := bytesAt_eq hd offset (UInt64.ofNat n)
  rw [hwidth] at hread
  by_cases hin : Inside d offset.toNat n
  · rw [checked_eq_ok_iff.2 ⟨hin, rfl⟩] at hread ⊢
    unfold wordOf
    rw [hread]
    refine Exact.andThen (Exact.answer _) ?_
    refine Exact.lift (Exact.expect (size_extract hin) _) ?_
    rw [wordAt_extract hin (by omega), Nat.add_zero]
    exact Exact.pure _
  · rw [checked_of_not_inside _ hin] at hread ⊢
    unfold wordOf
    rw [hread]
    exact Exact.pure _

theorem exact_u16At (offset : UInt64) :
    Exact (u16At d offset).run
      (ofRead (DriverAudit.u16At d offset.toNat)) :=
  exact_wordOf hd offset (by decide) _

theorem exact_u32At (offset : UInt64) :
    Exact (u32At d offset).run
      (ofRead (DriverAudit.u32At d offset.toNat)) :=
  exact_wordOf hd offset (by decide) _

theorem exact_u64At (offset : UInt64) :
    Exact (u64At d offset).run
      (ofRead (DriverAudit.u64At d offset.toNat)) :=
  exact_wordOf hd offset (by decide) _

omit hd in
/-- The front of a window is there, and its bytes are those of the data. -/
theorem exact_front {offset width length : Nat} (hwidth : width < 2 ^ 63)
    (hwindow : (d.extract offset (offset + width)).size = width)
    (hlength : length ≤ width) :
    Exact (do
        let front ← part (d.extract offset (offset + width)) 0
          (UInt64.ofNat length)
        return Utf8.decode front.data.toList : Attempt ImageError String).run
      (.ok (Utf8.decode
        (d.extract offset (offset + length)).data.toList)) := by
  have hlast : (UInt64.ofNat length).toNat = length :=
    UInt64.toNat_ofNat_of_lt' (by show _ < 2 ^ 64; omega)
  have hfront : (d.extract offset (offset + width)).extract 0 length
      = d.extract offset (offset + length) := by
    rw [ByteArray.extract_extract, Nat.add_zero, Nat.min_eq_left (by omega)]
  have hpart : UInt64.ofNat length
      ≤ sizeOf (d.extract offset (offset + width)) := by
    rw [UInt64.le_iff_toNat_le, hlast, toNat_sizeOf (by omega), hwindow]
    exact hlength
  refine Exact.lift (Exact.expect ⟨UInt64.zero_le, hpart⟩ _) ?_
  rw [hlast, UInt64.toNat_zero, hfront]
  exact Exact.pure _

/-- **A string is read at every offset and under every ceiling** as it is
without words. -/
theorem exact_stringAt (offset ceiling : UInt64) :
    Exact (stringAt d offset ceiling).run
      (ofRead (DriverAudit.stringAt d offset.toNat ceiling.toNat)) := by
  have hsize := toNat_sizeOf hd
  unfold stringAt DriverAudit.stringAt
  by_cases hpast : d.size ≤ offset.toNat
  · rw [if_pos (UInt64.le_iff_toNat_le.2 (hsize ▸ hpast)), if_pos hpast]
    exact Exact.pure _
  · have hpast' : ¬ sizeOf d ≤ offset := by
      rw [UInt64.le_iff_toNat_le, hsize]
      exact hpast
    rw [if_neg hpast', if_neg hpast]
    -- the window ends at the ceiling or at the end of the data
    have hlast : (min (saturatingPlus offset ceiling) (sizeOf d)).toNat
        = offset.toNat + min ceiling.toNat (d.size - offset.toNat) := by
      rw [toNat_min, toNat_saturatingPlus, hsize]
      omega
    generalize hwidth : min ceiling.toNat (d.size - offset.toNat) = width
      at hlast
    have hin : Inside d offset.toNat width := by
      unfold Inside
      omega
    have hwindow := size_extract hin
    rw [part?_eq_some hd (by omega) (by omega), hlast]
    dsimp only
    rw [zeroWithin_eq_findIdx?, ← toList_extract hin]
    simp only [Nat.zero_add, Option.map_id']
    cases hfind : (d.extract offset.toNat
        (offset.toNat + width)).data.toList.findIdx? (· == 0) with
    | some length =>
      obtain ⟨hlength, -⟩ := List.findIdx?_eq_some_iff_getElem.1 hfind
      have hle : length < width := hwindow ▸ hlength
      exact exact_front (by omega) hwindow (by omega)
    | none =>
      have hsizeOf : sizeOf (d.extract offset.toNat (offset.toNat + width))
          < ceiling ↔ width < ceiling.toNat := by
        rw [UInt64.lt_iff_toNat_lt, toNat_sizeOf (by omega), hwindow]
      simp only [hsizeOf]
      split <;> exact Exact.pure _

end DriverAudit.FixedWidth
