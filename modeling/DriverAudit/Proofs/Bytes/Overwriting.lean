import DriverAudit.Proofs.Bytes.Pieces

/-!
# Overwriting some of the data

Data in which some bytes have been overwritten keep all the others, and their
size. What values were written does not matter, and neither does whether they
differ from the old ones: `OverwrittenIn` allows any change inside a region and
none outside of it. A piece that lies outside is still there
(`OverwrittenIn.hasAt`).
-/

namespace DriverAudit

variable {d e : ByteArray} {region : Nat → Prop} {offset : Nat}
  {bytes : List UInt8}

/-- **Data with the bytes of a region overwritten**, by any others. -/
structure OverwrittenIn (region : Nat → Prop) (d e : ByteArray) : Prop where
  size_eq : e.size = d.size
  byteAt_eq : ∀ i, ¬ region i → byteAt e i = byteAt d i

/-- The data have a piece if they have its bytes, one by one. -/
theorem HasAt.of_byteAt (hin : Inside d offset bytes.length)
    (h : ∀ i (hi : i < bytes.length), byteAt d (offset + i) = bytes[i]) :
    HasAt d offset bytes := by
  have hbytes : (d.extract offset (offset + bytes.length)).data.toList
      = bytes := by
    rw [toList_extract hin]
    refine List.ext_getElem (by simp) (fun i _ hi => ?_)
    rw [List.getElem_map, List.getElem_range, h i hi]
  rw [ByteArray.data_extract, Array.toList_extract, List.extract_eq_take_drop,
    Nat.add_sub_cancel_left] at hbytes
  exact List.prefix_iff_eq_take.2 hbytes.symm

/-- **A piece outside the region is still there.** -/
theorem OverwrittenIn.hasAt (h : OverwrittenIn region d e)
    (hpiece : HasAt d offset bytes)
    (hapart : ∀ i < bytes.length, ¬ region (offset + i)) :
    HasAt e offset bytes := by
  rcases Nat.eq_zero_or_pos bytes.length with hzero | hpos
  · rw [List.length_eq_zero_iff.1 hzero]
    exact List.nil_prefix
  · refine HasAt.of_byteAt ?_ (fun i hi => ?_)
    · have hin := hpiece.inside hpos
      unfold Inside at hin ⊢
      rwa [h.size_eq]
    · rw [h.byteAt_eq _ (hapart i hi)]
      exact hpiece.byteAt_eq hi

/-- Write one byte over another one. -/
def overwrite (d : ByteArray) (i : Nat) (value : UInt8) : ByteArray :=
  ⟨(d.data.toList.set i value).toArray⟩

/-- **Writing one byte overwrites that byte only.** -/
theorem overwrittenIn_overwrite {i : Nat} (hi : region i) (d : ByteArray)
    (value : UInt8) : OverwrittenIn region d (overwrite d i value) := by
  refine ⟨List.length_set, fun j hj => ?_⟩
  have hne : i ≠ j := fun heq => hj (heq ▸ hi)
  rw [byteAt_eq_toList, byteAt_eq_toList]
  show (d.data.toList.set i value)[j]?.getD 0 = _
  rw [List.getElem?_set_ne hne]

end DriverAudit
