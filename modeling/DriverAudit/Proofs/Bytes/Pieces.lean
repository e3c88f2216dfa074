import DriverAudit.Proofs.Bytes.Strings
import DriverAudit.Proofs.Text.Lossless
import Mathlib.Data.List.TakeWhile

/-!
# Data that were put together from pieces

Data that are written piece by piece have each piece at the place where the
pieces before it end. `HasAt` says that a piece is there, and
`HasAt.append_iff` takes pieces apart: this is all that is needed to find a
piece from the lengths of the others.

A read at the place of a piece then answers with what was written: a word with
its value, a terminated text with the text.
-/

namespace DriverAudit

/-! ## What can be read of a text

A text is written with a terminator behind it. If it has a zero character
itself, a reader takes that one for the end. -/

/-- **The bytes of a text in front of its first zero byte.** -/
def frontBytes (text : String) : List UInt8 :=
  text.toUTF8.data.toList.takeWhile (· ≠ 0)

theorem ne_zero_of_mem_frontBytes {text : String} {b : UInt8}
    (h : b ∈ frontBytes text) : b ≠ 0 := by
  have hb := List.mem_takeWhile_imp h
  exact of_decide_eq_true hb

/-- **What is read of a terminated text** under a ceiling. -/
def textBelow (ceiling : Nat) (text : String) : Option String :=
  if (frontBytes text).length < ceiling then
    some (Utf8.decode (frontBytes text))
  else none

/-- A text without a zero character is its own front, and all of it is read
when it is short enough. -/
theorem textBelow_eq_some {ceiling : Nat} {text : String}
    (hzero : '\x00' ∉ text.toList) (hceiling : text.utf8ByteSize < ceiling) :
    textBelow ceiling text = some text := by
  have hfront : frontBytes text = text.toUTF8.data.toList := by
    refine List.takeWhile_eq_self_iff.2 (fun b hb => decide_eq_true ?_)
    rintro rfl
    exact Utf8.zero_not_mem_toUTF8 hzero hb
  have hlength : (frontBytes text).length = text.utf8ByteSize := by
    rw [hfront]
    rfl
  rw [textBelow, if_pos (hlength ▸ hceiling), hfront, Utf8.decode_toUTF8]

/-! ## Pieces -/

/-- **The data have some bytes at an offset.** -/
def HasAt (d : ByteArray) (offset : Nat) (bytes : List UInt8) : Prop :=
  bytes <+: d.data.toList.drop offset

variable {d : ByteArray} {offset : Nat} {bytes : List UInt8}

namespace HasAt

/-- Data have all their bytes at their start. -/
theorem self (d : ByteArray) : HasAt d 0 d.data.toList :=
  List.prefix_rfl

/-- **One piece follows the other.** -/
theorem append_iff {front back : List UInt8} :
    HasAt d offset (front ++ back)
      ↔ HasAt d offset front ∧ HasAt d (offset + front.length) back := by
  unfold HasAt
  rw [← List.drop_drop]
  constructor
  · rintro ⟨rest, hrest⟩
    rw [← hrest, List.append_assoc]
    refine ⟨List.prefix_append _ _, ?_⟩
    rw [List.drop_left]
    exact List.prefix_append _ _
  · rintro ⟨⟨behind, hbehind⟩, hback⟩
    rw [← hbehind, List.drop_left] at hback
    rw [← hbehind]
    exact (List.prefix_append_right_inj front).2 hback

theorem cons_iff {b : UInt8} :
    HasAt d offset (b :: bytes)
      ↔ HasAt d offset [b] ∧ HasAt d (offset + 1) bytes := by
  show HasAt d offset ([b] ++ bytes) ↔ _
  exact append_iff

/-- The bytes of a piece are those of the data. -/
theorem byteAt_eq (h : HasAt d offset bytes) {i : Nat}
    (hi : i < bytes.length) : byteAt d (offset + i) = bytes[i] := by
  obtain ⟨rest, hrest⟩ := h
  rw [byteAt_eq_toList, ← List.getElem?_drop, ← hrest,
    List.getElem?_append_left hi, List.getElem?_eq_getElem hi]
  rfl

/-- A piece that has bytes is inside the data. -/
theorem inside (h : HasAt d offset bytes) (hpos : 0 < bytes.length) :
    Inside d offset bytes.length := by
  have hle : bytes.length ≤ d.size - offset :=
    Nat.le_trans h.length_le (Nat.le_of_eq List.length_drop)
  unfold Inside
  omega

/-- The bytes of the range of a piece are the piece. -/
theorem extract_eq (h : HasAt d offset bytes) :
    (d.extract offset (offset + bytes.length)).data.toList = bytes := by
  rw [ByteArray.data_extract, Array.toList_extract, List.extract_eq_take_drop,
    Nat.add_sub_cancel_left]
  exact (List.prefix_iff_eq_take.1 h).symm

theorem bytesAt_eq (h : HasAt d offset bytes) (hpos : 0 < bytes.length) :
    bytesAt d offset bytes.length = .ok bytes := by
  unfold bytesAt
  rw [if_pos (covers_iff.2 (h.inside hpos)), h.extract_eq]

/-- A run of zero bytes consists of zero bytes. -/
theorem byteAt_of_replicate {n : Nat}
    (h : HasAt d offset (List.replicate n 0)) {i : Nat} (hi : i < n) :
    byteAt d (offset + i) = 0 := by
  have hlt : i < (List.replicate n (0 : UInt8)).length := by
    rwa [List.length_replicate]
  rw [h.byteAt_eq hlt, List.getElem_replicate]

/-! ## Words -/

/-- **A word that was written is read back**, up to its width. -/
theorem wordAt_eq {n v : Nat} (h : HasAt d offset (wordBytes n v)) :
    wordAt d offset n = v % 256 ^ n := by
  -- one byte at a time: the low byte is `v % 256`, the rest is that of `v / 256`
  induction n generalizing offset v with
  | zero => rw [wordAt, Nat.pow_zero, Nat.mod_one]
  | succ n ih =>
    obtain ⟨hfirst, hrest⟩ := cons_iff.1 h
    have hbyte : byteAt d offset = UInt8.ofNat v :=
      hfirst.byteAt_eq (i := 0) (Nat.zero_lt_one)
    rw [wordAt, hbyte, ih hrest, Nat.pow_succ', Nat.mod_mul]
    rfl

/-- A word of at least one byte is inside the data. -/
theorem inside_word {n v : Nat} (h : HasAt d offset (wordBytes n v))
    (hn : 0 < n) : Inside d offset n := by
  have hin := h.inside (by rwa [length_wordBytes])
  rwa [length_wordBytes] at hin

theorem u16At_eq {v : Nat} (h : HasAt d offset (wordBytes 2 v)) :
    u16At d offset = .ok (UInt16.ofNat v) := by
  refine checked_eq_ok_iff.2 ⟨h.inside_word (by decide), ?_⟩
  rw [h.wordAt_eq, ← UInt16.toNat_inj, UInt16.toNat_ofNat', UInt16.toNat_ofNat']
  exact Nat.mod_mod v _

theorem ofNat_wordAt_eq {v : Nat} (h : HasAt d offset (wordBytes 4 v)) :
    UInt32.ofNat (wordAt d offset 4) = UInt32.ofNat v := by
  rw [h.wordAt_eq, ← UInt32.toNat_inj, UInt32.toNat_ofNat', UInt32.toNat_ofNat']
  exact Nat.mod_mod v _

theorem u32At_eq {v : Nat} (h : HasAt d offset (wordBytes 4 v)) :
    u32At d offset = .ok (UInt32.ofNat v) :=
  checked_eq_ok_iff.2 ⟨h.inside_word (by decide), h.ofNat_wordAt_eq⟩

theorem u64At_eq {v : Nat} (h : HasAt d offset (wordBytes 8 v)) :
    u64At d offset = .ok (UInt64.ofNat v) := by
  refine checked_eq_ok_iff.2 ⟨h.inside_word (by decide), ?_⟩
  rw [h.wordAt_eq, ← UInt64.toNat_inj, UInt64.toNat_ofNat', UInt64.toNat_ofNat']
  exact Nat.mod_mod v _

/-- A word inside a run of zero bytes is zero. -/
theorem u32At_of_replicate {n i : Nat}
    (h : HasAt d offset (List.replicate n 0)) (hi : i + 4 ≤ n) :
    u32At d (offset + i) = .ok 0 := by
  have hin : Inside d offset n := by
    have := h.inside (by rw [List.length_replicate]; omega)
    rwa [List.length_replicate] at this
  have hword : wordAt d (offset + i) 4 = 0 := by
    refine wordAt_eq_zero_iff.2 (fun j hj => ?_)
    rw [Nat.add_assoc]
    exact h.byteAt_of_replicate (by omega)
  refine checked_eq_ok_iff.2 ⟨?_, ?_⟩
  · unfold Inside at hin ⊢
    omega
  · rw [hword]
    rfl

/-! ## Texts -/

/-- A terminated text has a zero byte behind its front. -/
theorem exists_frontBytes_append (text : String) :
    ∃ behind, text.toUTF8.data.toList ++ [0]
      = frontBytes text ++ 0 :: behind := by
  unfold frontBytes
  induction text.toUTF8.data.toList with
  | nil => exact ⟨[], rfl⟩
  | cons b rest ih =>
    by_cases hzero : b = 0
    · exact ⟨rest ++ [0], by simp [hzero]⟩
    · obtain ⟨behind, hbehind⟩ := ih
      exact ⟨behind, by simp [hzero, hbehind]⟩

/-- **A terminated text that was written ends behind its front.** -/
theorem terminatedAt {text : String}
    (h : HasAt d offset (text.toUTF8.data.toList ++ [0])) :
    TerminatedAt d offset (frontBytes text).length
      ∧ textAt d offset (frontBytes text).length
        = Utf8.decode (frontBytes text) := by
  obtain ⟨behind, hbehind⟩ := exists_frontBytes_append text
  rw [hbehind, append_iff, cons_iff] at h
  obtain ⟨hfront, hend, _⟩ := h
  refine ⟨⟨?_, hend.byteAt_eq (i := 0) Nat.zero_lt_one, fun i hi => ?_⟩, ?_⟩
  · exact hend.inside Nat.zero_lt_one
  · rw [hfront.byteAt_eq hi]
    exact ne_zero_of_mem_frontBytes (List.getElem_mem hi)
  · unfold textAt
    rw [hfront.extract_eq]

/-- **A terminated text that was written is read up to its front**, if that
ends below the ceiling. -/
theorem toOption_stringAt {text : String}
    (h : HasAt d offset (text.toUTF8.data.toList ++ [0])) (ceiling : Nat) :
    (stringAt d offset ceiling).toOption = textBelow ceiling text := by
  obtain ⟨hterm, htext⟩ := h.terminatedAt
  unfold textBelow
  split
  case isTrue hlt =>
    rw [stringAt_eq_ok_iff.2 ⟨_, hlt, hterm, htext⟩]
    rfl
  case isFalse hge =>
    cases hread : stringAt d offset ceiling with
    | error e => rfl
    | ok found =>
      -- what was read ends at the first zero byte, which is too far
      obtain ⟨length, hlt, hfound, _⟩ := stringAt_eq_ok_iff.1 hread
      rw [hfound.length_eq hterm] at hlt
      exact absurd hlt hge

/-! ## Pieces of one width -/

section Width

variable {α : Type} {l : List α} {piece : α → List UInt8} {width : Nat}

theorem length_flatMap (hwidth : ∀ x ∈ l, (piece x).length = width) :
    (l.flatMap piece).length = l.length * width := by
  rw [List.length_flatMap, List.map_congr_left hwidth, List.map_const',
    List.sum_replicate_nat]

/-- **The pieces of a run of pieces of one width** stand at the multiples of
the width. -/
theorem getElem_flatMap (hwidth : ∀ x ∈ l, (piece x).length = width)
    (h : HasAt d offset (l.flatMap piece)) {i : Nat} (hi : i < l.length) :
    HasAt d (offset + i * width) (piece l[i]) := by
  induction l generalizing offset i with
  | nil => exact absurd hi (Nat.not_lt_zero i)
  | cons x l ih =>
    rw [List.flatMap_cons, append_iff, hwidth x List.mem_cons_self] at h
    cases i with
    | zero =>
      rw [Nat.zero_mul]
      exact h.1
    | succ i =>
      have hrest := ih (fun y hy => hwidth y (List.mem_cons_of_mem x hy)) h.2
        (Nat.lt_of_succ_lt_succ hi)
      rw [Nat.succ_mul, Nat.add_comm (i * width), ← Nat.add_assoc]
      exact hrest

end Width

end HasAt

end DriverAudit
