import DriverAudit.Bytes.Read
import Mathlib.Algebra.Ring.Nat

/-!
# What a word says about its bytes

Reading is total, so a word is a function of the bytes at its place and of
nothing else: it is zero when they all are, and it is the same in two byte
sequences that agree there. Whether the bytes are inside the data is a
question of its own, and `Inside` asks it.
-/

namespace DriverAudit

/-- **A range inside the data.** -/
def Inside (d : ByteArray) (offset width : Nat) : Prop :=
  offset + width ≤ d.size

instance (d : ByteArray) (offset width : Nat) :
    Decidable (Inside d offset width) :=
  inferInstanceAs (Decidable (_ ≤ _))

@[simp]
theorem covers_iff {d : ByteArray} {offset width : Nat} :
    covers d offset width = true ↔ Inside d offset width := by
  unfold covers Inside
  exact decide_eq_true_iff

/-- The bytes of some data, zero where it has none. -/
theorem byteAt_eq_toList (d : ByteArray) (i : Nat) :
    byteAt d i = d.data.toList[i]?.getD 0 := by
  unfold byteAt
  rw [Array.getElem?_toList]
  by_cases h : i < d.size
  · rw [getElem?_pos d i h, getElem?_pos d.data i h]
    rfl
  · rw [getElem?_neg d i h, getElem?_neg d.data i h]

/-- **The bytes of a range**, one by one. -/
theorem toList_extract {d : ByteArray} {offset width : Nat}
    (h : Inside d offset width) :
    (d.extract offset (offset + width)).data.toList
      = (List.range width).map fun i => byteAt d (offset + i) := by
  have hlen : offset + width ≤ d.data.toList.length := h
  rw [ByteArray.data_extract, Array.toList_extract, List.extract_eq_take_drop,
    Nat.add_sub_cancel_left]
  refine List.ext_getElem ?_ (fun i hi _ => ?_)
  · rw [List.length_take, List.length_drop, List.length_map, List.length_range]
    omega
  have hlt : offset + i < d.data.toList.length := by
    rw [List.length_take] at hi
    omega
  rw [List.getElem_take, List.getElem_drop, List.getElem_map,
    List.getElem_range, byteAt_eq_toList, List.getElem?_eq_getElem hlt]
  rfl

/-- Words of `n` bytes stay below `256 ^ n`. -/
theorem wordAt_lt (d : ByteArray) (i n : Nat) : wordAt d i n < 256 ^ n := by
  induction n generalizing i with
  | zero => simp [wordAt]
  | succ n ih =>
    have hb : (byteAt d i).toNat < 256 := (byteAt d i).toNat_lt
    have hr := ih (i + 1)
    simp only [wordAt, Nat.pow_succ]
    omega

/-- **A word is zero when all its bytes are.** -/
theorem wordAt_eq_zero_iff {d : ByteArray} {i n : Nat} :
    wordAt d i n = 0 ↔ ∀ j < n, byteAt d (i + j) = 0 := by
  induction n generalizing i with
  | zero => simp [wordAt]
  | succ n ih =>
    have hsplit : wordAt d i (n + 1) = 0
        ↔ byteAt d i = 0 ∧ wordAt d (i + 1) n = 0 := by
      rw [wordAt, ← UInt8.toNat_inj, UInt8.toNat_zero]
      omega
    rw [hsplit, ih]
    constructor
    · rintro ⟨hfirst, hrest⟩ j hj
      cases j with
      | zero => exact hfirst
      | succ j =>
        have := hrest j (by omega)
        rwa [Nat.add_right_comm] at this
    · intro h
      refine ⟨h 0 (by omega), fun j hj => ?_⟩
      rw [Nat.add_right_comm]
      exact h (j + 1) (by omega)

/-- **A word depends on its own bytes only.** -/
theorem wordAt_congr {c d : ByteArray} {i n : Nat}
    (h : ∀ j < n, byteAt c (i + j) = byteAt d (i + j)) :
    wordAt c i n = wordAt d i n := by
  induction n generalizing i with
  | zero => rfl
  | succ n ih =>
    have hfirst : byteAt c i = byteAt d i := h 0 (by omega)
    have hrest : wordAt c (i + 1) n = wordAt d (i + 1) n := by
      refine ih (fun j hj => ?_)
      have := h (j + 1) (by omega)
      rwa [← Nat.add_assoc, Nat.add_right_comm] at this
    rw [wordAt, wordAt, hfirst, hrest]

/-- A read answers when, and only when, its range is inside the data. -/
theorem checked_eq_ok_iff {α : Type} {d : ByteArray} {offset width : Nat}
    {value result : α} :
    checked d offset width value = .ok result
      ↔ Inside d offset width ∧ value = result := by
  unfold checked
  split
  case isTrue h => simp [covers_iff.1 h]
  case isFalse h =>
    refine iff_of_false (fun heq => ?_) (fun hin => h (covers_iff.2 hin.1))
    cases heq

/-- A read whose range is not inside the data says so. -/
theorem checked_of_not_inside {α : Type} {d : ByteArray}
    {offset width : Nat} (value : α) (h : ¬ Inside d offset width) :
    checked d offset width value
      = .error (.outOfBounds offset width d.size) := by
  unfold checked
  rw [if_neg (fun hc => h (covers_iff.1 hc))]

/-- What one step of a computation answered, and what the rest did. -/
theorem bind_eq_ok_iff {ε α β : Type} {x : Except ε α} {f : α → Except ε β}
    {b : β} : (x >>= f) = .ok b ↔ ∃ a, x = .ok a ∧ f a = .ok b := by
  cases x with
  | error e =>
    refine iff_of_false (fun h => ?_) (fun ⟨_, h, _⟩ => ?_)
    · cases h
    · cases h
  | ok a =>
    show f a = .ok b ↔ _
    simp

end DriverAudit
