import DriverAudit.Imports.Walk
import DriverAudit.Proofs.Bytes.Strings
import Mathlib.Data.Nat.Bitwise

/-!
# Which thunks are imports by name

A thunk is resolved in steps, each of which may fail: its flag, its width, its
address, its hint and its name. `resolve_eq_byName_iff` puts them into one
condition on the file, in which the flag is the highest bit of the thunk.
-/

namespace DriverAudit

/-- The word of a thunk, as a number. -/
def thunkValue (d : ByteArray) (a : Architecture) (offset : Nat) : Nat :=
  wordAt d offset a.thunkWidth

/-- **A thunk with the flag of an import by number**: its highest bit is
set. -/
def Architecture.IsFlagged (a : Architecture) (thunk : Nat) : Prop :=
  thunk.testBit (8 * a.thunkWidth - 1) = true

instance (a : Architecture) (thunk : Nat) : Decidable (a.IsFlagged thunk) :=
  inferInstanceAs (Decidable (_ = true))

theorem Architecture.toNat_ordinalFlag (a : Architecture) :
    a.ordinalFlag.toNat = 2 ^ (8 * a.thunkWidth - 1) := by
  cases a <;> rfl

/-- Masking with the flag tests the highest bit. -/
theorem Architecture.and_ordinalFlag_ne_zero_iff (a : Architecture)
    (thunk : UInt64) :
    thunk &&& a.ordinalFlag ≠ 0 ↔ a.IsFlagged thunk.toNat := by
  have hzero : thunk &&& a.ordinalFlag = 0
      ↔ (thunk.toNat.testBit (8 * a.thunkWidth - 1)).toNat
          * 2 ^ (8 * a.thunkWidth - 1) = 0 := by
    rw [← UInt64.toNat_inj, UInt64.toNat_and, a.toNat_ordinalFlag,
      Nat.and_two_pow, UInt64.toNat_zero]
  unfold IsFlagged
  rw [ne_eq, hzero, Nat.mul_eq_zero]
  cases thunk.toNat.testBit (8 * a.thunkWidth - 1) <;> simp

namespace ImportSource

variable {s : ImportSource}

/-- A thunk keeps its value when it is widened. -/
theorem toNat_thunkAt (s : ImportSource) (offset : Nat) :
    (s.thunkAt offset).toNat = thunkValue s.data s.architecture offset := by
  have hlt : thunkValue s.data s.architecture offset < 2 ^ 64 := by
    refine Nat.lt_of_lt_of_le (wordAt_lt _ _ _) ?_
    cases s.architecture <;> decide
  exact Nat.mod_eq_of_lt hlt

/-- The import that is found at a thunk is the one that it resolves to. -/
theorem found?_resolutionAt_eq_some_iff {offset : Nat} {e : ImportEntry} :
    (s.resolutionAt offset).found? = some e
      ↔ s.resolve (s.thunkAt offset) = .ok e := by
  show (s.resolve (s.thunkAt offset)).toOption = some e ↔ _
  cases s.resolve (s.thunkAt offset) with
  | error _ => exact iff_of_false (fun h => by cases h) (fun h => by cases h)
  | ok found =>
    show some found = some e ↔ _
    rw [Option.some.injEq, Except.ok.injEq]

/-- **A hint and a name at an address**: both are inside the file, and the name
ends below its ceiling. -/
def NameEntry (s : ImportSource) (address : UInt32) (hint : UInt16)
    (name : String) : Prop :=
  ∃ offset, s.sections.fileOffset address = .ok offset
    ∧ Inside s.data offset 2 ∧ UInt16.ofNat (wordAt s.data offset 2) = hint
    ∧ ∃ length < s.limits.nameLength,
      TerminatedAt s.data (offset + 2) length
      ∧ textAt s.data (offset + 2) length = name

/-- Following an address to a hint and a name. -/
theorem readNameEntry_eq_ok_iff {address : UInt32} {hint : UInt16}
    {name : String} :
    (do
      let offset ← s.sections.fileOffset address
      let hint ← ofRead (u16At s.data offset)
      let name ← ofRead (stringAt s.data (offset + 2) s.limits.nameLength)
      return .byName hint name : Except ImageError ImportEntry)
        = .ok (.byName hint name)
      ↔ s.NameEntry address hint name := by
  unfold NameEntry
  cases s.sections.fileOffset address with
  | error e => exact iff_of_false (fun h => by cases h) (by simp)
  | ok offset =>
    simp only [Except.ok.injEq, exists_eq_left']
    rw [← and_assoc, ← checked_eq_ok_iff, ← stringAt_eq_ok_iff]
    show (ofRead (u16At s.data offset) >>= _) = _ ↔ u16At s.data offset = _ ∧ _
    cases u16At s.data offset with
    | error e => exact iff_of_false (fun h => by cases h) (by simp)
    | ok found =>
      show (ofRead (stringAt ..) >>= _) = _ ↔ _
      cases stringAt s.data (offset + 2) s.limits.nameLength with
      | error e => exact iff_of_false (fun h => by cases h) (by simp)
      | ok text =>
        show (Except.ok (ImportEntry.byName found text) : Except ImageError _)
          = _ ↔ _
        simp

/-- **A thunk is an import by name** when its highest bit is clear and it is
the address of a hint and a name. -/
theorem resolve_eq_byName_iff {thunk : UInt64} {hint : UInt16}
    {name : String} :
    s.resolve thunk = .ok (.byName hint name)
      ↔ ¬ s.architecture.IsFlagged thunk.toNat ∧ thunk.toNat < 2 ^ 32
        ∧ s.NameEntry thunk.toUInt32 hint name := by
  unfold resolve
  rw [← s.architecture.and_ordinalFlag_ne_zero_iff]
  split
  case isTrue hflag =>
    refine iff_of_false (fun h => ?_) (fun h => h.1 hflag)
    cases h
  case isFalse hflag =>
    split
    case isTrue hsmall =>
      rw [readNameEntry_eq_ok_iff]
      exact ⟨fun h => ⟨hflag, hsmall, h⟩, fun h => h.2.2⟩
    case isFalse hlarge =>
      refine iff_of_false (fun h => ?_) (fun h => hlarge h.2.1)
      cases h

/-- **A thunk with its highest bit set is an import by number.** -/
theorem resolve_of_isFlagged {thunk : UInt64}
    (h : s.architecture.IsFlagged thunk.toNat) :
    s.resolve thunk = .ok (.byOrdinal thunk.toUInt16) := by
  unfold resolve
  rw [if_pos (s.architecture.and_ordinalFlag_ne_zero_iff thunk |>.2 h)]

/-- The import of a thunk with its highest bit set is its low bits. -/
theorem found?_resolutionAt_of_isFlagged {offset : Nat}
    (h : s.architecture.IsFlagged (s.thunkAt offset).toNat) :
    (s.resolutionAt offset).found?
      = some (.byOrdinal (s.thunkAt offset).toUInt16) := by
  show (s.resolve (s.thunkAt offset)).toOption = _
  rw [resolve_of_isFlagged h]
  rfl

/-- A thunk that is the address of a hint is an import by name if there is a
name behind the hint. -/
theorem found?_resolutionAt_of_mapped {offset place : Nat} {hint : UInt16}
    (hflag : ¬ s.architecture.IsFlagged (s.thunkAt offset).toNat)
    (hsmall : (s.thunkAt offset).toNat < 2 ^ 32)
    (hmapped : s.sections.fileOffset (s.thunkAt offset).toUInt32 = .ok place)
    (hhint : u16At s.data place = .ok hint) :
    (s.resolutionAt offset).found?
      = (stringAt s.data (place + 2) s.limits.nameLength).toOption.map
          (.byName hint) := by
  show (s.resolve (s.thunkAt offset)).toOption = _
  unfold resolve
  rw [if_neg (mt (s.architecture.and_ordinalFlag_ne_zero_iff _).1 hflag),
    if_pos (show _ < UInt32.size from hsmall), hmapped]
  show Except.toOption (ofRead (u16At s.data place) >>= _) = _
  rw [hhint]
  show Except.toOption (ofRead (stringAt ..) >>= _) = _
  cases stringAt s.data (place + 2) s.limits.nameLength <;> rfl

/-- A thunk with its highest bit clear that is no address of the file is
passed over. -/
theorem found?_resolutionAt_of_unmapped {offset : Nat}
    (hflag : ¬ s.architecture.IsFlagged (s.thunkAt offset).toNat)
    (hmapped : (s.thunkAt offset).toNat < 2 ^ 32 →
      ∃ e, s.sections.fileOffset (s.thunkAt offset).toUInt32 = .error e) :
    (s.resolutionAt offset).found? = none := by
  show (s.resolve (s.thunkAt offset)).toOption = none
  unfold resolve
  rw [if_neg (mt (s.architecture.and_ordinalFlag_ne_zero_iff _).1 hflag)]
  split
  case isTrue hsmall =>
    obtain ⟨e, he⟩ := hmapped hsmall
    rw [he]
    rfl
  case isFalse => rfl

end ImportSource

end DriverAudit
