import DriverAudit.Proofs.Bytes.Beginnings
import DriverAudit.Proofs.Bytes.Strings

/-!
# Answers that last

Data that go on behind their end keep every byte at its place. A read that has
answered therefore keeps its answer: all that it looked at is still there. A
read that has failed may well succeed, since the end of the data is no longer
in its way.

`Lasts` says the first of these two of a whole computation, and it passes from
the parts of a computation to the whole – provided that the computation hands
on the errors of its parts. One that goes on past an error, as does the walk
of an import table, has to be looked at by itself.
-/

namespace DriverAudit

variable {c d : ByteArray} {offset : Nat}

/-- **Data begin whatever they go on to be.** -/
theorem begins_append (d e : ByteArray) : Begins d (d ++ e) := by
  refine ⟨?_, fun i hi => ?_⟩
  · rw [ByteArray.size_append]
    exact Nat.le_add_right _ _
  · rw [byteAt_eq_toList, byteAt_eq_toList, ByteArray.toList_data_append,
      List.getElem?_append_left hi]

/-- A range inside some data stays inside. -/
theorem Begins.inside (hc : Begins c d) {width : Nat}
    (h : Inside c offset width) : Inside d offset width :=
  Nat.le_trans h hc.size_le

/-- A terminated string keeps its terminator, and its length. -/
theorem TerminatedAt.of_begins (hc : Begins c d) {length : Nat}
    (h : TerminatedAt c offset length) : TerminatedAt d offset length := by
  have hinside := h.inside
  refine ⟨Nat.lt_of_lt_of_le hinside hc.size_le, ?_, fun i hi => ?_⟩
  · rw [← hc.byteAt_eq _ hinside]
    exact h.terminator
  · rw [← hc.byteAt_eq _ (by omega)]
    exact h.nonzero i hi

/-- A terminated string keeps its text. -/
theorem TerminatedAt.textAt_eq (hc : Begins c d) {length : Nat}
    (h : TerminatedAt c offset length) :
    textAt c offset length = textAt d offset length := by
  unfold textAt
  rw [hc.extract_eq (Nat.le_of_lt h.inside)]

/-- **A computation whose answer lasts**: what it answers from some data, it
answers from all data that they begin. -/
def Lasts {ε α : Type} (read : ByteArray → Except ε α) : Prop :=
  ∀ ⦃c d : ByteArray⦄, Begins c d →
    ∀ ⦃value : α⦄, read c = .ok value → read d = .ok value

namespace Lasts

variable {ε α β : Type}

/-- What does not look at the data lasts. -/
theorem const (answer : Except ε α) : Lasts fun _ => answer :=
  fun _ _ _ _ h => h

/-- **One lasting computation after the other lasts.** -/
theorem bind {read : ByteArray → Except ε α}
    {next : ByteArray → α → Except ε β} (hread : Lasts read)
    (hnext : ∀ a, Lasts fun d => next d a) :
    Lasts fun d => read d >>= next d := by
  intro c d hc value h
  obtain ⟨a, ha, hb⟩ := bind_eq_ok_iff.1 h
  exact bind_eq_ok_iff.2 ⟨a, hread hc ha, hnext a hc hb⟩

/-- A choice that does not depend on the data lasts if both sides do. -/
theorem choice {p : Prop} {inst : ByteArray → Decidable p}
    {yes no : ByteArray → Except ε α} (hyes : Lasts yes) (hno : Lasts no) :
    Lasts fun d => @ite _ p (inst d) (yes d) (no d) := by
  by_cases hp : p
  · simp only [if_pos hp]
    exact hyes
  · simp only [if_neg hp]
    exact hno

theorem ofRead {read : ByteArray → Except ReadFault α} (hread : Lasts read) :
    Lasts fun d => DriverAudit.ofRead (read d) := by
  intro c d hc value h
  dsimp only at h ⊢
  cases hvalue : read c with
  | error fault =>
    rw [hvalue] at h
    cases h
  | ok found =>
    rw [hvalue] at h
    rw [hread hc hvalue]
    exact h

/-- **A checked read lasts**, if its value depends on the bytes of its range
alone. -/
theorem checked {value : ByteArray → α} {offset width : Nat}
    (hvalue : ∀ c d, Begins c d → Inside c offset width →
      value c = value d) :
    Lasts fun d => DriverAudit.checked d offset width (value d) := by
  intro c d hc found h
  obtain ⟨hin, rfl⟩ := checked_eq_ok_iff.1 h
  exact checked_eq_ok_iff.2 ⟨hc.inside hin, (hvalue c d hc hin).symm⟩

theorem u16At (offset : Nat) : Lasts fun d => DriverAudit.u16At d offset :=
  checked (fun _ _ hc hin => congrArg UInt16.ofNat (hc.wordAt_eq hin))

theorem u32At (offset : Nat) : Lasts fun d => DriverAudit.u32At d offset :=
  checked (fun _ _ hc hin => congrArg UInt32.ofNat (hc.wordAt_eq hin))

theorem u64At (offset : Nat) : Lasts fun d => DriverAudit.u64At d offset :=
  checked (fun _ _ hc hin => congrArg UInt64.ofNat (hc.wordAt_eq hin))

theorem bytesAt (offset width : Nat) :
    Lasts fun d => DriverAudit.bytesAt d offset width :=
  checked (fun _ _ hc hin => hc.extract_eq hin)

/-- **A string that was read lasts**: its terminator is still the first zero. -/
theorem stringAt (offset ceiling : Nat) :
    Lasts fun d => DriverAudit.stringAt d offset ceiling := by
  intro c d hc text h
  obtain ⟨length, hlt, hterm, htext⟩ := stringAt_eq_ok_iff.1 h
  refine stringAt_eq_ok_iff.2 ⟨length, hlt, hterm.of_begins hc, ?_⟩
  rw [← hterm.textAt_eq hc]
  exact htext

end Lasts

end DriverAudit
