import DriverAudit.Proofs.Bytes.Words

/-!
# Which strings are read

A string is read under a ceiling, by a search for its terminator that the end
of the data cuts short as well. Said without the search: a string is there when
some zero byte stands inside the data and no byte between the offset and that
zero is zero (`TerminatedAt`), and it is read exactly when fewer bytes than
the ceiling precede its terminator (`stringAt_eq_ok_iff`).
-/

namespace DriverAudit

/-- **A zero-terminated string** of `length` bytes, its terminator inside the
data. -/
structure TerminatedAt (d : ByteArray) (offset length : Nat) : Prop where
  inside : offset + length < d.size
  terminator : byteAt d (offset + length) = 0
  nonzero : ∀ i < length, byteAt d (offset + i) ≠ 0

/-- **A string ends at its first terminator**, so it has one length only. -/
theorem TerminatedAt.length_eq {d : ByteArray} {offset m n : Nat}
    (hm : TerminatedAt d offset m) (hn : TerminatedAt d offset n) : m = n := by
  rcases Nat.lt_trichotomy m n with h | h | h
  · exact absurd hm.terminator (hn.nonzero m h)
  · exact h
  · exact absurd hn.terminator (hm.nonzero n h)

/-- The text of the bytes of a range. -/
def textAt (d : ByteArray) (offset length : Nat) : String :=
  Utf8.decode (d.extract offset (offset + length)).data.toList

/-- **The search stops at the first zero** of its window. -/
theorem zeroWithin_eq_some_iff {d : ByteArray} {i seen n m : Nat} :
    zeroWithin d i seen n = some m
      ↔ ∃ k < n, m = seen + k ∧ byteAt d (i + k) = 0
        ∧ ∀ j < k, byteAt d (i + j) ≠ 0 := by
  induction n generalizing i seen with
  | zero => simp [zeroWithin]
  | succ n ih =>
    rw [zeroWithin]
    split
    case isTrue hzero =>
      constructor
      · intro h
        refine ⟨0, by omega, (Option.some.inj h).symm, hzero, ?_⟩
        exact fun j hj => absurd hj (Nat.not_lt_zero j)
      · rintro ⟨k, _, rfl, _, hbefore⟩
        cases k with
        | zero => rfl
        | succ k => exact absurd hzero (hbefore 0 (by omega))
    case isFalse hnonzero =>
      rw [ih]
      constructor
      · rintro ⟨k, hk, rfl, hend, hbefore⟩
        refine ⟨k + 1, by omega, by omega, ?_, fun j hj => ?_⟩
        · rwa [← Nat.add_assoc, Nat.add_right_comm]
        · cases j with
          | zero => exact hnonzero
          | succ j =>
            have := hbefore j (by omega)
            rwa [Nat.add_right_comm] at this
      · rintro ⟨k, hk, rfl, hend, hbefore⟩
        cases k with
        | zero => exact absurd hend hnonzero
        | succ k =>
          refine ⟨k, by omega, by omega, ?_, fun j hj => ?_⟩
          · rwa [Nat.add_right_comm]
          · rw [Nat.add_right_comm]
            exact hbefore (j + 1) (by omega)

/-- **A string is read exactly when it ends below the ceiling**, and then its
text is that of the bytes before its terminator. -/
theorem stringAt_eq_ok_iff {d : ByteArray} {offset ceiling : Nat}
    {text : String} :
    stringAt d offset ceiling = .ok text
      ↔ ∃ length < ceiling, TerminatedAt d offset length
        ∧ textAt d offset length = text := by
  unfold stringAt
  split
  case isTrue hpast =>
    refine iff_of_false (fun h => by cases h) ?_
    rintro ⟨length, _, hterm, _⟩
    have := hterm.inside
    omega
  case isFalse hin =>
    simp only
    cases hfound : zeroWithin d offset 0 (min ceiling (d.size - offset)) with
    | none =>
      refine iff_of_false (fun h => ?_) ?_
      · dsimp only at h
        split at h <;> cases h
      · rintro ⟨length, hlt, hterm, _⟩
        have := hterm.inside
        have hsome := zeroWithin_eq_some_iff.2
          ⟨length, show length < min ceiling (d.size - offset) by omega,
            (Nat.zero_add length).symm, hterm.terminator, hterm.nonzero⟩
        rw [hfound] at hsome
        cases hsome
    | some length =>
      obtain ⟨k, hk, rfl, hend, hbefore⟩ := zeroWithin_eq_some_iff.1 hfound
      rw [Nat.zero_add] at *
      constructor
      · intro h
        exact ⟨k, by omega, ⟨by omega, hend, hbefore⟩, Except.ok.inj h⟩
      · rintro ⟨length, hlt, hterm, rfl⟩
        have heq : length = k :=
          hterm.length_eq ⟨by omega, hend, hbefore⟩
        rw [heq]
        rfl

end DriverAudit
