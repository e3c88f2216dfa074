import DriverAudit.Proofs.Bytes.Lasting
import DriverAudit.Proofs.Bytes.Overwriting
import DriverAudit.Proofs.FixedWidth.Reads

/-!
# Every answer to the question for a string

A string is looked for in a window that ends at the ceiling or at the end of
the data, whichever comes first. So there are three ways not to find one. The
place may be behind the data; all the bytes up to the ceiling may be there and
none of them zero (`OverlongAt`); or the data may end before the ceiling and
before a zero (`CutOffAt`). Together with the strings that end in time these
are all the cases (`stringAt_cases`), and no two of them meet, so that each
answer can be told from the bytes alone.

A ceiling of zero is no exception. It leaves nothing to look at, and inside the
data that is a string too long.

What was found depends on the bytes up to the terminator and on nothing else: a
higher ceiling, more data at the end and other bytes behind the terminator all
leave it alone.
-/

namespace DriverAudit

variable {d e : ByteArray} {offset ceiling : Nat}

/-! ## Searches without success -/

/-- **A range without a zero byte.** Past the end of the data there are zeros,
so it is inside the data. -/
def ZeroFree (d : ByteArray) (offset width : Nat) : Prop :=
  ∀ i < width, byteAt d (offset + i) ≠ 0

/-- **The search fails** when its window has no zero. -/
theorem zeroWithin_eq_none_iff {i seen n : Nat} :
    zeroWithin d i seen n = none ↔ ZeroFree d i n := by
  induction n generalizing i seen with
  | zero => exact iff_of_true rfl fun j hj => absurd hj (Nat.not_lt_zero j)
  | succ n ih =>
    rw [zeroWithin]
    split
    case isTrue hzero =>
      refine iff_of_false (fun h => by cases h) (fun h => ?_)
      exact h 0 (Nat.succ_pos n) hzero
    case isFalse hnonzero =>
      rw [ih]
      constructor
      · intro h j hj
        cases j with
        | zero => exact hnonzero
        | succ j =>
          have hbyte := h j (by omega)
          rwa [Nat.add_right_comm] at hbyte
      · intro h j hj
        rw [Nat.add_right_comm]
        exact h (j + 1) (by omega)

/-- **A string that does not end in time**, although the data go on. -/
structure OverlongAt (d : ByteArray) (offset ceiling : Nat) : Prop where
  start_lt : offset < d.size
  inside : Inside d offset ceiling
  zeroFree : ZeroFree d offset ceiling

/-- **A string that the end of the data cuts off** before the ceiling. -/
structure CutOffAt (d : ByteArray) (offset ceiling : Nat) : Prop where
  start_lt : offset < d.size
  size_lt : d.size < offset + ceiling
  zeroFree : ZeroFree d offset (d.size - offset)

/-- Behind the data no byte can be read. -/
theorem stringAt_of_size_le (h : d.size ≤ offset) :
    stringAt d offset ceiling = .error (.outOfBounds offset 1 d.size) :=
  if_pos h

theorem OverlongAt.stringAt_eq (h : OverlongAt d offset ceiling) :
    stringAt d offset ceiling = .error (.unterminated offset ceiling) := by
  have hstart := h.start_lt
  have hinside := h.inside
  unfold Inside at hinside
  have hwindow : min ceiling (d.size - offset) = ceiling := by omega
  unfold stringAt
  rw [if_neg (by omega), hwindow]
  dsimp only
  rw [zeroWithin_eq_none_iff.2 h.zeroFree]
  exact if_neg (Nat.lt_irrefl _)

theorem CutOffAt.stringAt_eq (h : CutOffAt d offset ceiling) :
    stringAt d offset ceiling
      = .error (.outOfBounds offset ceiling d.size) := by
  have hstart := h.start_lt
  have hsize := h.size_lt
  have hwindow : min ceiling (d.size - offset) = d.size - offset := by omega
  unfold stringAt
  rw [if_neg (by omega), hwindow]
  dsimp only
  rw [zeroWithin_eq_none_iff.2 h.zeroFree]
  exact if_pos (by omega)

/-! ## All answers -/

/-- A string ends in time, or the window has no zero. -/
theorem exists_terminatedAt_or_zeroFree (d : ByteArray)
    (offset ceiling : Nat) :
    (∃ length < ceiling, TerminatedAt d offset length)
      ∨ ZeroFree d offset (min ceiling (d.size - offset)) := by
  cases hfound : zeroWithin d offset 0 (min ceiling (d.size - offset)) with
  | none => exact Or.inr (zeroWithin_eq_none_iff.1 hfound)
  | some length =>
    obtain ⟨k, hk, -, hzero, hbefore⟩ := zeroWithin_eq_some_iff.1 hfound
    exact Or.inl ⟨k, by omega, by omega, hzero, hbefore⟩

/-- **The answers to the question for a string**, each with its reason. -/
theorem stringAt_cases (d : ByteArray) (offset ceiling : Nat) :
    (∃ length < ceiling, TerminatedAt d offset length
        ∧ stringAt d offset ceiling = .ok (textAt d offset length))
      ∨ (OverlongAt d offset ceiling
        ∧ stringAt d offset ceiling = .error (.unterminated offset ceiling))
      ∨ (d.size ≤ offset
        ∧ stringAt d offset ceiling = .error (.outOfBounds offset 1 d.size))
      ∨ (CutOffAt d offset ceiling
        ∧ stringAt d offset ceiling
          = .error (.outOfBounds offset ceiling d.size)) := by
  rcases exists_terminatedAt_or_zeroFree d offset ceiling with
    ⟨length, hlt, hterm⟩ | hzeroFree
  · exact Or.inl ⟨length, hlt, hterm,
      stringAt_eq_ok_iff.2 ⟨length, hlt, hterm, rfl⟩⟩
  by_cases hpast : d.size ≤ offset
  · exact Or.inr (Or.inr (Or.inl ⟨hpast, stringAt_of_size_le hpast⟩))
  by_cases hshort : d.size < offset + ceiling
  · -- the window ends with the data
    rw [Nat.min_eq_right (by omega)] at hzeroFree
    have hcut : CutOffAt d offset ceiling := ⟨by omega, hshort, hzeroFree⟩
    exact Or.inr (Or.inr (Or.inr ⟨hcut, hcut.stringAt_eq⟩))
  · -- the window ends at the ceiling
    rw [Nat.min_eq_left (by omega)] at hzeroFree
    have hlong : OverlongAt d offset ceiling :=
      ⟨by omega, Nat.le_of_not_lt hshort, hzeroFree⟩
    exact Or.inr (Or.inl ⟨hlong, hlong.stringAt_eq⟩)

theorem stringAt_eq_unterminated_iff {place limit : Nat} :
    stringAt d offset ceiling = .error (.unterminated place limit)
      ↔ (place = offset ∧ limit = ceiling) ∧ OverlongAt d offset ceiling := by
  constructor
  · intro h
    rcases stringAt_cases d offset ceiling with
      ⟨_, _, _, heq⟩ | ⟨hlong, heq⟩ | ⟨_, heq⟩ | ⟨_, heq⟩ <;>
        rw [heq] at h <;> cases h
    exact ⟨⟨rfl, rfl⟩, hlong⟩
  · rintro ⟨⟨rfl, rfl⟩, hlong⟩
    exact hlong.stringAt_eq

theorem stringAt_eq_outOfBounds_iff {place width size : Nat} :
    stringAt d offset ceiling = .error (.outOfBounds place width size)
      ↔ (place = offset ∧ size = d.size)
        ∧ (d.size ≤ offset ∧ width = 1
          ∨ CutOffAt d offset ceiling ∧ width = ceiling) := by
  constructor
  · intro h
    rcases stringAt_cases d offset ceiling with
      ⟨_, _, _, heq⟩ | ⟨_, heq⟩ | ⟨hpast, heq⟩ | ⟨hcut, heq⟩ <;>
        rw [heq] at h <;> cases h
    · exact ⟨⟨rfl, rfl⟩, Or.inl ⟨hpast, rfl⟩⟩
    · exact ⟨⟨rfl, rfl⟩, Or.inr ⟨hcut, rfl⟩⟩
  · rintro ⟨⟨rfl, rfl⟩, ⟨hpast, rfl⟩ | ⟨hcut, rfl⟩⟩
    · exact stringAt_of_size_le hpast
    · exact hcut.stringAt_eq

/-! ## What a found string depends on -/

/-- **A higher ceiling finds the same string.** -/
theorem stringAt_of_ceiling_le {text : String} {higher : Nat}
    (hle : ceiling ≤ higher) (h : stringAt d offset ceiling = .ok text) :
    stringAt d offset higher = .ok text := by
  obtain ⟨length, hlt, hread⟩ := stringAt_eq_ok_iff.1 h
  exact stringAt_eq_ok_iff.2 ⟨length, Nat.lt_of_lt_of_le hlt hle, hread⟩

/-- **The bytes behind the terminator do not count.** -/
theorem TerminatedAt.of_overwritten {length : Nat}
    (h : TerminatedAt d offset length)
    (he : OverwrittenIn (offset + length < ·) d e) :
    TerminatedAt e offset length
      ∧ textAt e offset length = textAt d offset length := by
  have hinside := h.inside
  have hbyte : ∀ i ≤ length, byteAt e (offset + i) = byteAt d (offset + i) :=
    fun i hi => he.byteAt_eq _ (by omega)
  refine ⟨⟨he.size_eq.symm ▸ hinside, ?_, fun i hi => ?_⟩, ?_⟩
  · rw [hbyte length (Nat.le_refl _)]
    exact h.terminator
  · rw [hbyte i (Nat.le_of_lt hi)]
    exact h.nonzero i hi
  · have hin : Inside d offset length := Nat.le_of_lt hinside
    have hin' : Inside e offset length := by
      unfold Inside
      rwa [he.size_eq]
    unfold textAt
    rw [toList_extract hin, toList_extract hin']
    refine congrArg Utf8.decode (List.map_congr_left fun i hi => ?_)
    exact hbyte i (Nat.le_of_lt (List.mem_range.1 hi))

theorem stringAt_of_overwritten {length : Nat} {text : String}
    (hterm : TerminatedAt d offset length)
    (he : OverwrittenIn (offset + length < ·) d e)
    (h : stringAt d offset ceiling = .ok text) :
    stringAt e offset ceiling = .ok text := by
  obtain ⟨length', hlt, hterm', htext⟩ := stringAt_eq_ok_iff.1 h
  obtain rfl := hterm.length_eq hterm'
  obtain ⟨hkept, heq⟩ := hterm.of_overwritten he
  exact stringAt_eq_ok_iff.2 ⟨length, hlt, hkept, heq.trans htext⟩

/-! ## The answers in one -/

/-- **Exactly what is answered to the question for a string**, at every offset
and under every ceiling: when there is a string and which one, when it is too
long, and when the data end. A string that was found is found again under a
higher ceiling, in data that go on, and when bytes behind its terminator are
overwritten. And in data that a machine can hold, words of 64 bits for the
offset and the ceiling give the same answers, also where their sum is cut down
to the largest word. -/
theorem stringAt_answers (d : ByteArray) (offset ceiling : Nat) :
    (∀ text, stringAt d offset ceiling = .ok text
        ↔ ∃ length < ceiling, TerminatedAt d offset length
          ∧ textAt d offset length = text)
      ∧ (∀ place limit,
        stringAt d offset ceiling = .error (.unterminated place limit)
          ↔ (place = offset ∧ limit = ceiling) ∧ OverlongAt d offset ceiling)
      ∧ (∀ place width size,
        stringAt d offset ceiling = .error (.outOfBounds place width size)
          ↔ (place = offset ∧ size = d.size)
            ∧ (d.size ≤ offset ∧ width = 1
              ∨ CutOffAt d offset ceiling ∧ width = ceiling))
      ∧ (∀ text, stringAt d offset ceiling = .ok text →
        (∀ higher ≥ ceiling, stringAt d offset higher = .ok text)
          ∧ (∀ more, stringAt (d ++ more) offset ceiling = .ok text)
          ∧ ∃ length, TerminatedAt d offset length
            ∧ ∀ e, OverwrittenIn (offset + length < ·) d e →
              stringAt e offset ceiling = .ok text)
      ∧ (d.size < 2 ^ 63 → ∀ place limit : UInt64,
        FixedWidth.Exact (FixedWidth.stringAt d place limit).run
          (ofRead (stringAt d place.toNat limit.toNat))) := by
  refine ⟨fun _ => stringAt_eq_ok_iff, fun _ _ => stringAt_eq_unterminated_iff,
    fun _ _ _ => stringAt_eq_outOfBounds_iff, fun text h => ⟨?_, ?_, ?_⟩, ?_⟩
  · exact fun higher hle => stringAt_of_ceiling_le hle h
  · exact fun more => Lasts.stringAt offset ceiling (begins_append d more) h
  · obtain ⟨length, _, hterm, _⟩ := stringAt_eq_ok_iff.1 h
    exact ⟨length, hterm, fun e he => stringAt_of_overwritten hterm he h⟩
  · exact fun hd place limit => FixedWidth.exact_stringAt hd place limit

/-- The string `Hi` with a byte behind its terminator is found under a ceiling
of three, and so it is under the usual one, with more data behind it, with
another byte behind its terminator, and by words. -/
theorem stringAt_answers_sample :
    stringAt ⟨#[0x48, 0x69, 0, 1]⟩ 0 3 = .ok "Hi"
      ∧ stringAt ⟨#[0x48, 0x69, 0, 1]⟩ 0 512 = .ok "Hi"
      ∧ stringAt (⟨#[0x48, 0x69, 0, 1]⟩ ++ ⟨#[2]⟩) 0 3 = .ok "Hi"
      ∧ OverwrittenIn (2 < ·) ⟨#[0x48, 0x69, 0, 1]⟩
        (overwrite ⟨#[0x48, 0x69, 0, 1]⟩ 3 2)
      ∧ stringAt (overwrite ⟨#[0x48, 0x69, 0, 1]⟩ 3 2) 0 3 = .ok "Hi"
      ∧ FixedWidth.Exact
        (FixedWidth.stringAt ⟨#[0x48, 0x69, 0, 1]⟩ 0 3).run (.ok "Hi") := by
  have hfound : stringAt ⟨#[0x48, 0x69, 0, 1]⟩ 0 3 = .ok "Hi" := by
    decide +kernel
  obtain ⟨_, _, _, hlasts, hwords⟩ :=
    stringAt_answers ⟨#[0x48, 0x69, 0, 1]⟩ 0 3
  obtain ⟨hceiling, hmore, length, hterm, hover⟩ := hlasts "Hi" hfound
  -- the string has two bytes, and the last byte is behind its terminator
  obtain rfl : length = 2 := by
    have htwo : TerminatedAt ⟨#[0x48, 0x69, 0, 1]⟩ 0 2 :=
      ⟨by decide, by decide, by decide⟩
    exact hterm.length_eq htwo
  have hbehind : OverwrittenIn (0 + 2 < ·) ⟨#[0x48, 0x69, 0, 1]⟩
      (overwrite ⟨#[0x48, 0x69, 0, 1]⟩ 3 2) :=
    overwrittenIn_overwrite (by decide) _ 2
  have hexact := hwords (by decide) 0 3
  rw [show ofRead (stringAt ⟨#[0x48, 0x69, 0, 1]⟩ (0 : UInt64).toNat
    (3 : UInt64).toNat) = .ok "Hi" from congrArg ofRead hfound] at hexact
  exact ⟨hfound, hceiling 512 (by decide), hmore ⟨#[2]⟩, hbehind,
    hover _ hbehind, hexact⟩

/-- The string `Hi` with its terminator at the end of the data. It ends under a
ceiling of three and not under one of two. -/
example :
    stringAt ⟨#[0x48, 0x69, 0]⟩ 0 3 = .ok "Hi"
      ∧ stringAt ⟨#[0x48, 0x69, 0]⟩ 0 2 = .error (.unterminated 0 2)
      ∧ stringAt ⟨#[0x48, 0x69]⟩ 0 3 = .error (.outOfBounds 0 3 2) := by
  decide +kernel

end DriverAudit
