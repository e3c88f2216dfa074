import DriverAudit.Text.Utf8

/-!
# Lossy decoding loses nothing of a text

Decoding replaces what is no UTF-8, and the bytes of a text are UTF-8. So a
text that is written as bytes and decoded again is the same text
(`decode_toUTF8`), whatever its characters.

The proof goes by characters. A character has one of four lengths as bytes,
and for each of them its first byte announces exactly the ranges in which the
others lie. The narrow ranges are where there is something to see: the second
byte of a three-byte form is at least `A0` behind `E0`, as shorter forms take
the smaller values, and at most `9F` behind `ED`, as surrogates are no
characters; and likewise for four bytes.
-/

namespace DriverAudit.Utf8

/-- A byte that is given as a number lies in a range when the number does. -/
theorem contains_ofNat {r : ByteRange} {b : Nat} (hb : b < 256)
    (hlow : r.low.toNat ≤ b) (hhigh : b ≤ r.high.toNat) :
    r.contains (UInt8.ofNat b) = true := by
  have hval : (UInt8.ofNat b).toNat = b := Nat.mod_eq_of_lt hb
  unfold ByteRange.contains
  rw [Bool.and_eq_true, decide_eq_true_eq, decide_eq_true_eq,
    UInt8.le_iff_toNat_le, UInt8.le_iff_toNat_le, hval]
  exact ⟨hlow, hhigh⟩

/-- A byte in its range adds its low six bits to the character. -/
theorem finish_ofNat {r : ByteRange} {ranges : List ByteRange} {code b : Nat}
    {rest : List UInt8} (hb : b < 256) (hlow : r.low.toNat ≤ b)
    (hhigh : b ≤ r.high.toNat) :
    finish (r :: ranges) code (UInt8.ofNat b :: rest)
      = finish ranges (code * 64 + b % 64) rest := by
  have hval : (UInt8.ofNat b).toNat = b := Nat.mod_eq_of_lt hb
  rw [finish, if_pos (contains_ofNat hb hlow hhigh), hval]

/-- An unrestricted byte adds the six bits that it was made of. -/
theorem finish_continuation (ranges : List ByteRange) (code v : Nat)
    (rest : List UInt8) :
    finish (continuation :: ranges) code (UInt8.ofNat (v % 64 + 0x80) :: rest)
      = finish ranges (code * 64 + v % 64) rest := by
  have hlow : continuation.low.toNat ≤ v % 64 + 0x80 := Nat.le_add_left _ _
  have hhigh : v % 64 + 0x80 ≤ continuation.high.toNat :=
    Nat.add_le_add_right (Nat.le_of_lt_succ (Nat.mod_lt v (by decide))) 0x80
  have hsix : (v % 64 + 0x80) % 64 = v % 64 := by omega
  rw [finish_ofNat (by omega) hlow hhigh, hsix]

/-- **What the first byte of two announces.** -/
theorem announced_two {b : Nat} (hlow : 0xC2 ≤ b) (hhigh : b < 0xE0) :
    announced (UInt8.ofNat b) = some (b - 0xC0, [continuation]) := by
  have hval : (UInt8.ofNat b).toNat = b := Nat.mod_eq_of_lt (by omega)
  unfold announced
  simp only [hval]
  rw [if_neg (by omega), if_neg (by omega), if_pos hhigh]

/-- The range of the second byte of three. -/
def secondOfThree (b : Nat) : ByteRange :=
  if b = 0xE0 then ⟨0xA0, 0xBF⟩
  else if b = 0xED then ⟨0x80, 0x9F⟩
  else continuation

/-- **What the first byte of three announces.** -/
theorem announced_three {b : Nat} (hlow : 0xE0 ≤ b) (hhigh : b < 0xF0) :
    announced (UInt8.ofNat b)
      = some (b - 0xE0, [secondOfThree b, continuation]) := by
  have hval : (UInt8.ofNat b).toNat = b := Nat.mod_eq_of_lt (by omega)
  unfold announced secondOfThree
  simp only [hval]
  rw [if_neg (by omega), if_neg (by omega), if_neg (by omega)]
  by_cases hfirst : b = 0xE0
  · rw [if_pos hfirst, if_pos hfirst, hfirst]
  rw [if_neg hfirst, if_neg hfirst]
  by_cases hsurrogate : b = 0xED
  · rw [if_pos hsurrogate, if_pos hsurrogate, hsurrogate]
  rw [if_neg hsurrogate, if_neg hsurrogate, if_pos hhigh]

/-- The range of the second byte of four. -/
def secondOfFour (b : Nat) : ByteRange :=
  if b = 0xF0 then ⟨0x90, 0xBF⟩
  else if b = 0xF4 then ⟨0x80, 0x8F⟩
  else continuation

/-- **What the first byte of four announces.** -/
theorem announced_four {b : Nat} (hlow : 0xF0 ≤ b) (hhigh : b < 0xF5) :
    announced (UInt8.ofNat b)
      = some (b - 0xF0, [secondOfFour b, continuation, continuation]) := by
  have hval : (UInt8.ofNat b).toNat = b := Nat.mod_eq_of_lt (by omega)
  unfold announced secondOfFour
  simp only [hval]
  rw [if_neg (by omega), if_neg (by omega), if_neg (by omega),
    if_neg (by omega), if_neg (by omega), if_neg (by omega)]
  by_cases hfirst : b = 0xF0
  · rw [if_pos hfirst, if_pos hfirst, hfirst]
  rw [if_neg hfirst, if_neg hfirst]
  by_cases hlast : b = 0xF4
  · rw [if_neg (by omega), if_pos hlast, if_pos hlast, hlast]
  rw [if_pos (by omega), if_neg hlast]

/-- The bounds of the second byte of three. -/
theorem mem_secondOfThree (b second : Nat) (hlow : 0x80 ≤ second)
    (hhigh : second ≤ 0xBF) (hfirst : b = 0xE0 → 0xA0 ≤ second)
    (hsurrogate : b = 0xED → second ≤ 0x9F) :
    (secondOfThree b).low.toNat ≤ second
      ∧ second ≤ (secondOfThree b).high.toNat := by
  unfold secondOfThree
  split
  case isTrue h => exact ⟨hfirst h, hhigh⟩
  case isFalse =>
    split
    case isTrue h => exact ⟨hlow, hsurrogate h⟩
    case isFalse => exact ⟨hlow, hhigh⟩

/-- The bounds of the second byte of four. -/
theorem mem_secondOfFour (b second : Nat) (hlow : 0x80 ≤ second)
    (hhigh : second ≤ 0xBF) (hfirst : b = 0xF0 → 0x90 ≤ second)
    (hlast : b = 0xF4 → second ≤ 0x8F) :
    (secondOfFour b).low.toNat ≤ second
      ∧ second ≤ (secondOfFour b).high.toNat := by
  unfold secondOfFour
  split
  case isTrue h => exact ⟨hfirst h, hhigh⟩
  case isFalse =>
    split
    case isTrue h => exact ⟨hlow, hlast h⟩
    case isFalse => exact ⟨hlow, hhigh⟩

/-- The number of a character is not that of a surrogate. -/
theorem toNat_valid (c : Char) :
    c.val.toNat < 0xD800 ∨ (0xDFFF < c.val.toNat ∧ c.val.toNat < 0x110000) :=
  c.valid

/-! ## The four forms -/

section Forms

variable {v : Nat} (rest : List UInt8)

theorem first_one (h : v < 0x80) :
    first (UInt8.ofNat v) rest = (Char.ofNat v, rest) := by
  have hval : (UInt8.ofNat v).toNat = v := Nat.mod_eq_of_lt (by omega)
  unfold first announced
  simp only [hval]
  rw [if_pos h]
  rfl

theorem first_two (hlow : 0x80 ≤ v) (hhigh : v < 0x800) :
    first (UInt8.ofNat (v / 64 % 32 + 0xC0))
        (UInt8.ofNat (v % 64 + 0x80) :: rest)
      = (Char.ofNat v, rest) := by
  have hsum : (v / 64 % 32 + 0xC0 - 0xC0) * 64 + v % 64 = v := by omega
  unfold first
  -- below `C2` the form would be one byte too long
  rw [announced_two (by omega) (by omega)]
  simp only
  rw [finish_continuation, finish, hsum]

theorem first_three (hlow : 0x800 ≤ v) (hhigh : v < 0x10000)
    (hvalid : v < 0xD800 ∨ 0xDFFF < v) :
    first (UInt8.ofNat (v / 4096 % 16 + 0xE0))
        (UInt8.ofNat (v / 64 % 64 + 0x80)
          :: UInt8.ofNat (v % 64 + 0x80) :: rest)
      = (Char.ofNat v, rest) := by
  have hsum : ((v / 4096 % 16 + 0xE0 - 0xE0) * 64 + (v / 64 % 64 + 0x80) % 64)
      * 64 + v % 64 = v := by omega
  -- the character is no surrogate, which bounds the second byte
  obtain ⟨hsecond, hsecond'⟩ := mem_secondOfThree
    (v / 4096 % 16 + 0xE0) (v / 64 % 64 + 0x80)
    (by omega) (by omega) (by omega) (by omega)
  unfold first
  rw [announced_three (by omega) (by omega)]
  simp only
  rw [finish_ofNat (by omega) hsecond hsecond', finish_continuation, finish,
    hsum]

theorem first_four (hlow : 0x10000 ≤ v) (hhigh : v < 0x110000) :
    first (UInt8.ofNat (v / 262144 % 8 + 0xF0))
        (UInt8.ofNat (v / 4096 % 64 + 0x80)
          :: UInt8.ofNat (v / 64 % 64 + 0x80)
          :: UInt8.ofNat (v % 64 + 0x80) :: rest)
      = (Char.ofNat v, rest) := by
  have hsum : (((v / 262144 % 8 + 0xF0 - 0xF0) * 64
      + (v / 4096 % 64 + 0x80) % 64) * 64 + v / 64 % 64) * 64 + v % 64 = v := by
    omega
  -- the character is below `110000`, which bounds the second byte
  obtain ⟨hsecond, hsecond'⟩ := mem_secondOfFour
    (v / 262144 % 8 + 0xF0) (v / 4096 % 64 + 0x80)
    (by omega) (by omega) (by omega) (by omega)
  unfold first
  rw [announced_four (by omega) (by omega)]
  simp only
  rw [finish_ofNat (by omega) hsecond hsecond', finish_continuation,
    finish_continuation, finish, hsum]

end Forms

/-! ## Texts -/

/-- **A character is decoded from its bytes**, whatever follows them. -/
theorem characters_utf8EncodeChar (c : Char) (rest : List UInt8) :
    characters (String.utf8EncodeChar c ++ rest) = c :: characters rest := by
  have hvalid := toNat_valid c
  have hchar : Char.ofNat c.val.toNat = c := Char.ofNat_toNat c
  unfold String.utf8EncodeChar
  simp only
  split
  case isTrue hone =>
    rw [List.cons_append, List.nil_append, characters,
      first_one rest (by omega), hchar]
  case isFalse hone =>
  split
  case isTrue htwo =>
    rw [List.cons_append, List.cons_append, List.nil_append, characters,
      first_two rest (by omega) (by omega), hchar]
  case isFalse htwo =>
  split
  case isTrue hthree =>
    rw [List.cons_append, List.cons_append, List.cons_append, List.nil_append,
      characters, first_three rest (by omega) (by omega) (by omega), hchar]
  case isFalse hthree =>
    rw [List.cons_append, List.cons_append, List.cons_append, List.cons_append,
      List.nil_append, characters, first_four rest (by omega) (by omega), hchar]

/-- The bytes of a text are those of its characters. -/
theorem toList_toUTF8 (text : String) :
    text.toUTF8.data.toList
      = text.toList.flatMap String.utf8EncodeChar := by
  rw [String.toUTF8_eq_toByteArray, ← String.utf8Encode_toList, List.utf8Encode,
    List.toList_data_toByteArray]

theorem characters_flatMap (l : List Char) :
    characters (l.flatMap String.utf8EncodeChar) = l := by
  induction l with
  | nil => rw [List.flatMap_nil, characters]
  | cons c l ih => rw [List.flatMap_cons, characters_utf8EncodeChar, ih]

/-- **A text is decoded from its bytes.** -/
theorem decode_toUTF8 (text : String) :
    decode text.toUTF8.data.toList = text := by
  rw [decode, toList_toUTF8, characters_flatMap, String.ofList_toList]

/-- Only the character zero has a zero byte. -/
theorem zero_not_mem_utf8EncodeChar {c : Char} (hc : c ≠ '\x00') :
    (0 : UInt8) ∉ String.utf8EncodeChar c := by
  have hne : c.val.toNat ≠ 0 := by
    intro h
    have hchar : Char.ofNat c.val.toNat = c := Char.ofNat_toNat c
    rw [h] at hchar
    exact hc hchar.symm
  have hbyte : ∀ b < 256, b ≠ 0 → (0 : UInt8) ≠ UInt8.ofNat b := by
    intro b hb hb0 heq
    have hval : (UInt8.ofNat b).toNat = b := Nat.mod_eq_of_lt hb
    rw [← heq] at hval
    exact hb0 hval.symm
  unfold String.utf8EncodeChar
  simp only
  split
  · rw [List.mem_singleton]
    exact hbyte _ (by omega) hne
  split
  · rw [List.mem_cons, List.mem_singleton, not_or]
    exact ⟨hbyte _ (by omega) (by omega), hbyte _ (by omega) (by omega)⟩
  split
  · rw [List.mem_cons, List.mem_cons, List.mem_singleton, not_or, not_or]
    exact ⟨hbyte _ (by omega) (by omega), hbyte _ (by omega) (by omega),
      hbyte _ (by omega) (by omega)⟩
  · rw [List.mem_cons, List.mem_cons, List.mem_cons, List.mem_singleton,
      not_or, not_or, not_or]
    exact ⟨hbyte _ (by omega) (by omega), hbyte _ (by omega) (by omega),
      hbyte _ (by omega) (by omega), hbyte _ (by omega) (by omega)⟩

/-- **A text without the character zero has no zero byte.** -/
theorem zero_not_mem_toUTF8 {text : String} (h : '\x00' ∉ text.toList) :
    (0 : UInt8) ∉ text.toUTF8.data.toList := by
  rw [toList_toUTF8, List.mem_flatMap]
  rintro ⟨c, hc, hzero⟩
  refine zero_not_mem_utf8EncodeChar ?_ hzero
  rintro rfl
  exact h hc

end DriverAudit.Utf8
