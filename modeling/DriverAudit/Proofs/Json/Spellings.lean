import DriverAudit.Json.Token

/-!
# How the words of JSON may be spelled

A bracket has one spelling, and so has a name. A text has many: any character
of it may stand as an escape with four hexadecimal digits, in either case, a
character beyond 16 bits as an escape for each half of its pair, and eight
characters have a short escape besides. Only the quote, the backslash and the
control characters must be escaped. A number is its own spelling.

This module says which spellings there are (`Token.Spelled`), without the
reader, and then that the reader takes every spelling for what it spells, with
whatever stands behind it. Only a number can be mistaken: digits behind it
would belong to it, so something else must follow (`EndsNumber`).
-/

namespace DriverAudit.Json

/-! ## Texts -/

/-- **The short escapes**, each with the character that it stands for. -/
def shortEscapes : List (Char × Char) :=
  [('"', '"'), ('\\', '\\'), ('/', '/'), ('b', '\x08'), ('f', '\x0c'),
    ('n', '\n'), ('r', '\r'), ('t', '\t')]

/-- **A hexadecimal digit** of some value, in either case. -/
def IsHexDigit (c : Char) (value : Nat) : Prop :=
  (value < 10 ∧ c.toNat = 48 + value)
    ∨ (10 ≤ value ∧ value < 16
      ∧ (c.toNat = 87 + value ∨ c.toNat = 55 + value))

/-- **The escape of a 16-bit unit**: four hexadecimal digits. -/
inductive IsUnitEscape : List Char → Nat → Prop
  | mk {a b c d : Char} {p q r s : Nat} (ha : IsHexDigit a p)
      (hb : IsHexDigit b q) (hc : IsHexDigit c r) (hd : IsHexDigit d s) :
      IsUnitEscape ['\\', 'u', a, b, c, d]
        (p * 4096 + q * 256 + r * 16 + s)

/-- A unit that is the first half of a pair. -/
def IsHigh (n : Nat) : Prop := 0xD800 ≤ n ∧ n < 0xDC00

/-- A unit that is the second half of a pair. -/
def IsLow (n : Nat) : Prop := 0xDC00 ≤ n ∧ n < 0xE000

/-- **How a text may be spelled** between its quotes. -/
inductive Text.Spelled : Text → List Char → Prop
  | nil : Spelled [] []
  | plain {c : Char} {t : Text} {cs : List Char} (hc : 0x20 ≤ c.toNat)
      (hquote : c ≠ '"') (hslash : c ≠ '\\') (h : Spelled t cs) :
      Spelled (.char c :: t) (c :: cs)
  | short {e c : Char} {t : Text} {cs : List Char}
      (he : (e, c) ∈ shortEscapes) (h : Spelled t cs) :
      Spelled (.char c :: t) ('\\' :: e :: cs)
  | unit {n : Nat} {t : Text} {esc cs : List Char} (he : IsUnitEscape esc n)
      (hhigh : ¬ IsHigh n) (hlow : ¬ IsLow n) (h : Spelled t cs) :
      Spelled (.char (Char.ofNat n) :: t) (esc ++ cs)
  | pair {high low : Nat} {t : Text} {first second cs : List Char}
      (hfirst : IsUnitEscape first high) (hsecond : IsUnitEscape second low)
      (hhigh : IsHigh high) (hlow : IsLow low) (h : Spelled t cs) :
      Spelled (.char (Char.ofNat
          (0x10000 + (high - 0xD800) * 0x400 + (low - 0xDC00))) :: t)
        (first ++ (second ++ cs))
  /-- A half without its other half. A first half must not stand before a
  second one, because the two would be a pair. -/
  | half {n : Nat} {t : Text} {esc cs : List Char} (he : IsUnitEscape esc n)
      (hn : IsHigh n ∨ IsLow n)
      (halone : IsHigh n → ∀ low, t.head? = some (.half low) →
        ¬ IsLow low.toNat)
      (h : Spelled t cs) :
      Spelled (.half (UInt16.ofNat n) :: t) (esc ++ cs)

/-- The characters in a range are those with a code in a range. -/
theorem char_le_iff {a b : Char} : a ≤ b ↔ a.toNat ≤ b.toNat := Iff.rfl

/-- The value of a hexadecimal digit, by its code. -/
theorem hexValue?_eq (c : Char) :
    hexValue? c
      = if 48 ≤ c.toNat ∧ c.toNat ≤ 57 then some (c.toNat - 48)
        else if 97 ≤ c.toNat ∧ c.toNat ≤ 102 then some (c.toNat - 87)
        else if 65 ≤ c.toNat ∧ c.toNat ≤ 70 then some (c.toNat - 55)
        else none := by
  unfold hexValue?
  simp only [char_le_iff]
  rfl

theorem hexValue?_of_isHexDigit {c : Char} {v : Nat} (h : IsHexDigit c v) :
    hexValue? c = some v := by
  rw [hexValue?_eq]
  obtain ⟨hv, hc⟩ | ⟨hten, hv, hc | hc⟩ := h
  · rw [if_pos (by omega), hc, Nat.add_sub_cancel_left]
  · rw [if_neg (by omega), if_pos (by omega), hc, Nat.add_sub_cancel_left]
  · rw [if_neg (by omega), if_neg (by omega), if_pos (by omega), hc,
      Nat.add_sub_cancel_left]

theorem isHighHalf_iff {n : Nat} : isHighHalf n = true ↔ IsHigh n := by
  unfold isHighHalf IsHigh
  simp

theorem isLowHalf_iff {n : Nat} : isLowHalf n = true ↔ IsLow n := by
  unfold isLowHalf IsLow
  simp

/-- A unit that is no half of a pair is a character. -/
theorem consUnit_of_not_half {n : Nat} (hhigh : ¬ IsHigh n)
    (hlow : ¬ IsLow n) (t : Text) :
    t.consUnit n = .char (Char.ofNat n) :: t := by
  unfold Text.consUnit
  rw [if_neg (mt isHighHalf_iff.1 hhigh), if_neg (mt isLowHalf_iff.1 hlow)]

/-- A second half starts no pair. -/
theorem consUnit_of_isLow {n : Nat} (hlow : IsLow n) (t : Text) :
    t.consUnit n = .half (UInt16.ofNat n) :: t := by
  have hhigh : ¬ IsHigh n := fun h => Nat.not_lt.2 hlow.1 h.2
  unfold Text.consUnit
  rw [if_neg (mt isHighHalf_iff.1 hhigh), if_pos (isLowHalf_iff.2 hlow)]

/-- **A first half joins a second half behind it.** -/
theorem consUnit_pair {high low : Nat} (hhigh : IsHigh high) (hlow : IsLow low)
    (t : Text) :
    (t.consUnit low).consUnit high = .char (pairChar high low) :: t := by
  have hvalue : (UInt16.ofNat low).toNat = low :=
    Nat.mod_eq_of_lt (Nat.lt_trans hlow.2 (by decide))
  rw [consUnit_of_isLow hlow, Text.consUnit, if_pos (isHighHalf_iff.2 hhigh),
    hvalue, if_pos (isLowHalf_iff.2 hlow)]

/-- A first half without a second half behind it stays a half. -/
theorem consUnit_of_isHigh {n : Nat} (hhigh : IsHigh n) {t : Text}
    (halone : ∀ low, t.head? = some (.half low) → ¬ IsLow low.toNat) :
    t.consUnit n = .half (UInt16.ofNat n) :: t := by
  unfold Text.consUnit
  rw [if_pos (isHighHalf_iff.2 hhigh)]
  split
  case h_1 low rest =>
    rw [if_neg (mt isLowHalf_iff.1 (halone low rfl))]
  case h_2 => rfl

/-- **The escape of a unit** puts the unit in front of what follows. -/
theorem textBehind_unitEscape {esc : List Char} {n : Nat}
    (he : IsUnitEscape esc n) {cs left : List Char} {t : Text}
    (h : textBehind cs = some (t, left)) :
    textBehind (esc ++ cs) = some (t.consUnit n, left) := by
  obtain @⟨a, b, c, d, p, q, r, s, ha, hb, hc, hd⟩ := he
  have hunit : unit? a b c d = some (p * 4096 + q * 256 + r * 16 + s) := by
    simp only [unit?, hexValue?_of_isHexDigit ha, hexValue?_of_isHexDigit hb,
      hexValue?_of_isHexDigit hc, hexValue?_of_isHexDigit hd,
      Option.pure_def, Option.bind_eq_bind, Option.bind_some,
      Option.some.injEq]
    omega
  simp only [List.cons_append, List.nil_append, textBehind, hunit, h,
    Option.pure_def, Option.bind_eq_bind, Option.bind_some]

/-- A short escape puts its character in front of what follows. -/
theorem textBehind_shortEscape {e c : Char} (he : (e, c) ∈ shortEscapes)
    {cs left : List Char} {t : Text} (h : textBehind cs = some (t, left)) :
    textBehind ('\\' :: e :: cs) = some (.char c :: t, left) := by
  have hshort : shortEscape? e = some c ∧ e ≠ 'u' := by
    simp only [shortEscapes, List.mem_cons, Prod.mk.injEq,
      List.not_mem_nil, or_false] at he
    rcases he with ⟨rfl, rfl⟩ | ⟨rfl, rfl⟩ | ⟨rfl, rfl⟩ | ⟨rfl, rfl⟩
      | ⟨rfl, rfl⟩ | ⟨rfl, rfl⟩ | ⟨rfl, rfl⟩ | ⟨rfl, rfl⟩ <;> decide
  rw [textBehind]
  · simp [hshort.1, h]
  · rintro a b c d rest' rfl
    exact absurd rfl hshort.2

/-- Any other character stands for itself. -/
theorem textBehind_plain {c : Char} (hc : 0x20 ≤ c.toNat) (hquote : c ≠ '"')
    (hslash : c ≠ '\\') {cs left : List Char} {t : Text}
    (h : textBehind cs = some (t, left)) :
    textBehind (c :: cs) = some (.char c :: t, left) := by
  have hplain : ¬ (c.toNat < 0x20 ∨ c = '\\') := fun hor =>
    hor.elim (Nat.not_lt.2 hc) hslash
  rw [textBehind]
  · rw [if_neg hplain]
    simp [h]
  · exact hquote
  · rintro a b c d rest' rfl
    exact absurd rfl hslash
  · rintro e rest' rfl
    exact absurd rfl hslash

/-- **A text is read from any of its spellings**, up to the quote behind it. -/
theorem textBehind_of_spelled {t : Text} {cs : List Char} (h : t.Spelled cs)
    (rest : List Char) : textBehind (cs ++ '"' :: rest) = some (t, rest) := by
  induction h with
  | nil => rw [List.nil_append, textBehind]
  | plain hc hquote hslash _ ih =>
    exact textBehind_plain hc hquote hslash ih
  | short he _ ih => exact textBehind_shortEscape he ih
  | unit he hhigh hlow _ ih =>
    rw [List.append_assoc, textBehind_unitEscape he ih,
      consUnit_of_not_half hhigh hlow]
  | pair hfirst hsecond hhigh hlow _ ih =>
    rw [List.append_assoc, List.append_assoc, textBehind_unitEscape hfirst
      (textBehind_unitEscape hsecond ih), consUnit_pair hhigh hlow]
    rfl
  | half he hn halone _ ih =>
    rw [List.append_assoc, textBehind_unitEscape he ih]
    rcases hn with hhigh | hlow
    · rw [consUnit_of_isHigh hhigh (halone hhigh)]
    · rw [consUnit_of_isLow hlow]

/-! ## Numbers -/

/-- At least one digit, and nothing else. -/
def IsDigits (ds : List Char) : Prop :=
  ds ≠ [] ∧ ∀ c ∈ ds, isDigit c = true

/-- **The digits before the point**: one zero, or digits of which the first is
not zero. -/
inductive IsWhole : List Char → Prop
  | zero : IsWhole ['0']
  | digits {ds : List Char} (h : IsDigits ds) (hfirst : ds.head? ≠ some '0') :
      IsWhole ds

/-- A point with digits behind it, or nothing. -/
inductive IsFraction : List Char → Prop
  | none : IsFraction []
  | digits {ds : List Char} (h : IsDigits ds) : IsFraction ('.' :: ds)

/-- **An exponent**, with or without a sign, or nothing. -/
inductive IsExponent : List Char → Prop
  | none : IsExponent []
  | digits {letter : Char} {sign ds : List Char}
      (hletter : letter = 'e' ∨ letter = 'E')
      (hsign : sign = [] ∨ sign = ['+'] ∨ sign = ['-']) (h : IsDigits ds) :
      IsExponent (letter :: (sign ++ ds))

/-- **A number** without its sign. -/
inductive IsUnsigned : List Char → Prop
  | mk {whole part power : List Char} (hwhole : IsWhole whole)
      (hpart : IsFraction part) (hpower : IsExponent power) :
      IsUnsigned (whole ++ part ++ power)

/-- **A number.** -/
inductive IsNumeral : List Char → Prop
  | positive {cs : List Char} (h : IsUnsigned cs) : IsNumeral cs
  | negative {cs : List Char} (h : IsUnsigned cs) : IsNumeral ('-' :: cs)

/-- What follows is no digit. -/
def EndsDigits (rest : List Char) : Prop :=
  ∀ c, rest.head? = some c → isDigit c = false

/-- **What follows does not go on with a number.** -/
def EndsNumber (rest : List Char) : Prop :=
  ∀ c, rest.head? = some c →
    isDigit c = false ∧ c ≠ '.' ∧ c ≠ 'e' ∧ c ≠ 'E'

theorem EndsNumber.endsDigits {rest : List Char} (h : EndsNumber rest) :
    EndsDigits rest := fun c hc => (h c hc).1

section Digits

variable {ds rest : List Char}

/-- **Digits are read to their end.** -/
theorem digits_append (h : IsDigits ds) (hrest : EndsDigits rest) :
    digits (ds ++ rest) = some (ds, rest) := by
  have htake : rest.takeWhile isDigit = [] := by
    cases rest with
    | nil => rfl
    | cons c rest =>
      rw [List.takeWhile_cons_of_neg (by rw [hrest c rfl]; decide)]
  have hdrop : rest.dropWhile isDigit = rest := by
    cases rest with
    | nil => rfl
    | cons c rest =>
      rw [List.dropWhile_cons_of_neg (by rw [hrest c rfl]; decide)]
  obtain ⟨hne, hall⟩ := h
  unfold digits
  rw [List.takeWhile_append_of_pos hall, List.dropWhile_append_of_pos hall,
    htake, hdrop, List.append_nil]
  split
  case h_1 => exact absurd rfl hne
  case h_2 => rfl

theorem wholePart_append (h : IsWhole ds) (hrest : EndsDigits rest) :
    wholePart (ds ++ rest) = some (ds, rest) := by
  cases h with
  | zero => rfl
  | digits h hfirst =>
    obtain ⟨c, ds, rfl⟩ := List.exists_cons_of_ne_nil h.1
    have hc : c ≠ '0' := fun hzero => hfirst (congrArg some hzero)
    rw [← digits_append h hrest, List.cons_append, wholePart]
    exact fun _ heq => hc (List.cons.inj heq).1

theorem fraction_append (h : IsFraction ds) (hrest : EndsDigits rest)
    (hpoint : rest.head? ≠ some '.') :
    fraction (ds ++ rest) = some (ds, rest) := by
  cases h with
  | none =>
    unfold fraction
    rw [List.nil_append]
    split
    case h_1 => exact absurd rfl hpoint
    case h_2 => rfl
  | digits h =>
    rw [List.cons_append, fraction, digits_append h hrest]
    rfl

theorem exponentBehind_append {sign : List Char} (letter : Char)
    (hsign : sign = [] ∨ sign = ['+'] ∨ sign = ['-']) (h : IsDigits ds)
    (hrest : EndsDigits rest) :
    exponentBehind letter (sign ++ ds ++ rest)
      = some (letter :: (sign ++ ds), rest) := by
  have hnosign : Json.sign (ds ++ rest) = ([], ds ++ rest) := by
    obtain ⟨c, ds, rfl⟩ := List.exists_cons_of_ne_nil h.1
    have hc : isDigit c = true := h.2 c List.mem_cons_self
    unfold Json.sign
    rw [List.cons_append]
    split
    case h_1 heq => cases heq; cases hc
    case h_2 heq => cases heq; cases hc
    case h_3 => rfl
  unfold exponentBehind
  rcases hsign with rfl | rfl | rfl
  · rw [List.nil_append, hnosign]
    simp [digits_append h hrest]
  · simp [Json.sign, digits_append h hrest]
  · simp [Json.sign, digits_append h hrest]

theorem exponent_append (h : IsExponent ds) (hrest : EndsNumber rest) :
    exponent (ds ++ rest) = some (ds, rest) := by
  cases h with
  | none =>
    unfold exponent
    rw [List.nil_append]
    split
    case h_1 => exact absurd rfl (hrest 'e' rfl).2.2.1
    case h_2 => exact absurd rfl (hrest 'E' rfl).2.2.2
    case h_3 => rfl
  | digits hletter hsign h =>
    rcases hletter with rfl | rfl
    · exact exponentBehind_append 'e' hsign h hrest.endsDigits
    · exact exponentBehind_append 'E' hsign h hrest.endsDigits

/-- An exponent ends the digits before it, and is no point. -/
theorem endsDigits_exponent (h : IsExponent ds) (hrest : EndsNumber rest) :
    EndsDigits (ds ++ rest) ∧ (ds ++ rest).head? ≠ some '.' := by
  cases h with
  | none => exact ⟨hrest.endsDigits, fun hpoint => (hrest '.' hpoint).2.1 rfl⟩
  | digits hletter hsign h =>
    rcases hletter with rfl | rfl
    · exact ⟨fun c hc => by cases hc; rfl, fun hpoint => by cases hpoint⟩
    · exact ⟨fun c hc => by cases hc; rfl, fun hpoint => by cases hpoint⟩

/-- A point ends the digits before it. -/
theorem endsDigits_fraction (h : IsFraction ds) (hrest : EndsDigits rest) :
    EndsDigits (ds ++ rest) := by
  cases h with
  | none => exact hrest
  | digits h => exact fun c hc => by cases hc; rfl

/-- **A number is read to its end**, with anything behind it that does not go
on with it. -/
theorem unsigned_append (h : IsUnsigned ds) (hrest : EndsNumber rest) :
    unsigned (ds ++ rest) = some (ds, rest) := by
  obtain @⟨whole, part, power, hwhole, hpart, hpower⟩ := h
  obtain ⟨hdigits, hpoint⟩ := endsDigits_exponent hpower hrest
  have hreadWhole : wholePart (whole ++ part ++ power ++ rest)
      = some (whole, part ++ (power ++ rest)) := by
    rw [List.append_assoc, List.append_assoc]
    exact wholePart_append hwhole (endsDigits_fraction hpart hdigits)
  unfold unsigned
  simp only [hreadWhole, fraction_append hpart hdigits hpoint,
    exponent_append hpower hrest, Option.bind_eq_bind, Option.bind_some,
    Option.pure_def]

end Digits

/-! ## Tokens -/

/-- **How a token may be spelled.** -/
inductive Token.Spelled : Token → List Char → Prop
  | openObject : Spelled .openObject ['\x7b']
  | closeObject : Spelled .closeObject ['\x7d']
  | openArray : Spelled .openArray ['[']
  | closeArray : Spelled .closeArray [']']
  | colon : Spelled .colon [':']
  | comma : Spelled .comma [',']
  | null : Spelled .null ['n', 'u', 'l', 'l']
  | yes : Spelled (.bool true) ['t', 'r', 'u', 'e']
  | no : Spelled (.bool false) ['f', 'a', 'l', 's', 'e']
  | number {cs : List Char} (h : IsNumeral cs) :
    Spelled (.number (String.ofList cs)) cs
  | string {t : Text} {cs : List Char} (h : t.Spelled cs) :
    Spelled (.string t) ('"' :: (cs ++ ['"']))

/-- **What may stand right behind a token**: behind a number, nothing that
goes on with it. -/
def Token.EndsBefore : Token → List Char → Prop
  | .number _, rest => EndsNumber rest
  | _, _ => True

/-- A number without its sign starts with a digit. -/
theorem IsUnsigned.exists_cons {cs : List Char} (h : IsUnsigned cs) :
    ∃ c rest, cs = c :: rest ∧ isDigit c = true := by
  obtain ⟨hwhole, -, -⟩ := h
  cases hwhole with
  | zero => exact ⟨_, _, rfl, rfl⟩
  | digits h _ =>
    obtain ⟨c, ds, rfl⟩ := List.exists_cons_of_ne_nil h.1
    exact ⟨_, _, rfl, h.2 c List.mem_cons_self⟩

/-- What starts with a digit is a number. -/
theorem firstToken_of_isDigit {c : Char} (hc : isDigit c = true)
    (cs : List Char) :
    firstToken (c :: cs) = (unsigned (c :: cs)).map fun (ds, left) =>
      (.number (String.ofList ds), left) := by
  unfold firstToken
  split
  case h_1 heq => cases heq
  case h_13 => rfl
  -- no other token starts with a digit
  all_goals next heq => exact absurd hc (by cases heq; decide)

/-- **A token is read from any of its spellings**, with anything behind it
that may stand there. -/
theorem firstToken_of_spelled {k : Token} {cs rest : List Char}
    (h : k.Spelled cs) (hrest : k.EndsBefore rest) :
    firstToken (cs ++ rest) = some (k, rest) := by
  cases h with
  | number h =>
    cases h with
    | positive h =>
      obtain ⟨c, ds, rfl, hc⟩ := h.exists_cons
      rw [List.cons_append, firstToken_of_isDigit hc, ← List.cons_append,
        unsigned_append h hrest]
      rfl
    | negative h =>
      rw [List.cons_append, firstToken, unsigned_append h hrest]
      rfl
  | string h =>
    rw [List.cons_append, List.append_assoc, firstToken, List.cons_append,
      List.nil_append, textBehind_of_spelled h]
    rfl
  | _ => rfl

/-- A spelling starts with no blank. -/
theorem Token.Spelled.exists_cons {k : Token} {cs : List Char}
    (h : k.Spelled cs) : ∃ c rest, cs = c :: rest ∧ isBlank c = false := by
  cases h with
  | number h =>
    cases h with
    | positive h =>
      obtain ⟨c, rest, rfl, hc⟩ := h.exists_cons
      refine ⟨c, rest, rfl, Bool.eq_false_iff.2 fun hblank => ?_⟩
      simp only [isBlank, Bool.or_eq_true, decide_eq_true_eq] at hblank
      rcases hblank with ((rfl | rfl) | rfl) | rfl <;> cases hc
    | negative h => exact ⟨_, _, rfl, rfl⟩
  | _ => exact ⟨_, _, rfl, rfl⟩

/-! ## Sequences of tokens -/

/-- **How a sequence of tokens may be spelled**, with blanks before, between
and behind the tokens. -/
inductive Spells : List Token → List Char → Prop
  | nil {blanks : List Char} (hblank : ∀ c ∈ blanks, isBlank c = true) :
    Spells [] blanks
  | cons {k : Token} {ks : List Token} {blanks cs rest : List Char}
      (hblank : ∀ c ∈ blanks, isBlank c = true) (h : k.Spelled cs)
      (hrest : Spells ks rest) :
      Spells (k :: ks) (blanks ++ (cs ++ rest))

/-- **Whether tokens may follow a number**: they end, or go on with a comma or
a closing bracket. -/
def SeparatesNumber : List Token → Prop
  | [] | .comma :: _ | .closeArray :: _ | .closeObject :: _ => True
  | _ => False

/-- **Sequences in which no number runs into what follows it.** -/
def Settled : List Token → Prop
  | [] => True
  | .number _ :: ks => SeparatesNumber ks ∧ Settled ks
  | _ :: ks => Settled ks

/-- A blank does not go on with a number. -/
theorem endsNumber_of_isBlank {c : Char} (h : isBlank c = true)
    (rest : List Char) : EndsNumber (c :: rest) := by
  rintro d hd
  obtain rfl : c = d := Option.some.inj hd
  simp only [isBlank, Bool.or_eq_true, decide_eq_true_eq] at h
  rcases h with ((rfl | rfl) | rfl) | rfl <;> decide

theorem endsNumber_of_spells {ks : List Token} {cs : List Char}
    (hks : SeparatesNumber ks) (h : Spells ks cs) : EndsNumber cs := by
  cases h with
  | nil hblank =>
    cases cs with
    | nil => exact fun c hc => by cases hc
    | cons c cs => exact endsNumber_of_isBlank (hblank c List.mem_cons_self) cs
  | @cons k ks blanks cs rest hblank h hrest =>
    cases blanks with
    | nil =>
      -- the first token is a separator
      unfold SeparatesNumber at hks
      split at hks
      case h_1 heq => cases heq
      case h_5 => exact hks.elim
      all_goals
        next heq =>
          cases heq
          cases h
          exact fun c hc => by cases hc; decide
    | cons c blanks =>
      exact endsNumber_of_isBlank (hblank c List.mem_cons_self) _

end DriverAudit.Json
