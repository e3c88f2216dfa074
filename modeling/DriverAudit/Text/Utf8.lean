/-!
# Reading bytes as text, whatever they are

Names inside an image are byte strings that nobody promises to be UTF-8. They
are read *lossily*: a well-formed sequence gives its character, and every
maximal piece that starts like a sequence but cannot be finished gives one
replacement character U+FFFD.

A lead byte determines everything that follows: how many bits of the character
it carries, and for each further byte the range it must lie in. Only the first
of these ranges can be narrower than `80–BF`; the narrowing is what excludes
overlong forms, surrogates and values past U+10FFFF, so no separate test of
the decoded value is needed.
-/

namespace DriverAudit.Utf8

/-- The character that stands for a piece that is no UTF-8. -/
def replacement : Char := '\uFFFD'

/-- **A range of byte values**, both ends included. -/
structure ByteRange where
  low : UInt8
  high : UInt8
  deriving DecidableEq, Repr

/-- Whether a byte lies in a range. -/
def ByteRange.contains (r : ByteRange) (b : UInt8) : Bool :=
  r.low ≤ b && b ≤ r.high

/-- The range of an unrestricted continuation byte. -/
def continuation : ByteRange := ⟨0x80, 0xBF⟩

/-- **What a lead byte announces**: the bits of the character it carries, and
the ranges of the bytes that must follow. `none` for a byte that starts no
sequence. -/
def announced (lead : UInt8) : Option (Nat × List ByteRange) :=
  let b := lead.toNat
  if b < 0x80 then some (b, [])
  else if b < 0xC2 then none
  else if b < 0xE0 then some (b - 0xC0, [continuation])
  else if b = 0xE0 then some (0, [⟨0xA0, 0xBF⟩, continuation])
  else if b = 0xED then some (0xD, [⟨0x80, 0x9F⟩, continuation])
  else if b < 0xF0 then some (b - 0xE0, [continuation, continuation])
  else if b = 0xF0 then some (0, [⟨0x90, 0xBF⟩, continuation, continuation])
  else if b < 0xF4 then
    some (b - 0xF0, [continuation, continuation, continuation])
  else if b = 0xF4 then
    some (4, [⟨0x80, 0x8F⟩, continuation, continuation])
  else none

/-- **The rest of a sequence.** With `code` the bits read so far, consume one
byte per range. The first byte outside its range ends the piece before itself,
so that it is read again as the start of the next one. -/
def finish : List ByteRange → Nat → List UInt8 → Char × List UInt8
  | [], code, rest => (Char.ofNat code, rest)
  | _ :: _, _, [] => (replacement, [])
  | range :: ranges, code, b :: rest =>
    if range.contains b then finish ranges (code * 64 + b.toNat % 64) rest
    else (replacement, b :: rest)

/-- The first character of a non-empty byte string, and what is left. -/
def first (lead : UInt8) (rest : List UInt8) : Char × List UInt8 :=
  match announced lead with
  | none => (replacement, rest)
  | some (code, ranges) => finish ranges code rest

theorem finish_length_le (ranges : List ByteRange) (code : Nat)
    (bytes : List UInt8) : (finish ranges code bytes).2.length ≤ bytes.length := by
  fun_induction finish ranges code bytes with
  | case1 => exact Nat.le_refl _
  | case2 => exact Nat.le_refl _
  | case3 _ _ _ _ _ _ ih => exact Nat.le_succ_of_le ih
  | case4 => exact Nat.le_refl _

/-- A character uses up at least its lead byte. -/
theorem first_length_le (lead : UInt8) (rest : List UInt8) :
    (first lead rest).2.length ≤ rest.length := by
  unfold first
  split
  · exact Nat.le_refl _
  · exact finish_length_le _ _ _

/-- The characters of a byte string, invalid pieces replaced. -/
def characters : List UInt8 → List Char
  | [] => []
  | lead :: rest =>
    have := first_length_le lead rest
    (first lead rest).1 :: characters (first lead rest).2
termination_by bytes => bytes.length

/-- **Lossy decoding** of a byte string. -/
def decode (bytes : List UInt8) : String := String.ofList (characters bytes)

end DriverAudit.Utf8
