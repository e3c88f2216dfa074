import DriverAudit.Bytes.LittleEndian
import DriverAudit.Text.Utf8
import DriverAudit.Text.Radix

/-!
# Checked reads from untrusted data

Every offset that an image holds may point anywhere, so every read states the
range it needs and fails when the data does not cover it. A failed read says
what was asked for and how much data there is.

Strings are zero-terminated and read under a ceiling. The ceiling and the end
of the data both cut the search short, and the two are told apart: a search
that the ceiling ended found an over-long string, one that the data ended ran
out of file.
-/

namespace DriverAudit

/-- **Why a read failed.** -/
inductive ReadFault where
  /-- The range asked for is not inside the data. -/
  | outOfBounds (offset width size : Nat)
  /-- The ceiling was reached before a terminator. -/
  | unterminated (offset ceiling : Nat)
  deriving DecidableEq, Repr

/-- The text of a failed read. -/
def ReadFault.message : ReadFault → String
  | .outOfBounds offset width size =>
    "Read of " ++ toString width ++ " bytes at offset " ++ Radix.hex 1 offset
      ++ " exceeds buffer of " ++ toString size ++ " bytes"
  | .unterminated offset ceiling =>
    "No string terminator within " ++ toString ceiling ++ " bytes at offset "
      ++ Radix.hex 1 offset

/-! ## Words -/

/-- Whether the data covers a range. -/
def covers (d : ByteArray) (offset width : Nat) : Bool :=
  offset + width ≤ d.size

/-- Answer with `value` when the data covers the range that it was read
from. -/
def checked {α : Type} (d : ByteArray) (offset width : Nat) (value : α) :
    Except ReadFault α :=
  if covers d offset width then .ok value
  else .error (.outOfBounds offset width d.size)

/-- **The bytes of a range.** -/
def bytesAt (d : ByteArray) (offset width : Nat) :
    Except ReadFault (List UInt8) :=
  if covers d offset width then
    .ok (d.extract offset (offset + width)).data.toList
  else .error (.outOfBounds offset width d.size)

/-- The 16-bit word at an offset. -/
def u16At (d : ByteArray) (offset : Nat) : Except ReadFault UInt16 :=
  checked d offset 2 (UInt16.ofNat (wordAt d offset 2))

/-- The 32-bit word at an offset. -/
def u32At (d : ByteArray) (offset : Nat) : Except ReadFault UInt32 :=
  checked d offset 4 (UInt32.ofNat (wordAt d offset 4))

/-- The 64-bit word at an offset. -/
def u64At (d : ByteArray) (offset : Nat) : Except ReadFault UInt64 :=
  checked d offset 8 (UInt64.ofNat (wordAt d offset 8))

/-! ## Strings -/

/-- **How many bytes precede the first zero**, looking at no more than `n`
bytes from a position. The search starts with `seen` bytes already passed. -/
def zeroWithin (d : ByteArray) (i : Nat) (seen : Nat) : Nat → Option Nat
  | 0 => none
  | n + 1 =>
    if byteAt d i = 0 then some seen else zeroWithin d (i + 1) (seen + 1) n

/-- **A zero-terminated string.** The terminator must come within `ceiling`
bytes; the bytes before it are decoded as text. -/
def stringAt (d : ByteArray) (offset ceiling : Nat) :
    Except ReadFault String :=
  if d.size ≤ offset then .error (.outOfBounds offset 1 d.size)
  else
    let window := min ceiling (d.size - offset)
    match zeroWithin d offset 0 window with
    | some length =>
      .ok (Utf8.decode (d.extract offset (offset + length)).data.toList)
    | none =>
      if window < ceiling then .error (.outOfBounds offset ceiling d.size)
      else .error (.unterminated offset ceiling)

/-! ## Alignment -/

/-- The least multiple of `alignment` that is not below `value`. An alignment
of zero leaves the value as it is. -/
def alignUp (value alignment : Nat) : Nat :=
  if alignment = 0 then value
  else (value + alignment - 1) / alignment * alignment

end DriverAudit
