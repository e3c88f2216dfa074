/-!
# Hexadecimal text

Offsets and addresses are written in hexadecimal behind `0x`, in lower case,
with at least a given number of digits.
-/

namespace DriverAudit.Radix

/-- The hexadecimal digits of a number, padded with zeros on the left to at
least `width` digits. -/
def digits (width n : Nat) : List Char :=
  let shown := Nat.toDigits 16 n
  List.replicate (width - shown.length) '0' ++ shown

/-- **A number in hexadecimal**, behind `0x`. -/
def hex (width n : Nat) : String := "0x" ++ String.ofList (digits width n)

/-- One byte as two hexadecimal digits. -/
def byte (b : UInt8) : List Char := digits 2 b.toNat

/-- A byte string as hexadecimal digits, two to a byte. -/
def bytes (bs : List UInt8) : String := String.ofList (bs.flatMap byte)

end DriverAudit.Radix
