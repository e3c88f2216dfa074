/-!
# Little-endian words

A word of `n` bytes is stored with its least significant byte first. Reading
is total: a position past the end of the data reads as zero, so that the value
at an offset is a plain number. Whether the bytes are really there is asked
separately, by the checked reads of `DriverAudit.Bytes.Read`.
-/

namespace DriverAudit

/-- The byte at a position, zero past the end. -/
def byteAt (d : ByteArray) (i : Nat) : UInt8 := d[i]?.getD 0

/-- **The value of the `n` bytes from a position**, least significant first. -/
def wordAt (d : ByteArray) (i : Nat) : Nat → Nat
  | 0 => 0
  | n + 1 => (byteAt d i).toNat + 256 * wordAt d (i + 1) n

/-- The low `n` bytes of a number, least significant first. -/
def wordBytes : Nat → Nat → List UInt8
  | 0, _ => []
  | n + 1, v => UInt8.ofNat v :: wordBytes n (v / 256)

@[simp]
theorem length_wordBytes (n v : Nat) : (wordBytes n v).length = n := by
  induction n generalizing v with
  | zero => rfl
  | succ n ih => simp [wordBytes, ih]

end DriverAudit
