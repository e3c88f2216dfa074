import DriverAudit.Bytes.Read

/-!
# Arrays that end with a zero record

The tables of an image do not say how long they are. A table is a run of
records of one width, and it goes on until a record whose bytes are all zero.
An intact table has such a record; a damaged one may run into the end of the
file first. `RecordArray.measure` finds out which of the two happens, and after how
many records.

The search goes forward by a full record each time and only inside the file,
so it ends after at most as many steps as the file has bytes.
-/

namespace DriverAudit

/-- **How an array of records ends.** -/
inductive Ending where
  /-- With a record of zeros. -/
  | terminator
  /-- With a record that is not wholly inside the file. -/
  | endOfFile
  deriving DecidableEq, Repr

/-- An array of records: how many there are, and what ends it. -/
structure RecordArray where
  count : Nat
  ending : Ending
  deriving DecidableEq, Repr

namespace RecordArray

/-- Whether the `width` bytes from a position are all zero. -/
def isZero (d : ByteArray) (offset width : Nat) : Bool :=
  (List.range width).all fun i => byteAt d (offset + i) == 0

/-- Go on from `offset`, where `seen` records have been passed. -/
def measureFrom (d : ByteArray) (width offset seen : Nat) : RecordArray :=
  if h : 0 < width ∧ offset + width ≤ d.size then
    if isZero d offset width then ⟨seen, .terminator⟩
    else measureFrom d width (offset + width) (seen + 1)
  else ⟨seen, .endOfFile⟩
termination_by d.size - offset
decreasing_by omega

/-- **The array of records of `width` bytes at an offset.** -/
def measure (d : ByteArray) (width offset : Nat) : RecordArray :=
  measureFrom d width offset 0

/-- The offsets of the records of the array at `offset`. -/
def offsets (a : RecordArray) (width offset : Nat) : List Nat :=
  (List.range a.count).map fun i => offset + i * width

end RecordArray

end DriverAudit
