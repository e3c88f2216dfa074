/-!
# The two layouts of an image

Images come in a 32-bit and a 64-bit layout. The word that opens the optional
header tells them apart, and the rest follows from it: how wide the entries of
an import table are, which bit of an entry marks an import by number, and where
in the optional header the table of data directories stands.
-/

namespace DriverAudit

/-- **The layout of an image.** -/
inductive Architecture where
  /-- The 32-bit layout. -/
  | pe32
  /-- The 64-bit layout. -/
  | pe32Plus
  deriving DecidableEq, Repr, Inhabited

namespace Architecture

/-- The word that opens the optional header. -/
def magic : Architecture → UInt16
  | pe32 => 0x10B
  | pe32Plus => 0x20B

/-- The layout that a magic word announces, if it is one of the two. -/
def ofMagic? (word : UInt16) : Option Architecture :=
  if word = pe32.magic then some pe32
  else if word = pe32Plus.magic then some pe32Plus
  else none

/-- The customary name of the layout. -/
def label : Architecture → String
  | pe32 => "PE32"
  | pe32Plus => "PE32+"

/-- Whether addresses are 64 bits wide. -/
def isWide : Architecture → Bool
  | pe32 => false
  | pe32Plus => true

/-- The number of bytes of an entry of an import lookup table. -/
def thunkWidth : Architecture → Nat
  | pe32 => 4
  | pe32Plus => 8

/-- **The bit that marks an import by number**: the highest one of an entry. -/
def ordinalFlag : Architecture → UInt64
  | pe32 => 0x80000000
  | pe32Plus => 0x8000000000000000

/-- Where in the optional header the number of data directories stands. -/
def directoryCountOffset : Architecture → Nat
  | pe32 => 92
  | pe32Plus => 108

/-- Where in the optional header the data directories start. -/
def directoriesOffset : Architecture → Nat
  | pe32 => 96
  | pe32Plus => 112

/-- Each layout is announced by its own magic word. -/
@[simp]
theorem ofMagic?_magic (a : Architecture) : ofMagic? a.magic = some a := by
  cases a <;> rfl

/-- The directories start right behind their number. -/
theorem directoriesOffset_eq (a : Architecture) :
    a.directoriesOffset = a.directoryCountOffset + 4 := by
  cases a <;> rfl

theorem thunkWidth_pos (a : Architecture) : 0 < a.thunkWidth := by
  cases a <;> decide

end Architecture

end DriverAudit
