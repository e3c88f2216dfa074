import DriverAudit.Bytes.Read
import DriverAudit.Image.Architecture

/-!
# Images to order

To see how a walk treats an import table one needs an image that has it. A
*blueprint* says what an image should import; `Blueprint.build`, in
`DriverAudit.Image.Build`, makes the image. It has one section, loaded at one
fixed address, with everything that the import table needs and nothing else:

* the descriptors and their end mark,
* for each module its lookup table and its address table, each with an end
  mark of its own,
* for each module its hint/name entries and the name of the module.

This module says where all of that goes. Positions count from the start of
the section, and each piece follows the one before it. A hint/name entry is
followed by one more zero byte where the next position would otherwise be odd;
the name of a module is not.
-/

namespace DriverAudit

/-- **A thunk to write.** -/
inductive ThunkSpec where
  /-- An import by name. -/
  | name (text : String)
  /-- An import by number. -/
  | ordinal (number : UInt16)
  /-- The bits of the thunk, whatever they mean. -/
  | raw (bits : UInt64)
  deriving DecidableEq, Repr

/-- **A module to import from.** -/
structure ModuleSpec where
  name : String
  thunks : List ThunkSpec
  /-- Whether the descriptor refers to the lookup table. -/
  hasLookupTable : Bool := true
  /-- The address that the descriptor gives for the name, if not the right
  one. -/
  nameAddress : Option UInt32 := none
  deriving DecidableEq, Repr

/-- **What an image should import.** -/
structure Blueprint where
  architecture : Architecture
  modules : List ModuleSpec
  /-- Whether there is an import directory. -/
  hasImportDirectory : Bool := true
  /-- The address that the import directory gives, if not the right one. -/
  importDirectoryAddress : Option UInt32 := none
  /-- How many more descriptors refer to the first module. -/
  sharedDescriptors : Nat := 0
  deriving DecidableEq, Repr

/-- **Where the pieces of a module go.** -/
structure ModuleLayout where
  lookupTable : Nat
  addressTable : Nat
  /-- For each thunk the position of its hint/name entry, if it has one. -/
  hintNames : List (Option Nat)
  name : Nat
  deriving DecidableEq, Repr

namespace Blueprint

/-- The address at which the section is loaded. -/
def sectionAddress : Nat := 0x1000

/-- Where the section starts in the file. -/
def sectionOffset : Nat := 0x200

/-- The size of which every part of the file is a multiple. -/
def fileAlignment : Nat := 0x200

/-- The number of bytes of a descriptor. -/
def descriptorSize : Nat := 20

/-! ## Sizes -/

/-- The number of descriptors. Only a module can be shared. -/
def descriptorCount (b : Blueprint) : Nat :=
  if b.modules.isEmpty then 0 else b.modules.length + b.sharedDescriptors

/-- The number of bytes of the descriptors with their end mark. -/
def descriptorTableSize (b : Blueprint) : Nat :=
  (b.descriptorCount + 1) * descriptorSize

/-- Where the descriptors start in the file. -/
def tableStart : Nat := sectionOffset

/-- Where the descriptors end in the file. -/
def tableEnd (b : Blueprint) : Nat := sectionOffset + b.descriptorTableSize

/-- The number of bytes of a table of thunks with its end mark. -/
def thunkTableSize (a : Architecture) (m : ModuleSpec) : Nat :=
  (m.thunks.length + 1) * a.thunkWidth

/-! ## Positions -/

/-- The positions of the lookup tables, each followed by its address table,
from a position on; and the position behind them. -/
def placeTables (a : Architecture) :
    Nat → List ModuleSpec → List Nat × Nat
  | position, [] => ([], position)
  | position, m :: rest =>
    let (places, last) :=
      placeTables a (position + 2 * thunkTableSize a m) rest
    (position :: places, last)

/-- The position behind a hint/name entry. -/
def afterHintName (position : Nat) (text : String) : Nat :=
  alignUp (position + 2 + text.utf8ByteSize + 1) 2

/-- The positions of the hint/name entries of a module, and the position
behind them. -/
def placeHintNames : Nat → List ThunkSpec → List (Option Nat) × Nat
  | position, [] => ([], position)
  | position, .name text :: rest =>
    let (places, last) := placeHintNames (afterHintName position text) rest
    (some position :: places, last)
  | position, _ :: rest =>
    let (places, last) := placeHintNames position rest
    (none :: places, last)

/-- The positions of the names of all modules, each with the hint/name
entries that precede it; and the position behind them. -/
def placeNames :
    Nat → List ModuleSpec → List (List (Option Nat) × Nat) × Nat
  | position, [] => ([], position)
  | position, m :: rest =>
    let (hintNames, name) := placeHintNames position m.thunks
    let (places, last) := placeNames (name + m.name.utf8ByteSize + 1) rest
    ((hintNames, name) :: places, last)

/-- **The layout of the section**: where the pieces of each module go, and
how much of the section they use. -/
def layout (b : Blueprint) : List ModuleLayout × Nat :=
  let (tables, behind) :=
    placeTables b.architecture b.descriptorTableSize b.modules
  let (names, used) := placeNames behind b.modules
  let place := fun (m : ModuleSpec) (t : Nat) (n : List (Option Nat) × Nat) =>
    { lookupTable := t
      addressTable := t + thunkTableSize b.architecture m
      hintNames := n.1
      name := n.2 : ModuleLayout }
  (List.zipWith (fun f n => f n) (List.zipWith place b.modules tables) names,
   used)

/-- The size of the section, which is never empty. -/
def sectionSize (b : Blueprint) : Nat :=
  max (alignUp b.layout.2 fileAlignment) fileAlignment

end Blueprint

end DriverAudit
