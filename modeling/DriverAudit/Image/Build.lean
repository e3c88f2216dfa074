import DriverAudit.Image.Blueprint

/-!
# Building an image from its blueprint

The bytes of an image, piece by piece in the order in which they stand in the
file. Each piece has the size that the layout gave it, so that a piece written
behind the ones before it is at the position where the others expect it.
-/

namespace DriverAudit.Blueprint

/-! ## Words -/

/-- A run of zero bytes. -/
def zeros (n : Nat) : List UInt8 := List.replicate n 0

/-- Fill up with zero bytes to a size. -/
def padTo (size : Nat) (bytes : List UInt8) : List UInt8 :=
  bytes ++ zeros (size - bytes.length)

/-- The bytes of a text with a zero byte behind them. -/
def terminated (text : String) : List UInt8 :=
  text.toUTF8.data.toList ++ [0]

/-- The address of a position of the section. -/
def addressOf (position : Nat) : Nat :=
  (sectionAddress + position) % UInt32.size

/-! ## The section -/

/-- The descriptor of a module. -/
def descriptorBytes (m : ModuleSpec) (l : ModuleLayout) : List UInt8 :=
  let lookup := if m.hasLookupTable then addressOf l.lookupTable else 0
  let name := match m.nameAddress with
    | some address => address.toNat
    | none => addressOf l.name
  wordBytes 4 lookup ++ zeros 8 ++ wordBytes 4 name
    ++ wordBytes 4 (addressOf l.addressTable)

/-- **The bits of a thunk**, given the position of its hint/name entry. -/
def thunkBits (a : Architecture) : ThunkSpec → Option Nat → Nat
  | .name _, some position => addressOf position
  | .name _, none => 0
  | .ordinal number, _ => (a.ordinalFlag ||| number.toUInt64).toNat
  | .raw bits, _ => bits.toNat

/-- A table of thunks with its end mark. -/
def thunkTableBytes (a : Architecture) (m : ModuleSpec) (l : ModuleLayout) :
    List UInt8 :=
  (List.zipWith (thunkBits a) m.thunks l.hintNames).flatMap
    (wordBytes a.thunkWidth) ++ zeros a.thunkWidth

/-- The hint/name entry of the thunk in a slot, which is its own hint. -/
def hintNameBytes (slot : Nat) (text : String) (position : Nat) :
    List UInt8 :=
  padTo (afterHintName position text - position)
    (wordBytes 2 slot ++ terminated text)

/-- The hint/name entries of a module, from a slot on. -/
def hintNamesBytes : Nat → List ThunkSpec → List (Option Nat) → List UInt8
  | slot, .name text :: thunks, some position :: places =>
    hintNameBytes slot text position ++ hintNamesBytes (slot + 1) thunks places
  | slot, _ :: thunks, _ :: places => hintNamesBytes (slot + 1) thunks places
  | _, _, _ => []

/-- The hint/name entries of a module and its name. -/
def namesBytes (m : ModuleSpec) (l : ModuleLayout) : List UInt8 :=
  hintNamesBytes 0 m.thunks l.hintNames ++ terminated m.name

/-- **The bytes of the section.** -/
def sectionBytes (b : Blueprint) : List UInt8 :=
  let placed := b.modules.zip b.layout.1
  let descriptors := placed.map fun (m, l) => descriptorBytes m l
  let shared := List.replicate (b.descriptorCount - b.modules.length)
    (descriptors.headD [])
  padTo b.sectionSize <|
    descriptors.flatten ++ shared.flatten ++ zeros descriptorSize
      ++ placed.flatMap (fun (m, l) =>
          thunkTableBytes b.architecture m l
            ++ thunkTableBytes b.architecture m l)
      ++ placed.flatMap (fun (m, l) => namesBytes m l)

/-! ## The headers -/

/-- Where the real headers start. -/
def ntOffset : Nat := 0x80

/-- The number of data directories. -/
def directoryCount : Nat := 16

/-- The number of bytes of the optional header. -/
def optionalSize (a : Architecture) : Nat :=
  a.directoriesOffset + directoryCount * 8

/-- The code of the processor that goes with a layout. -/
def machineCode : Architecture → Nat
  | .pe32 => 0x014C
  | .pe32Plus => 0x8664

/-- The preferred load address, at the place and in the width of the layout. -/
def imageBaseBytes : Architecture → List UInt8
  | .pe32 => zeros 4 ++ wordBytes 4 0x10000
  | .pe32Plus => wordBytes 8 0x140000000

/-- The opening header, up to the real ones. -/
def stubBytes : List UInt8 :=
  padTo ntOffset (wordBytes 2 0x5A4D ++ zeros 58 ++ wordBytes 4 ntOffset)

/-- The signature and the file header. -/
def fileHeaderBytes (a : Architecture) : List UInt8 :=
  [0x50, 0x45, 0, 0] ++ wordBytes 2 (machineCode a) ++ wordBytes 2 1
    ++ zeros 12 ++ wordBytes 2 (optionalSize a) ++ wordBytes 2 2

/-- The import directory. -/
def importDirectoryBytes (b : Blueprint) : List UInt8 :=
  if b.hasImportDirectory then
    let address := match b.importDirectoryAddress with
      | some address => address.toNat
      | none => sectionAddress
    wordBytes 4 address ++ wordBytes 4 b.descriptorTableSize
  else zeros 8

/-- The optional header. -/
def optionalBytes (b : Blueprint) : List UInt8 :=
  let a := b.architecture
  let front :=
    wordBytes 2 a.magic.toNat ++ zeros 22 ++ imageBaseBytes a
      ++ wordBytes 4 0x1000 ++ wordBytes 4 fileAlignment ++ zeros 16
      ++ wordBytes 4 (sectionAddress + b.sectionSize)
      ++ wordBytes 4 sectionOffset ++ zeros 4 ++ wordBytes 2 1
  padTo (optionalSize a) <|
    padTo a.directoryCountOffset front ++ wordBytes 4 directoryCount
      ++ zeros 8 ++ b.importDirectoryBytes

/-- The header of the section. -/
def sectionHeaderBytes (b : Blueprint) : List UInt8 :=
  padTo 8 ".idata".toUTF8.data.toList ++ wordBytes 4 b.sectionSize
    ++ wordBytes 4 sectionAddress ++ wordBytes 4 b.sectionSize
    ++ wordBytes 4 sectionOffset ++ zeros 12 ++ wordBytes 4 0xC0000040

/-- **The image that a blueprint asks for.** -/
def build (b : Blueprint) : ByteArray :=
  ⟨(padTo sectionOffset
      (stubBytes ++ fileHeaderBytes b.architecture ++ b.optionalBytes
        ++ b.sectionHeaderBytes)
    ++ b.sectionBytes).toArray⟩

end DriverAudit.Blueprint
