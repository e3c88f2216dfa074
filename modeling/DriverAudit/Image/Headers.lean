import DriverAudit.Image.Architecture
import DriverAudit.Image.Machine
import DriverAudit.Image.Section

/-!
# The headers of an image

An image opens with a stub header whose only use is to say where the real
headers are: a signature, the file header, the optional header and the section
headers, one behind the other.

The file header declares how long the optional header is, and the declaration
is taken at its word. Fields that the layout places behind the declared end do
not belong to the header and are not read, even where the file has bytes
there; without them an image has no data directories and hence no imports. The
section headers start at the declared end.
-/

namespace DriverAudit

/-! ## The parts -/

/-- The opening header: its signature, and where the real headers are. -/
structure StubHeader where
  magic : UInt16
  ntOffset : UInt32
  deriving DecidableEq, Repr

/-- The file header. -/
structure FileHeader where
  machine : Machine
  sectionCount : UInt16
  timestamp : UInt32
  optionalSize : UInt16
  flags : UInt16
  deriving DecidableEq, Repr

/-- **A data directory**: the address and size of one of the tables of an
image. The address zero says that there is no such table. -/
structure DataDirectory where
  address : UInt32
  size : UInt32
  deriving DecidableEq, Repr, Inhabited

/-- The directory of a table that is not there. -/
def DataDirectory.absent : DataDirectory := ⟨0, 0⟩

/-- Whether there is a table. -/
def DataDirectory.isPresent (d : DataDirectory) : Bool := d.address != 0

/-- The optional header, as far as imports need it. -/
structure OptionalHeader where
  architecture : Architecture
  imageBase : UInt64
  directoryCount : UInt32
  imports : DataDirectory
  deriving DecidableEq, Repr

/-- **The headers of an image.** -/
structure Headers where
  stub : StubHeader
  file : FileHeader
  optional : OptionalHeader
  sections : SectionTable
  deriving DecidableEq, Repr

/-! ## Reading them -/

/-- The signature of the opening header, the letters `MZ`. -/
def StubHeader.signature : UInt16 := 0x5A4D

/-- Where the opening header keeps the offset of the real headers. -/
def StubHeader.ntOffsetField : Nat := 0x3C

/-- The signature of the real headers: the letters `PE` and two zero bytes. -/
def Headers.signature : List UInt8 := [0x50, 0x45, 0, 0]

/-- The number of bytes of the signature together with the file header. -/
def Headers.fixedSize : Nat := 24

/-- The number of bytes of the file header. -/
def FileHeader.byteSize : Nat := 20

/-- The number of bytes of a data directory. -/
def DataDirectory.byteSize : Nat := 8

/-- The place of the import directory among the data directories. -/
def DataDirectory.importIndex : Nat := 1

/-- **The opening header.** Without its signature the data is no image at all,
however short it is; the real headers it points to must be inside the file. -/
def StubHeader.read (d : ByteArray) : Except ImageError StubHeader :=
  match u16At d 0 with
  | .error _ => .error .notAnImage
  | .ok magic =>
    if magic ≠ signature then .error .notAnImage
    else do
      let ntOffset ← ofRead (u32At d ntOffsetField)
      let _ ← ofRead (bytesAt d ntOffset.toNat Headers.fixedSize)
      return { magic, ntOffset }

/-- **The file header** at an offset. -/
def FileHeader.read (d : ByteArray) (offset : Nat) :
    Except ImageError FileHeader := do
  let _ ← ofRead (bytesAt d offset byteSize)
  let machine ← ofRead (u16At d offset)
  let sectionCount ← ofRead (u16At d (offset + 2))
  let timestamp ← ofRead (u32At d (offset + 4))
  let optionalSize ← ofRead (u16At d (offset + 16))
  let flags ← ofRead (u16At d (offset + 18))
  return { machine := Machine.ofCode machine, sectionCount, timestamp,
           optionalSize, flags }

namespace OptionalHeader

/-- Where the import directory stands in an optional header. -/
def importsOffset (a : Architecture) : Nat :=
  a.directoriesOffset + DataDirectory.importIndex * DataDirectory.byteSize

/-- The preferred load address, whose width goes by the layout. -/
def readImageBase (d : ByteArray) (offset : Nat) :
    Architecture → Except ImageError UInt64
  | .pe32 => do return (← ofRead (u32At d (offset + 28))).toUInt64
  | .pe32Plus => ofRead (u64At d (offset + 24))

/-- The number of data directories, zero where the declared `size` leaves no
room for it. -/
def readDirectoryCount (d : ByteArray) (offset size : Nat)
    (a : Architecture) : Except ImageError UInt32 :=
  if a.directoryCountOffset + 4 ≤ size then
    ofRead (u32At d (offset + a.directoryCountOffset))
  else .ok 0

/-- The import directory, absent where the declared `size` leaves no room for
it or the number of directories does not reach it. -/
def readImports (d : ByteArray) (offset size : Nat) (a : Architecture)
    (count : UInt32) : Except ImageError DataDirectory :=
  if DataDirectory.importIndex < count.toNat
      ∧ importsOffset a + DataDirectory.byteSize ≤ size then do
    let address ← ofRead (u32At d (offset + importsOffset a))
    let size ← ofRead (u32At d (offset + importsOffset a + 4))
    return { address, size }
  else .ok DataDirectory.absent

/-- **The optional header** at an offset, of the declared `size`. -/
def read (d : ByteArray) (offset : Nat) (size : UInt16) :
    Except ImageError OptionalHeader := do
  let magic ← ofRead (u16At d offset)
  match Architecture.ofMagic? magic with
  | none => .error (.unsupportedMagic magic)
  | some architecture =>
    let imageBase ← readImageBase d offset architecture
    let directoryCount ← readDirectoryCount d offset size.toNat architecture
    let imports ←
      readImports d offset size.toNat architecture directoryCount
    return { architecture, imageBase, directoryCount, imports }

end OptionalHeader

/-- **All headers of an image**, from the start of the file. -/
def Headers.read (d : ByteArray) : Except ImageError Headers := do
  let stub ← StubHeader.read d
  let nt := stub.ntOffset.toNat
  let found ← ofRead (bytesAt d nt signature.length)
  if found ≠ signature then .error .notAnImage
  else
    let file ← FileHeader.read d (nt + signature.length)
    let optionalOffset := nt + fixedSize
    let optional ← OptionalHeader.read d optionalOffset file.optionalSize
    let sections ← SectionTable.headersAt d
      (optionalOffset + file.optionalSize.toNat) file.sectionCount.toNat
    return { stub, file, optional, sections }

end DriverAudit
