import DriverAudit.Image.Error

/-!
# Sections, and where an address lies in the file

A section is a run of the file that is loaded at an address. Everything inside
an image refers to everything else by address, so following a reference means
finding the section that covers the address and going to the same distance in
the section's run of the file.

Nothing is promised about the sections of an image: they may be out of order,
overlap, or claim more than the file has. The first one in the table that
covers an address decides, and the file offset that results need not be inside
the file. The range a section covers does not wrap around: it may end past the
last 32-bit address.
-/

namespace DriverAudit

/-- **A section header**, with the fields that locate the section. -/
structure Section where
  /-- The name, padded with zero bytes. -/
  rawName : Vector UInt8 8
  virtualSize : UInt32
  virtualAddress : UInt32
  rawSize : UInt32
  rawOffset : UInt32
  flags : UInt32
  deriving DecidableEq, Repr

/-- The number of bytes of a section header. -/
def Section.headerSize : Nat := 40

namespace Section

/-- The name as text, up to the first zero byte. -/
def nameOf (rawName : Vector UInt8 8) : String :=
  Utf8.decode (rawName.toList.takeWhile (· ≠ 0))

/-- The name of a section. -/
def name (s : Section) : String := nameOf s.rawName

/-- The number of addresses covered: the larger of the two sizes. -/
def mappedSize (s : Section) : UInt32 := max s.virtualSize s.rawSize

/-- **Whether an address lies in the section.** -/
def contains (s : Section) (address : UInt32) : Bool :=
  s.virtualAddress.toNat ≤ address.toNat
    && address.toNat < s.virtualAddress.toNat + s.mappedSize.toNat

/-- The file offset of an address that lies in the section. -/
def offsetOf (s : Section) (address : UInt32) : Nat :=
  s.rawOffset.toNat + (address.toNat - s.virtualAddress.toNat)

/-- The section header at an offset of the file. -/
def headerAt (d : ByteArray) (offset : Nat) : Section where
  rawName := Vector.ofFn fun i => byteAt d (offset + i.val)
  virtualSize := UInt32.ofNat (wordAt d (offset + 8) 4)
  virtualAddress := UInt32.ofNat (wordAt d (offset + 12) 4)
  rawSize := UInt32.ofNat (wordAt d (offset + 16) 4)
  rawOffset := UInt32.ofNat (wordAt d (offset + 20) 4)
  flags := UInt32.ofNat (wordAt d (offset + 36) 4)

end Section

/-! ## Section tables -/

/-- The sections of an image, in the order of its section headers. -/
abbrev SectionTable := List Section

namespace SectionTable

/-- The section that decides where an address lies. -/
def covering? (t : SectionTable) (address : UInt32) : Option Section :=
  t.find? (·.contains address)

/-- The first section with a name. -/
def named? (t : SectionTable) (name : String) : Option Section :=
  t.find? (·.name == name)

/-- **The file offset of an address.** -/
def fileOffset (t : SectionTable) (address : UInt32) :
    Except ImageError Nat :=
  match t.covering? address with
  | some s => .ok (s.offsetOf address)
  | none => .error (.unmapped address.toUInt64)

/-- **The section headers at an offset of the file**, `count` of them. The
first header that is not wholly inside the file refuses the table. -/
def headersAt (d : ByteArray) (offset count : Nat) :
    Except ImageError SectionTable :=
  let place := fun i : Nat => offset + i * Section.headerSize
  match (List.range count).find? fun i =>
      !covers d (place i) Section.headerSize with
  | some i =>
    .error (.unreadable (.outOfBounds (place i) Section.headerSize d.size))
  | none => .ok ((List.range count).map fun i => Section.headerAt d (place i))

end SectionTable

end DriverAudit
