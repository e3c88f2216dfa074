import DriverAudit.Image.Headers
import DriverAudit.Proofs.Bytes.Demands

/-!
# The format of the headers

The headers are accepted from a file that has their format and from no other
one, and then each field is the word at its place. `Headers.demands` is the
format as a list of demands in the order in which they are looked at, so that
the first one that is not met gives the error; `Headers.Format` is the same
without the order, field by field.

All places follow from three words of the file: the offset of the real headers,
the declared size of the optional header and the number of sections. The
declared size decides what belongs to the optional header. A field that it does
not cover is not asked for, and reads as zero whatever bytes the file has
there, but the section headers start behind the declared size even where that
is inside the optional header itself.
-/

namespace DriverAudit

variable (d : ByteArray)

/-! ## The opening header -/

namespace StubHeader

/-- The offset of the real headers that a file declares. -/
def declaredOffset : Nat := wordAt d ntOffsetField 4

/-- A file that opens with the letters `MZ`. -/
def Opens : Prop := Inside d 0 2 ∧ byteAt d 0 = 0x4D ∧ byteAt d 1 = 0x5A

/-- What the opening header demands. -/
def demands : List Demand :=
  [⟨Opens d, .notAnImage⟩,
   .inside d ntOffsetField 4,
   .inside d (declaredOffset d) Headers.fixedSize]

end StubHeader

/-! ## The file header -/

namespace FileHeader

/-- The words of a file header at an offset. -/
def atOffset (offset : Nat) : FileHeader where
  machine := Machine.ofCode (UInt16.ofNat (wordAt d offset 2))
  sectionCount := UInt16.ofNat (wordAt d (offset + 2) 2)
  timestamp := UInt32.ofNat (wordAt d (offset + 4) 4)
  optionalSize := UInt16.ofNat (wordAt d (offset + 16) 2)
  flags := UInt16.ofNat (wordAt d (offset + 18) 2)

variable {d}

end FileHeader

/-! ## The optional header -/

namespace OptionalHeader

/-- The layout that the first word of an optional header announces, the 32-bit
one if it announces none. -/
def layoutAt (offset : Nat) : Architecture :=
  (Architecture.ofMagic? (UInt16.ofNat (wordAt d offset 2))).getD .pe32

/-- Where the load address stands, which ends at the same place in both
layouts. -/
def baseOffset : Architecture → Nat
  | .pe32 => 28
  | .pe32Plus => 24

/-- The number of bytes of the load address. -/
def baseWidth : Architecture → Nat
  | .pe32 => 4
  | .pe32Plus => 8

/-- The load address, whose width goes by the layout. -/
def baseAt (offset : Nat) : Architecture → UInt64
  | .pe32 => (UInt32.ofNat (wordAt d (offset + 28) 4)).toUInt64
  | .pe32Plus => UInt64.ofNat (wordAt d (offset + 24) 8)

/-- A declared size that covers the number of directories. -/
def CoversCount (size : Nat) (a : Architecture) : Prop :=
  a.directoryCountOffset + 4 ≤ size

instance (size : Nat) (a : Architecture) : Decidable (CoversCount size a) :=
  inferInstanceAs (Decidable (_ ≤ _))

/-- The number of directories, zero where the declared size does not cover
it. -/
def countAt (offset size : Nat) (a : Architecture) : UInt32 :=
  if CoversCount size a then
    UInt32.ofNat (wordAt d (offset + a.directoryCountOffset) 4)
  else 0

/-- A declared size and a number of directories that both cover the import
directory. -/
def CoversImports (offset size : Nat) (a : Architecture) : Prop :=
  DataDirectory.importIndex < (countAt d offset size a).toNat
    ∧ importsOffset a + DataDirectory.byteSize ≤ size

instance (offset size : Nat) (a : Architecture) :
    Decidable (CoversImports d offset size a) :=
  inferInstanceAs (Decidable (_ ∧ _))

/-- The import directory, absent where it is not covered. -/
def importsAt (offset size : Nat) (a : Architecture) : DataDirectory :=
  if CoversImports d offset size a then
    ⟨UInt32.ofNat (wordAt d (offset + importsOffset a) 4),
      UInt32.ofNat (wordAt d (offset + importsOffset a + 4) 4)⟩
  else .absent

/-- The fields of an optional header of some declared size. -/
def atOffset (offset size : Nat) : OptionalHeader where
  architecture := layoutAt d offset
  imageBase := baseAt d offset (layoutAt d offset)
  directoryCount := countAt d offset size (layoutAt d offset)
  imports := importsAt d offset size (layoutAt d offset)

/-- The demand that the first word announces a layout. -/
def announces (offset : Nat) : Demand where
  met := wordAt d offset 2 = 0x10B ∨ wordAt d offset 2 = 0x20B
  error := .unsupportedMagic (UInt16.ofNat (wordAt d offset 2))

/-- What a layout demands: the load address, and where they are covered the
number of directories and the import directory. -/
def fieldDemands (offset size : Nat) (a : Architecture) : List Demand :=
  .inside d (offset + baseOffset a) (baseWidth a)
    :: [Demand.inside d (offset + a.directoryCountOffset) 4].map
        (.onlyIf (CoversCount size a))
    ++ [.inside d (offset + importsOffset a) 4,
        .inside d (offset + importsOffset a + 4) 4].map
        (.onlyIf (CoversImports d offset size a))

/-- **What an optional header demands.** -/
def demands (offset size : Nat) : List Demand :=
  .inside d offset 2 :: announces d offset
    :: fieldDemands d offset size (layoutAt d offset)

end OptionalHeader

/-! ## The section headers -/

/-- The bytes and words of a section header at an offset. -/
def Section.atOffset (offset : Nat) : Section where
  rawName := Vector.ofFn fun i => byteAt d (offset + i.val)
  virtualSize := UInt32.ofNat (wordAt d (offset + 8) 4)
  virtualAddress := UInt32.ofNat (wordAt d (offset + 12) 4)
  rawSize := UInt32.ofNat (wordAt d (offset + 16) 4)
  rawOffset := UInt32.ofNat (wordAt d (offset + 20) 4)
  flags := UInt32.ofNat (wordAt d (offset + 36) 4)

namespace SectionTable

/-- The section headers at an offset, one behind the other. -/
def atOffset (offset count : Nat) : SectionTable :=
  (List.range count).map fun i => Section.atOffset d (offset + i * 40)

/-- The demand that all section headers are inside the file. The error is that
of the first one that is not, which as many come before as have room. -/
def insideAll (offset count : Nat) : Demand where
  met := count = 0 ∨ Inside d offset (count * Section.headerSize)
  error := .unreadable (.outOfBounds
    (offset + (d.size - offset) / Section.headerSize * Section.headerSize)
    Section.headerSize d.size)

end SectionTable

/-! ## All headers -/

namespace Headers

/-- Where the optional header starts. -/
def optionalStart : Nat := StubHeader.declaredOffset d + fixedSize

/-- Where the file header starts. -/
def fileStart : Nat := StubHeader.declaredOffset d + signature.length

/-- The declared size of the optional header. -/
def optionalSize : Nat := wordAt d (fileStart d + 16) 2

/-- The declared number of sections. -/
def sectionCount : Nat := wordAt d (fileStart d + 2) 2

/-- Where the section headers start: behind the declared size. -/
def sectionsStart : Nat := optionalStart d + optionalSize d

/-- A file whose real headers start with the letters `PE` and two zeros. -/
def HasSignature : Prop :=
  byteAt d (StubHeader.declaredOffset d) = 0x50
    ∧ byteAt d (StubHeader.declaredOffset d + 1) = 0x45
    ∧ byteAt d (StubHeader.declaredOffset d + 2) = 0
    ∧ byteAt d (StubHeader.declaredOffset d + 3) = 0

/-- **What the headers demand**, in the order in which it is looked at. -/
def demands : List Demand :=
  StubHeader.demands d ++ ⟨HasSignature d, .notAnImage⟩
    :: (OptionalHeader.demands d (optionalStart d) (optionalSize d)
      ++ [SectionTable.insideAll d (sectionsStart d) (sectionCount d)])

variable {d}

variable (d)

end Headers

end DriverAudit
