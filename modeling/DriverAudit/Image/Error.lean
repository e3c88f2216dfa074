import DriverAudit.Bytes.Read

/-!
# Why an image is refused

Everything that can be wrong with an image, from its first word to an entry of
its import table. An offset is a position in the file; an address is relative
to where the image would be loaded.
-/

namespace DriverAudit

/-- **What is wrong with an image.** -/
inductive ImageError where
  /-- One of the two signatures is missing. -/
  | notAnImage
  /-- A part of it lies outside the file, or has no end. -/
  | unreadable (fault : ReadFault)
  /-- The optional header opens with a word that announces no known layout. -/
  | unsupportedMagic (magic : UInt16)
  /-- The import directory has an address that no section covers. -/
  | importDirectoryUnmapped (address : UInt32)
  /-- The import descriptors run out of the file before their end mark. -/
  | importTableTruncated (offset : Nat)
  /-- An address that no section covers. -/
  | unmapped (address : UInt64)
  deriving DecidableEq, Repr

namespace ImageError

/-- The text of an error. -/
def message : ImageError → String
  | notAnImage => "Not a PE file"
  | unreadable fault => fault.message
  | unsupportedMagic magic =>
    "Unsupported optional header magic: " ++ Radix.hex 4 magic.toNat
  | importDirectoryUnmapped address =>
    "Import directory RVA " ++ Radix.hex 8 address.toNat
      ++ " is not backed by any section"
  | importTableTruncated offset =>
    "Import table truncated before its sentinel descriptor (offset "
      ++ Radix.hex 1 offset ++ ")"
  | unmapped address =>
    "RVA " ++ Radix.hex 1 address.toNat ++ " is not mapped by any section"

end ImageError

/-- A read from an image: its failure is one of the image. -/
def ofRead {α : Type} : Except ReadFault α → Except ImageError α
  | .ok value => .ok value
  | .error fault => .error (.unreadable fault)

@[simp]
theorem ofRead_ok {α : Type} (value : α) : ofRead (.ok value) = .ok value := rfl

@[simp]
theorem ofRead_error {α : Type} (fault : ReadFault) :
    ofRead (.error fault : Except ReadFault α) = .error (.unreadable fault) := rfl

end DriverAudit
