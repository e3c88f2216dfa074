import DriverAudit.Image.Error

/-!
# Import descriptors

An image that imports anything has one descriptor for each module it imports
from. The descriptor gives the address of the module's name and of two tables
with an entry for each import. Before an image is loaded both tables hold the
same; loading it, or binding it ahead of time, overwrites the *address table*,
while the *lookup table* stays what it was. So the lookup table is read where
there is one, and the address table only where there is none.
-/

namespace DriverAudit

/-- **An import descriptor.** -/
structure Descriptor where
  /-- The address of the table that loading leaves alone, or zero. -/
  lookupTable : UInt32
  timestamp : UInt32
  forwarderChain : UInt32
  /-- The address of the name of the module. -/
  moduleName : UInt32
  /-- The address of the table that loading overwrites. -/
  addressTable : UInt32
  deriving DecidableEq, Repr

namespace Descriptor

/-- The number of bytes of a descriptor. -/
def byteSize : Nat := 20

/-- The descriptor at an offset. -/
def atOffset (d : ByteArray) (offset : Nat) : Descriptor where
  lookupTable := UInt32.ofNat (wordAt d offset 4)
  timestamp := UInt32.ofNat (wordAt d (offset + 4) 4)
  forwarderChain := UInt32.ofNat (wordAt d (offset + 8) 4)
  moduleName := UInt32.ofNat (wordAt d (offset + 12) 4)
  addressTable := UInt32.ofNat (wordAt d (offset + 16) 4)

/-- **The descriptor at the start of some data**, which must hold each of its
fields. -/
def read (d : ByteArray) : Except ImageError Descriptor := do
  let lookupTable ← ofRead (u32At d 0)
  let timestamp ← ofRead (u32At d 4)
  let forwarderChain ← ofRead (u32At d 8)
  let moduleName ← ofRead (u32At d 12)
  let addressTable ← ofRead (u32At d 16)
  return { lookupTable, timestamp, forwarderChain, moduleName, addressTable }

/-- The descriptor that marks the end of the descriptors. -/
def sentinel : Descriptor := ⟨0, 0, 0, 0, 0⟩

/-- Whether a descriptor marks the end. -/
def isSentinel (x : Descriptor) : Bool := x == sentinel

/-- **The address of the table to read**: the lookup table if there is one,
else the address table. -/
def thunkAddress (x : Descriptor) : UInt32 :=
  if x.lookupTable ≠ 0 then x.lookupTable else x.addressTable

end Descriptor

end DriverAudit
