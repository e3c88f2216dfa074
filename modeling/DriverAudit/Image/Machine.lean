/-!
# Processor families

The file header names the processor that an image was built for by a 16-bit
code. A few codes have names here; any other code is kept as it is.
-/

namespace DriverAudit

/-- **The processor an image is built for.** -/
inductive Machine where
  /-- The code that names no processor. -/
  | unknown
  | i386
  | x86_64
  | arm
  | arm64
  | armNT
  | ia64
  /-- A code without a name here. -/
  | other (code : UInt16)
  deriving DecidableEq, Repr, Inhabited

namespace Machine

/-- The processor that a code names. -/
def ofCode (code : UInt16) : Machine :=
  if code = 0x014C then i386
  else if code = 0x8664 then x86_64
  else if code = 0x01C0 then arm
  else if code = 0xAA64 then arm64
  else if code = 0x01C4 then armNT
  else if code = 0x0200 then ia64
  else if code = 0 then unknown
  else other code

/-- The code of a processor. -/
def code : Machine → UInt16
  | unknown => 0
  | i386 => 0x014C
  | x86_64 => 0x8664
  | arm => 0x01C0
  | arm64 => 0xAA64
  | armNT => 0x01C4
  | ia64 => 0x0200
  | other code => code

/-- Reading a code loses nothing. -/
@[simp]
theorem code_ofCode (c : UInt16) : (ofCode c).code = c := by
  unfold ofCode
  repeat' split
  all_goals simp_all [code]

end Machine

end DriverAudit
