import DriverAudit.Text.NameSet

/-!
# The routines a scan looks for

Most drivers never touch physical memory or map a view of a section. The
routines that do are the usual means by which a flawed driver hands control of
the machine to any program, so a driver that imports one of them deserves a
second look.
-/

namespace DriverAudit

/-- **The routines that are looked for** unless settings name others. -/
def dangerousRoutines : List String :=
  ["MmCopyVirtualMemory",
   "MmMapIoSpace",
   "MmMapIoSpaceEx",
   "MmGetPhysicalAddress",
   "MmCopyMemory",
   "MmMapLockedPages",
   "MmMapLockedPagesSpecifyCache",
   "ZwMapViewOfSection",
   "ZwOpenSection",
   "MmGetVirtualForPhysical"]

/-- The same routines as a set. -/
def dangerousTargets : NameSet := NameSet.ofList dangerousRoutines

end DriverAudit
