import DriverAudit.Event
import DriverAudit.Image.Headers
import DriverAudit.Imports.Descriptor
import DriverAudit.Imports.RecordArray
import DriverAudit.Imports.Table

/-!
# Walking the import table

An import table has three levels: descriptors, each with a table of *thunks*,
each of which is a number or points to a name. The first two are arrays that
end with a record of zeros.

## Damage

Only the array of descriptors itself is essential: without its address, or
without its end mark, there is no telling what the image imports, and the walk
fails. Everything a descriptor points to may be damaged without harm to the
rest. A module whose name or table cannot be reached is passed over, and so is
a thunk whose name cannot be read; a table of thunks that runs out of the file
counts as one more thunk passed over. Each of these is said in an event.

## The budget

Descriptors may share one table of thunks, so that a small file can stand for
a very large import table. The walk therefore has a budget: every descriptor
costs one, and so does every thunk. A descriptor that turns out unreadable has
been paid for. A table of thunks is cut short by a budget that does not reach
its last thunk, and one that is reached exactly is not cut. Descriptors beyond
the budget are not followed, but the end mark behind them is still asked for.
-/

namespace DriverAudit

/-- **How far a walk goes.** Names are read up to a ceiling, and imports up to
a budget. -/
structure ParseLimits where
  nameLength : Nat
  moduleNameLength : Nat
  imports : Nat
  deriving DecidableEq, Repr

/-- The limits of a walk that nobody limits otherwise. -/
def ParseLimits.default : ParseLimits := ⟨512, 256, 10000⟩

instance : Inhabited ParseLimits := ⟨.default⟩

/-- **What a walk looks at**: the file, and what its headers say about it. -/
structure ImportSource where
  data : ByteArray
  sections : SectionTable
  architecture : Architecture
  limits : ParseLimits

namespace ImportSource

/-! ## Thunks -/

/-- A thunk, which is as wide as the layout says. -/
def thunkAt (s : ImportSource) (offset : Nat) : UInt64 :=
  UInt64.ofNat (wordAt s.data offset s.architecture.thunkWidth)

/-- The table of thunks at an offset. -/
def thunkArray (s : ImportSource) (offset : Nat) : RecordArray :=
  RecordArray.measure s.data s.architecture.thunkWidth offset

/-- **What a thunk stands for.** With the flag set it is a number, in its low
16 bits; else it is the address of a hint and a name. -/
def resolve (s : ImportSource) (thunk : UInt64) :
    Except ImageError ImportEntry :=
  if thunk &&& s.architecture.ordinalFlag ≠ 0 then
    .ok (.byOrdinal thunk.toUInt16)
  else if thunk.toNat < UInt32.size then do
    let offset ← s.sections.fileOffset thunk.toUInt32
    let hint ← ofRead (u16At s.data offset)
    let name ← ofRead (stringAt s.data (offset + 2) s.limits.nameLength)
    return .byName hint name
  else .error (.unmapped thunk)

/-- A thunk with its offset and what became of it. -/
structure Resolution where
  offset : Nat
  thunk : UInt64
  result : Except ImageError ImportEntry

/-- The import, if there is one. -/
def Resolution.found? (r : Resolution) : Option ImportEntry :=
  r.result.toOption

/-- The event of a thunk that is passed over. -/
def Resolution.event? (module : String) (r : Resolution) : Option Event :=
  match r.result with
  | .ok _ => none
  | .error e => some (.thunkSkipped module r.offset r.thunk e)

/-- The thunk at an offset, resolved. -/
def resolutionAt (s : ImportSource) (offset : Nat) : Resolution :=
  let thunk := s.thunkAt offset
  ⟨offset, thunk, s.resolve thunk⟩

/-! ## Modules -/

/-- **What a descriptor contributes.** -/
structure Contribution where
  module : ImportModule
  /-- Whether the budget cut the table of thunks short. -/
  limited : Bool
  /-- How much of the budget the thunks used up. -/
  spent : Nat
  events : List Event

/-- The error of reading a thunk beyond the end of the file. -/
def thunkError (s : ImportSource) (offset : Nat) : ImageError :=
  .unreadable
    (.outOfBounds offset s.architecture.thunkWidth s.data.size)

/-- **The imports of a module** whose table of thunks starts at `offset`, with
what is left of the budget. -/
def moduleAt (s : ImportSource) (budget : Nat) (name : String)
    (offset : Nat) : Contribution :=
  let width := s.architecture.thunkWidth
  let array := s.thunkArray offset
  let read := (array.offsets width offset).take budget
  let resolutions := read.map s.resolutionAt
  let entries := resolutions.filterMap (·.found?)
  let unresolved := resolutions.filterMap (·.event? name)
  let limited := budget < array.count
  let endOffset := offset + array.count * width
  let cutOff :=
    if !limited && array.ending = .endOfFile then
      [Event.thunksCutOff name endOffset (s.thunkError endOffset)]
    else []
  { module := ⟨name, entries, unresolved.length + cutOff.length⟩
    limited
    spent := read.length
    events := unresolved ++ cutOff }

/-- **The module of a descriptor**, with what is left of the budget. -/
def readModule (s : ImportSource) (budget : Nat) (x : Descriptor) :
    Except ImageError Contribution := do
  let nameOffset ← s.sections.fileOffset x.moduleName
  let name ←
    ofRead (stringAt s.data nameOffset s.limits.moduleNameLength)
  if x.thunkAddress = 0 then
    return { module := ⟨name, [], 0⟩, limited := false, spent := 0,
             events := [] }
  else
    let offset ← s.sections.fileOffset x.thunkAddress
    return s.moduleAt budget name offset

/-! ## The table -/

/-- **A walk under way**: what is left of the budget, and what has been found
so far. -/
structure Progress where
  budget : Nat
  modules : Array ImportModule
  skippedModules : Nat
  limitedModules : Nat
  events : Array Event

/-- The start of a walk. -/
def Progress.start (budget : Nat) : Progress := ⟨budget, #[], 0, 0, #[]⟩

/-- What has been found so far, as a table. -/
def Progress.table (p : Progress) : ImportTable :=
  ⟨p.modules.toList, p.skippedModules, p.limitedModules⟩

/-- **One descriptor further.** -/
def advance (s : ImportSource) (p : Progress) (offset : Nat) : Progress :=
  match p.budget with
  | 0 => { p with limitedModules := p.limitedModules + 1 }
  | budget + 1 =>
    let x := Descriptor.atOffset s.data offset
    match s.readModule budget x with
    | .ok c =>
      { budget := budget - c.spent
        modules := p.modules.push c.module
        skippedModules := p.skippedModules
        limitedModules := p.limitedModules + if c.limited then 1 else 0
        events := p.events ++ c.events }
    | .error e =>
      { p with
        budget
        skippedModules := p.skippedModules + 1
        events := p.events.push
          (.descriptorSkipped offset x.moduleName x.thunkAddress e) }

/-- The array of descriptors at an offset. -/
def descriptorArray (s : ImportSource) (offset : Nat) : RecordArray :=
  RecordArray.measure s.data Descriptor.byteSize offset

/-- **The import table** whose descriptors start at an offset of the file. -/
def tableAt (s : ImportSource) (offset : Nat) :
    Traced (Except ImageError ImportTable) :=
  let array := s.descriptorArray offset
  let p := (array.offsets Descriptor.byteSize offset).foldl s.advance
    (.start s.limits.imports)
  match array.ending with
  | .endOfFile =>
    ⟨.error (.importTableTruncated
      (offset + array.count * Descriptor.byteSize)), p.events.toList⟩
  | .terminator =>
    let table := p.table
    let limit :=
      if table.isLimited then
        [Event.importLimitReached s.limits.imports table.limitedModules
          table.count]
      else []
    ⟨.ok table, p.events.toList ++ limit⟩

/-- **The import table** that a directory locates. An image without the
directory imports nothing. -/
def walk (s : ImportSource) (directory : DataDirectory) :
    Traced (Except ImageError ImportTable) :=
  if directory.isPresent then
    match s.sections.fileOffset directory.address with
    | .ok offset => s.tableAt offset
    | .error _ => return .error (.importDirectoryUnmapped directory.address)
  else return .ok .empty

end ImportSource

end DriverAudit
