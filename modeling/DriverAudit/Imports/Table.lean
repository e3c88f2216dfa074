import DriverAudit.Text.NameSet

/-!
# Import tables

What an image imports, module by module. Damage does not hide the rest of a
table: what could not be read is counted, per module for single imports and
per table for whole modules, and so is what the limit on imports left unread.
-/

namespace DriverAudit

/-- **One import**: by number, or by name with a hint where the name is likely
to be found. -/
inductive ImportEntry where
  | byOrdinal (ordinal : UInt16)
  | byName (hint : UInt16) (name : String)
  deriving DecidableEq, Repr

/-- The name of an import by name. -/
def ImportEntry.name? : ImportEntry → Option String
  | byOrdinal _ => none
  | byName _ name => some name

/-- Whether an import is by number. -/
def ImportEntry.isOrdinal : ImportEntry → Bool
  | byOrdinal _ => true
  | byName .. => false

/-- **The imports from one module.** -/
structure ImportModule where
  name : String
  entries : List ImportEntry
  /-- How many imports could not be read. -/
  skippedEntries : Nat
  deriving DecidableEq, Repr

/-- **What an image imports.** -/
structure ImportTable where
  modules : List ImportModule
  /-- How many modules could not be read at all. -/
  skippedModules : Nat
  /-- How many modules the limit on imports cut short or left out. -/
  limitedModules : Nat
  deriving DecidableEq, Repr

namespace ImportTable

/-- The table of an image that imports nothing. -/
def empty : ImportTable := ⟨[], 0, 0⟩

/-- All imports, in the order of the table. -/
def entries (t : ImportTable) : List ImportEntry :=
  t.modules.flatMap (·.entries)

/-- The number of imports. -/
def count (t : ImportTable) : Nat :=
  t.modules.foldr (fun m n => m.entries.length + n) 0

/-- The number of imports by number. -/
def ordinalCount (t : ImportTable) : Nat := t.entries.countP (·.isOrdinal)

/-- The number of imports that could not be read, over all modules. -/
def skippedEntries (t : ImportTable) : Nat :=
  t.modules.foldr (fun m n => m.skippedEntries + n) 0

/-- Whether the limit on imports was reached. -/
def isLimited (t : ImportTable) : Bool := 0 < t.limitedModules

/-- **The names that are imported**, from whatever module. -/
def names (t : ImportTable) : NameSet :=
  NameSet.ofList (t.entries.filterMap (·.name?))

/-- The names of the modules, in the order of the table. -/
def moduleNames (t : ImportTable) : List String := t.modules.map (·.name)

/-- Whether a name is imported. -/
def imports (t : ImportTable) (name : String) : Bool :=
  t.entries.any fun e => e.name? == some name

/-- The entries of all modules are counted. -/
theorem count_eq_length_entries (t : ImportTable) :
    t.count = t.entries.length := by
  unfold count entries
  induction t.modules with
  | nil => rfl
  | cons m rest ih =>
    rw [List.foldr_cons, List.flatMap_cons, List.length_append, ih]

/-- A name is imported exactly when it is in the set of names. -/
theorem imports_iff {t : ImportTable} {name : String} :
    t.imports name = true ↔ name ∈ t.names := by
  simp [imports, names]

end ImportTable

end DriverAudit
