import DriverAudit.Proofs.Image.Order

/-!
# The extents of the pieces of a section

An *extent* is a range of a section that one of its pieces takes up: what is
written there, and the zeros that end it. The descriptors have one, the tables
of a module have one each, and so have every hint/name entry and the name of
every module.

These extents stand in a row: each starts where the one before it ends, or one
byte later where an entry is followed by a byte to keep the next position even.
`Row` says so, and is carried through the two passes that make the layout. In a
row no two extents share a byte, and all of them are inside the section.
-/

namespace DriverAudit.Blueprint

/-! ## Rows of extents -/

/-- **The range of a piece**: its content, with an end mark behind it. -/
structure Extent where
  offset : Nat
  content : Nat
  endMark : Nat
  deriving DecidableEq, Repr

namespace Extent

/-- Where the end mark starts. -/
def markStart (x : Extent) : Nat := x.offset + x.content

/-- Where an extent ends. -/
def finish (x : Extent) : Nat := x.markStart + x.endMark

/-- One extent ends before the other starts, so that they share no byte. -/
def Before (x y : Extent) : Prop := x.finish ≤ y.offset

theorem offset_le_finish (x : Extent) : x.offset ≤ x.finish := by
  unfold finish markStart
  omega

end Extent

/-- **Extents in a row**, between two positions. -/
def Row : Nat → List Extent → Nat → Prop
  | first, [], last => first ≤ last
  | first, x :: rest, last => first ≤ x.offset ∧ Row x.finish rest last

namespace Row

variable {first mid last : Nat} {xs ys : List Extent}

/-- One row goes on where the other ends. -/
theorem append (hx : Row first xs mid) (hy : Row mid ys last) :
    Row first (xs ++ ys) last := by
  induction xs generalizing first with
  | nil =>
    cases ys with
    | nil => exact Nat.le_trans hx hy
    | cons y ys => exact ⟨Nat.le_trans hx hy.1, hy.2⟩
  | cons x xs ih => exact ⟨hx.1, ih hx.2⟩

/-- A row starts no earlier and ends no later than it is said to. -/
theorem within (h : Row first xs last) :
    first ≤ last ∧ ∀ x ∈ xs, first ≤ x.offset ∧ x.finish ≤ last := by
  induction xs generalizing first with
  | nil => exact ⟨h, fun x hx => absurd hx List.not_mem_nil⟩
  | cons x xs ih =>
    obtain ⟨hlast, hrest⟩ := ih h.2
    have hx := x.offset_le_finish
    refine ⟨Nat.le_trans h.1 (Nat.le_trans hx hlast), fun y hy => ?_⟩
    rcases List.mem_cons.1 hy with rfl | hy
    · exact ⟨h.1, hlast⟩
    · exact ⟨Nat.le_trans h.1 (Nat.le_trans hx (hrest y hy).1), (hrest y hy).2⟩

/-- **No two extents of a row share a byte.** -/
theorem pairwise (h : Row first xs last) : xs.Pairwise Extent.Before := by
  induction xs generalizing first with
  | nil => exact List.Pairwise.nil
  | cons x xs ih =>
    exact List.Pairwise.cons (fun y hy => (h.2.within.2 y hy).1) (ih h.2)

end Row

/-! ## The extents of a module -/

/-- The extents of both tables of a module: a slot for each thunk, and one
more that ends the table. -/
def tableExtents (a : Architecture) (x : ModuleSpec × ModuleLayout) :
    List Extent :=
  [⟨x.2.lookupTable, x.1.thunks.length * a.thunkWidth, a.thunkWidth⟩,
   ⟨x.2.addressTable, x.1.thunks.length * a.thunkWidth, a.thunkWidth⟩]

/-- The extent of the hint/name entry of a thunk, if it has one: a hint, a
name and a zero byte. -/
def hintNameExtent : ThunkSpec × Option Nat → Option Extent
  | (.name text, some position) => some ⟨position, 2 + text.utf8ByteSize, 1⟩
  | _ => none

/-- The extents of the hint/name entries of a module and of its name. -/
def nameExtents (x : ModuleSpec × ModuleLayout) : List Extent :=
  (x.1.thunks.zip x.2.hintNames).filterMap hintNameExtent
    ++ [⟨x.2.name, x.1.name.utf8ByteSize, 1⟩]

/-- **All extents of a section.** -/
def extents (b : Blueprint) : List Extent :=
  let placed := b.modules.zip b.layout.1
  ⟨0, b.descriptorCount * descriptorSize, descriptorSize⟩
    :: (placed.flatMap (tableExtents b.architecture)
      ++ placed.flatMap nameExtents)

variable {a : Architecture}

/-- The tables of all modules are in a row. -/
theorem row_tableExtents (table name : Nat) (ms : List ModuleSpec) :
    Row table ((placeModules a table name ms).flatMap (tableExtents a))
      (placeTables a table ms).2 := by
  induction ms generalizing table name with
  | nil => exact Nat.le_refl _
  | cons m rest ih =>
    have hslots : m.thunks.length * a.thunkWidth + a.thunkWidth
        = thunkTableSize a m := (Nat.succ_mul _ _).symm
    have hrow := ih (table + 2 * thunkTableSize a m)
      ((placeHintNames name m.thunks).2 + m.name.utf8ByteSize + 1)
    refine Row.append ?_ hrow
    simp only [tableExtents, Row, Extent.finish, Extent.markStart]
    omega

/-- The hint/name entries of a module are in a row. -/
theorem row_hintNames (position : Nat) (thunks : List ThunkSpec) :
    Row position ((thunks.zip (placeHintNames position thunks).1).filterMap
        hintNameExtent)
      (placeHintNames position thunks).2 := by
  induction thunks generalizing position with
  | nil => exact Nat.le_refl _
  | cons t rest ih =>
    cases t with
    | name text =>
      -- there may be a byte between an entry and the next one
      have hroom := hintName_le_afterHintName position text
      have hentry : Row position [⟨position, 2 + text.utf8ByteSize, 1⟩]
          (afterHintName position text) := by
        simp only [Row, Extent.finish, Extent.markStart]
        omega
      exact hentry.append (ih (afterHintName position text))
    | ordinal _ | raw _ => exact ih position

/-- The names of all modules are in a row, each behind its entries. -/
theorem row_nameExtents (table name : Nat) (ms : List ModuleSpec) :
    Row name ((placeModules a table name ms).flatMap nameExtents)
      (placeNames name ms).2 := by
  induction ms generalizing table name with
  | nil => exact Nat.le_refl _
  | cons m rest ih =>
    have hhints := row_hintNames name m.thunks
    have hname : Row (placeHintNames name m.thunks).2
        [⟨(placeHintNames name m.thunks).2, m.name.utf8ByteSize, 1⟩]
        ((placeHintNames name m.thunks).2 + m.name.utf8ByteSize + 1) :=
      ⟨Nat.le_refl _, Nat.le_refl _⟩
    exact (hhints.append hname).append (ih _ _)

/-! ## The extents of a section -/

variable (b : Blueprint)

/-- What is used of a section is no more than the section has. -/
theorem used_le_sectionSize : b.layout.2 ≤ b.sectionSize :=
  Nat.le_trans (le_alignUp _ (by decide)) (Nat.le_max_left _ _)

/-- An extent is that of the descriptors or belongs to a module. -/
theorem mem_extents_iff {x : Extent} :
    x ∈ b.extents
      ↔ x = ⟨0, b.descriptorCount * descriptorSize, descriptorSize⟩
        ∨ (∃ y ∈ b.placed, x ∈ tableExtents b.architecture y)
        ∨ ∃ y ∈ b.placed, x ∈ nameExtents y := by
  unfold extents
  simp only [zip_layout, List.mem_cons, List.mem_append, List.mem_flatMap]

/-- **The extents of a section are in a row.** -/
theorem row_extents : Row 0 b.extents b.sectionSize := by
  unfold extents
  simp only [zip_layout]
  refine ⟨Nat.le_refl 0, ?_⟩
  have hstart : Extent.finish
      ⟨0, b.descriptorCount * descriptorSize, descriptorSize⟩
      = b.descriptorTableSize := by
    simp only [Extent.finish, Extent.markStart, Nat.zero_add,
      descriptorTableSize, Nat.succ_mul]
  rw [hstart]
  have htables := row_tableExtents (a := b.architecture) b.descriptorTableSize
    b.namesStart b.modules
  have hnames := row_nameExtents (a := b.architecture) b.descriptorTableSize
    b.namesStart b.modules
  have hend : Row b.layout.2 [] b.sectionSize := b.used_le_sectionSize
  have hrow := (htables.append hnames).append hend
  rwa [List.append_nil] at hrow

/-- Every position that is given to a hint/name entry starts an extent. -/
theorem exists_extent_of_entry {table name : Nat} {ms : List ModuleSpec}
    {y : ModuleSpec × ModuleLayout} (hy : y ∈ placeModules a table name ms)
    {place : Nat} (h : some place ∈ y.2.hintNames) :
    ∃ x ∈ nameExtents y, x.offset = place := by
  obtain ⟨slot, hslot⟩ := List.mem_iff_getElem?.1 h
  obtain ⟨text, htext⟩ := exists_name_of_entry hy hslot
  have hzip : (y.1.thunks.zip y.2.hintNames)[slot]?
      = some (.name text, some place) :=
    List.getElem?_zip_eq_some.2 ⟨htext, hslot⟩
  have hextent := List.mem_filterMap.2
    ⟨_, List.mem_of_getElem? hzip, (rfl : hintNameExtent _ = some _)⟩
  exact ⟨_, List.mem_append_left _ hextent, rfl⟩

/-! ## The end marks -/

/-- **The end mark of an extent is zero** in data where the section starts at
some offset. -/
def Extent.EndsInZeros (d : ByteArray) (start : Nat) (x : Extent) : Prop :=
  HasAt d (start + x.markStart) (zeros x.endMark)

/-- An extent for the entry of a thunk is that of the name and the position in
one slot. -/
theorem exists_slot_of_mem {thunks : List ThunkSpec}
    {places : List (Option Nat)} {x : Extent}
    (hx : x ∈ (thunks.zip places).filterMap hintNameExtent) :
    ∃ (slot : Nat) (text : String) (position : Nat),
      thunks[slot]? = some (.name text)
        ∧ places[slot]? = some (some position)
        ∧ x = ⟨position, 2 + text.utf8ByteSize, 1⟩ := by
  obtain ⟨⟨t, place⟩, hmem, hextent⟩ := List.mem_filterMap.1 hx
  obtain ⟨slot, hslot⟩ := List.mem_iff_getElem?.1 hmem
  obtain ⟨ht, hplace⟩ := List.getElem?_zip_eq_some.1 hslot
  cases t with
  | name text =>
    cases place with
    | some position =>
      cases hextent
      exact ⟨slot, text, position, ht, hplace, rfl⟩
    | none => cases hextent
  | ordinal _ | raw _ => cases hextent

/-- A terminated text ends in a zero. -/
theorem hasAt_zero_of_terminated {d : ByteArray} {offset : Nat}
    {text : String} (h : HasAt d offset (terminated text)) :
    HasAt d (offset + text.utf8ByteSize) (zeros 1) :=
  (HasAt.append_iff.1 h).2

/-- Both tables of a module end in zeros. -/
theorem endsInZeros_of_mem_tableExtents {y : ModuleSpec × ModuleLayout}
    (hy : y ∈ b.placed) {x : Extent}
    (hx : x ∈ tableExtents b.architecture y) :
    x.EndsInZeros b.build sectionOffset := by
  obtain ⟨hlookup, haddress⟩ := tables_of_mem b.hasAt_tables hy
  have hlength := hintNames_length_of_mem hy
  simp only [tableExtents, List.mem_cons, List.not_mem_nil, or_false] at hx
  rcases hx with rfl | rfl
  · rw [Extent.EndsInZeros, Extent.markStart, ← Nat.add_assoc]
    exact hasAt_zeros_of_table hlength hlookup
  · rw [Extent.EndsInZeros, Extent.markStart, ← Nat.add_assoc]
    exact hasAt_zeros_of_table hlength haddress

/-- All names of a module end in a zero. -/
theorem endsInZeros_of_mem_nameExtents {y : ModuleSpec × ModuleLayout}
    (hy : y ∈ b.placed) {x : Extent} (hx : x ∈ nameExtents y) :
    x.EndsInZeros b.build sectionOffset := by
  obtain ⟨hhints, hname⟩ := names_of_mem b.hasAt_names hy
  rcases List.mem_append.1 hx with hhint | hx
  · obtain ⟨slot, text, position, ht, hplace, rfl⟩ := exists_slot_of_mem hhint
    obtain ⟨position', hplace', hentry⟩ := hhints slot text ht
    obtain rfl : position = position' := by
      rw [hplace] at hplace'
      exact Option.some.inj (Option.some.inj hplace')
    have htext := (HasAt.append_iff.1 hentry).2
    rw [length_wordBytes] at htext
    have hzero := hasAt_zero_of_terminated htext
    rwa [Nat.add_assoc, Nat.add_assoc] at hzero
  · obtain rfl := List.mem_singleton.1 hx
    have hzero := hasAt_zero_of_terminated hname
    rwa [Nat.add_assoc] at hzero

/-- **Every extent ends in zeros** in the image. -/
theorem endsInZeros_of_mem {x : Extent} (hx : x ∈ b.extents) :
    x.EndsInZeros b.build sectionOffset := by
  rcases b.mem_extents_iff.1 hx with rfl | ⟨y, hy, hx⟩ | ⟨y, hy, hx⟩
  · have hsentinel := b.hasAt_sentinel
    rw [length_described] at hsentinel
    rwa [Extent.EndsInZeros, Extent.markStart, Nat.zero_add]
  · exact b.endsInZeros_of_mem_tableExtents hy hx
  · exact b.endsInZeros_of_mem_nameExtents hy hx

/-! ## Sizes -/

theorem dvd_alignUp (value alignment : Nat) (h : 0 < alignment) :
    alignment ∣ alignUp value alignment := by
  unfold alignUp
  rw [if_neg (Nat.ne_of_gt h)]
  exact Nat.dvd_mul_left _ _

/-- A section is as large as a whole number of blocks, and at least one. -/
theorem dvd_sectionSize :
    fileAlignment ∣ b.sectionSize ∧ fileAlignment ≤ b.sectionSize := by
  refine ⟨?_, Nat.le_max_right _ _⟩
  unfold sectionSize
  rw [Nat.max_def]
  split
  · exact Nat.dvd_refl _
  · exact dvd_alignUp _ _ (by decide)

/-- **Every module has a layout, and every import by name an entry.** -/
def IsComplete : Prop :=
  b.layout.1.length = b.modules.length
    ∧ ∀ x ∈ b.modules.zip b.layout.1, ∀ (slot : Nat) (text : String),
      x.1.thunks[slot]? = some (.name text) →
        ∃ position, x.2.hintNames[slot]? = some (some position)

theorem isComplete : b.IsComplete := by
  constructor
  · have hzip := congrArg List.length b.zip_layout
    rw [List.length_zip, length_placed] at hzip
    have hle : b.layout.1.length ≤ b.modules.length := by
      unfold layout
      simp only [List.length_zipWith]
      omega
    omega
  · intro x hx slot text hslot
    rw [zip_layout] at hx
    obtain ⟨position, hposition, _⟩ :=
      (names_of_mem b.hasAt_names hx).1 slot text hslot
    exact ⟨position, hposition⟩

/-- Two modules, of which the first can be found by two descriptors. -/
def twoModules : Blueprint where
  architecture := .pe32
  modules :=
    [{ name := "ab", thunks := [.name "f"] },
     { name := "c", thunks := [.ordinal 7, .name "g"] }]
  sharedDescriptors := 1

/-- The extents of two modules. The entry of the first one takes up four bytes
and its name three. -/
example : twoModules.extents
    = [⟨0, 60, 20⟩, ⟨80, 4, 4⟩, ⟨88, 4, 4⟩, ⟨96, 8, 4⟩, ⟨108, 8, 4⟩,
       ⟨120, 3, 1⟩, ⟨124, 2, 1⟩, ⟨127, 3, 1⟩, ⟨132, 1, 1⟩] := by
  decide

end DriverAudit.Blueprint
