import DriverAudit.Image.Headers
import DriverAudit.Proofs.Bytes.Edits
import DriverAudit.Proofs.Image.Extents

/-!
# Building an image in place

An image can also be built by writing into a file of zeros: the section first,
module by module, and then the headers and the section behind them. Each write
goes to a position that the layout gives, and would fail outside the file; each
address is the sum of two 32-bit numbers, and would fail where it is too large.

`Blueprint.buildInPlace?` builds an image in that way. Nothing fails as long as
the section ends below the last 32-bit address, and what comes out is the image
that is put together from its pieces (`buildInPlace?_eq`): the edits draw the
pieces, and no piece covers another.
-/

namespace DriverAudit.Blueprint

/-! ## The edits of the section -/

/-- The address of a position of the section. There is none if the sum leaves
the 32-bit numbers. -/
def address? (position : Nat) : Option Nat :=
  let address := sectionAddress + position % UInt32.size
  if address < UInt32.size then some address else none

/-- Put a word at an offset. -/
def putWord (width offset : Nat) (value : Option Nat) : Edit :=
  .put offset (offset + width) (value.map (wordBytes width))

/-- Put the bytes of a text at an offset. -/
def putText (offset : Nat) (text : String) : Edit :=
  .put offset (offset + text.utf8ByteSize) (some text.toUTF8.data.toList)

/-- The descriptor of the module with some number. -/
def descriptorEdits (x : ModuleSpec × ModuleLayout) (index : Nat) :
    List Edit :=
  let offset := index * descriptorSize
  [putWord 4 offset
    (if x.1.hasLookupTable then address? x.2.lookupTable else some 0),
   putWord 4 (offset + 12) (match x.1.nameAddress with
    | some address => some address.toNat
    | none => address? x.2.name),
   putWord 4 (offset + 16) (address? x.2.addressTable)]

/-- The bits of a thunk, if they can be computed. -/
def thunkBits? (a : Architecture) : ThunkSpec × Option Nat → Option Nat
  | (.name _, some position) => address? position
  | (t, place) => some (thunkBits a t place)

/-- The hint/name entry of the thunk in a slot, which has no end mark: there
are zeros already. -/
def hintNameEdits (slot : Nat) : ThunkSpec × Option Nat → List Edit
  | (.name text, some position) =>
    [putWord 2 position (some slot), putText (position + 2) text]
  | _ => []

/-- The thunk in a slot of a table. -/
def slotEdit (a : Architecture) (table : Nat)
    (t : ThunkSpec × Option Nat) (slot : Nat) : Edit :=
  putWord a.thunkWidth (table + slot * a.thunkWidth) (thunkBits? a t)

/-- **All edits of a module**: its descriptor, then for each thunk the
hint/name entry and the slots of both tables, and last the name. -/
def moduleEdits (a : Architecture) (x : ModuleSpec × ModuleLayout)
    (index : Nat) : List Edit :=
  descriptorEdits x index
    ++ (x.1.thunks.zip x.2.hintNames).zipIdx.flatMap (fun (t, slot) =>
        hintNameEdits slot t
          ++ [slotEdit a x.2.lookupTable t slot,
              slotEdit a x.2.addressTable t slot])
    ++ [putText x.2.name x.1.name]

/-- The offsets of the descriptors that refer to the first module again. -/
def sharedOffsets (b : Blueprint) : List Nat :=
  (List.range' b.modules.length (b.descriptorCount - b.modules.length)).map
    (· * descriptorSize)

/-- **The edits of the section.** -/
def sectionEdits (b : Blueprint) : List Edit :=
  (b.modules.zip b.layout.1).zipIdx.flatMap
      (fun (x, index) => moduleEdits b.architecture x index)
    ++ b.sharedOffsets.map (.copyFront descriptorSize)

/-! ## The edits of the headers -/

/-- Where the optional header starts. -/
def optionalStart : Nat := ntOffset + Headers.fixedSize

/-- The preferred load address. -/
def imageBaseEdit : Architecture → Edit
  | .pe32 => putWord 4 (optionalStart + 28) (some 0x10000)
  | .pe32Plus => putWord 8 (optionalStart + 24) (some 0x140000000)

/-- The optional header up to its directories, for a section of some size. -/
def optionalEdits (a : Architecture) (size : Nat) : List Edit :=
  [putWord 2 optionalStart (some a.magic.toNat),
   imageBaseEdit a,
   putWord 4 (optionalStart + 32) (some 0x1000),
   putWord 4 (optionalStart + 36) (some fileAlignment),
   putWord 4 (optionalStart + 56) (address? size),
   putWord 4 (optionalStart + 60) (some sectionOffset),
   putWord 2 (optionalStart + 68) (some 1),
   putWord 4 (optionalStart + a.directoryCountOffset) (some directoryCount)]

/-- The import directory, if there is one. -/
def importDirectoryEdits (b : Blueprint) : List Edit :=
  let offset :=
    optionalStart + OptionalHeader.importsOffset b.architecture
  if b.hasImportDirectory then
    [putWord 4 offset (some (match b.importDirectoryAddress with
      | some address => address.toNat
      | none => sectionAddress)),
     putWord 4 (offset + 4) (some b.descriptorTableSize)]
  else []

/-- The header of a section of some size. -/
def sectionHeaderEdits (a : Architecture) (size : Nat) : List Edit :=
  let offset := optionalStart + optionalSize a
  [putText offset ".idata",
   putWord 4 (offset + 8) (some size),
   putWord 4 (offset + 12) (some sectionAddress),
   putWord 4 (offset + 16) (some size),
   putWord 4 (offset + 20) (some sectionOffset),
   putWord 4 (offset + 36) (some 0xC0000040)]

/-- The opening header, the signature and the file header. -/
def fileHeaderEdits (a : Architecture) : List Edit :=
  [putWord 2 0 (some StubHeader.signature.toNat),
   putWord 4 StubHeader.ntOffsetField (some ntOffset),
   .put ntOffset (ntOffset + 4) (some Headers.signature),
   putWord 2 (ntOffset + 4) (some (machineCode a)),
   putWord 2 (ntOffset + 4 + 2) (some 1),
   putWord 2 (ntOffset + 4 + 16) (some (optionalSize a)),
   putWord 2 (ntOffset + 4 + 18) (some 2)]

/-- **The edits of the headers**, for a section of some size. -/
def headerEdits (b : Blueprint) (size : Nat) : List Edit :=
  fileHeaderEdits b.architecture ++ optionalEdits b.architecture size
    ++ b.importDirectoryEdits ++ sectionHeaderEdits b.architecture size

/-- **Build an image in place**: the section by itself, and then the headers
with the section behind them. -/
def buildInPlace? (b : Blueprint) : Option ByteArray := do
  let content ← runEdits? (zeroed b.sectionSize) b.sectionEdits
  let size := sectionOffset + content.size
  runEdits? (zeroed size)
    (b.headerEdits content.size
      ++ [.put sectionOffset size (some content.data.toList)])

/-! ## Words and texts -/

theorem draws_putWord (width offset value : Nat) :
    Draws [putWord width offset (some value)] offset
      (wordBytes width value) := by
  have hput := Draws.put offset (wordBytes width value)
  rwa [length_wordBytes] at hput

theorem draws_putText (offset : Nat) (text : String) :
    Draws [putText offset text] offset text.toUTF8.data.toList :=
  Draws.put offset text.toUTF8.data.toList

/-- The zero that ends a text is there already. -/
theorem draws_terminated (offset : Nat) (text : String) :
    Draws [putText offset text] offset (terminated text) :=
  (draws_putText offset text).append_zeros 1

/-- Words of one width, each at its multiple of the width. -/
theorem draws_words {α : Type} (width table : Nat) (value : α → Nat)
    (l : List α) (n : Nat) :
    Draws ((l.zipIdx n).map fun (t, i) =>
        putWord width (table + i * width) (some (value t)))
      (table + n * width) (l.flatMap fun t => wordBytes width (value t)) := by
  induction l generalizing n with
  | nil => exact Draws.nil _
  | cons t rest ih =>
    have hrest := ih (n + 1)
    rw [Nat.succ_mul, ← Nat.add_assoc] at hrest
    refine (draws_putWord width (table + n * width) (value t)).append ?_
    rwa [length_wordBytes]

/-! ## Addresses -/

/-- **A section that ends below the last 32-bit address.** -/
def IsAddressable (b : Blueprint) : Prop :=
  sectionAddress + b.sectionSize < UInt32.size

instance (b : Blueprint) : Decidable b.IsAddressable :=
  inferInstanceAs (Decidable (_ < _))

/-- The positions up to the end of such a section have addresses. -/
theorem IsAddressable.address?_eq {b : Blueprint} (h : b.IsAddressable)
    {position : Nat} (hposition : position ≤ b.sectionSize) :
    address? position = some (addressOf position) := by
  unfold IsAddressable at h
  have hlt : position < UInt32.size := by omega
  have haddress : sectionAddress + position < UInt32.size := by omega
  unfold address? addressOf
  simp only
  rw [Nat.mod_eq_of_lt hlt, if_pos haddress, Nat.mod_eq_of_lt haddress]

/-- The end of such a section has one as well. -/
theorem IsAddressable.address?_sectionSize {b : Blueprint}
    (h : b.IsAddressable) :
    address? b.sectionSize = some (sectionAddress + b.sectionSize) := by
  rw [h.address?_eq (Nat.le_refl _), addressOf, Nat.mod_eq_of_lt h]

/-- **A module all of whose pieces have addresses.** -/
structure HasAddresses (x : ModuleSpec × ModuleLayout) : Prop where
  lookupTable : address? x.2.lookupTable = some (addressOf x.2.lookupTable)
  addressTable : address? x.2.addressTable = some (addressOf x.2.addressTable)
  name : address? x.2.name = some (addressOf x.2.name)
  hintName : ∀ position, some position ∈ x.2.hintNames →
    address? position = some (addressOf position)

/-- The bits of its thunks can be computed. -/
theorem HasAddresses.thunkBits?_eq {a : Architecture}
    {x : ModuleSpec × ModuleLayout} (h : HasAddresses x)
    {t : ThunkSpec × Option Nat} (ht : t ∈ x.1.thunks.zip x.2.hintNames) :
    thunkBits? a t = some (thunkBits a t.1 t.2) := by
  obtain ⟨thunk, place⟩ := t
  cases thunk with
  | name text =>
    cases place with
    | some position => exact h.hintName position (List.of_mem_zip ht).2
    | none => rfl
  | ordinal _ | raw _ => rfl

/-! ## The pieces of a module -/

variable {a : Architecture}

/-- The three words of a descriptor. -/
theorem draws_descriptorWords (offset lookup name table : Nat) :
    Draws [putWord 4 offset (some lookup),
        putWord 4 (offset + 12) (some name),
        putWord 4 (offset + 16) (some table)]
      offset (wordBytes 4 lookup ++ zeros 8 ++ wordBytes 4 name
        ++ wordBytes 4 table) := by
  have hlookup := (draws_putWord 4 offset lookup).append_zeros 8
  have hname := hlookup.append_at (draws_putWord 4 (offset + 12) name)
    (by simp)
  exact hname.append_at (draws_putWord 4 (offset + 16) table) (by simp)

theorem draws_descriptor {x : ModuleSpec × ModuleLayout} (h : HasAddresses x)
    (index : Nat) :
    Draws (descriptorEdits x index) (index * descriptorSize)
      (descriptorBytes x.1 x.2) := by
  have hlookup :
      (if x.1.hasLookupTable then address? x.2.lookupTable else some 0)
        = some (if x.1.hasLookupTable then addressOf x.2.lookupTable
          else 0) := by
    rw [h.lookupTable]
    split <;> rfl
  have hname : (match x.1.nameAddress with
      | some address => some address.toNat
      | none => address? x.2.name)
      = some (match x.1.nameAddress with
        | some address => address.toNat
        | none => addressOf x.2.name) := by
    rw [h.name]
    split <;> rfl
  unfold descriptorEdits descriptorBytes
  simp only [hlookup, hname, h.addressTable]
  exact draws_descriptorWords _ _ _ _

/-- The descriptors of some modules, one behind the other. -/
theorem draws_descriptors (l : List (ModuleSpec × ModuleLayout))
    (h : ∀ x ∈ l, HasAddresses x) (n : Nat) :
    Draws ((l.zipIdx n).flatMap fun (x, index) => descriptorEdits x index)
      (n * descriptorSize) (l.flatMap fun x => descriptorBytes x.1 x.2) := by
  induction l generalizing n with
  | nil => exact Draws.nil _
  | cons x rest ih =>
    have hrest := ih (fun y hy => h y (List.mem_cons_of_mem x hy)) (n + 1)
    refine (draws_descriptor (h x List.mem_cons_self) n).append_at hrest ?_
    rw [length_descriptorBytes, Nat.succ_mul]

/-- The slots of a table, and the zeros behind them. -/
theorem draws_table {x : ModuleSpec × ModuleLayout} (h : HasAddresses x)
    (table : Nat) :
    Draws ((x.1.thunks.zip x.2.hintNames).zipIdx.map fun (t, slot) =>
        slotEdit a table t slot)
      table (thunkTableBytes a x.1 x.2) := by
  have hwords := draws_words a.thunkWidth table
    (fun t : ThunkSpec × Option Nat => thunkBits a t.1 t.2)
    (x.1.thunks.zip x.2.hintNames) 0
  have hbits : (x.1.thunks.zip x.2.hintNames).zipIdx.map (fun (t, slot) =>
        slotEdit a table t slot)
      = (x.1.thunks.zip x.2.hintNames).zipIdx.map fun (t, slot) =>
        putWord a.thunkWidth (table + slot * a.thunkWidth)
          (some (thunkBits a t.1 t.2)) := by
    refine List.map_congr_left fun ⟨t, slot⟩ ht => ?_
    have hmem := List.fst_mem_of_mem_zipIdx ht
    exact congrArg (putWord _ _) (h.thunkBits?_eq hmem)
  rw [hbits]
  rw [Nat.zero_mul, Nat.add_zero] at hwords
  have hvalues : List.zipWith (thunkBits a) x.1.thunks x.2.hintNames
      = (x.1.thunks.zip x.2.hintNames).map fun t => thunkBits a t.1 t.2 :=
    (List.map_zip_eq_zipWith (f := fun t => thunkBits a t.1 t.2)).symm
  unfold thunkTableBytes
  rw [hvalues, List.flatMap_map]
  exact hwords.append_zeros a.thunkWidth

/-- The hint/name entries of a module, from a slot on. -/
theorem draws_hintNames (thunks : List ThunkSpec) (slot position : Nat) :
    Draws (((thunks.zip (placeHintNames position thunks).1).zipIdx
          slot).flatMap fun (t, slot) => hintNameEdits slot t)
      position (hintNamesBytes slot thunks
        (placeHintNames position thunks).1) := by
  induction thunks generalizing slot position with
  | nil => exact Draws.nil _
  | cons t rest ih =>
    cases t with
    | name text =>
      have hhint := draws_putWord 2 position slot
      have hentry := hhint.append_at (draws_terminated (position + 2) text)
        (by simp)
      have hpadded := hentry.append_zeros
        (afterHintName position text - position
          - (wordBytes 2 slot ++ terminated text).length)
      exact hpadded.append_at (ih (slot + 1) (afterHintName position text))
        (length_hintNameBytes slot text position)
    | ordinal _ | raw _ => exact ih (slot + 1) position

/-! ## The pieces of the section -/

/-- The edits of a module that write its tables. -/
def tableEdits (a : Architecture) (x : ModuleSpec × ModuleLayout) :
    List Edit :=
  let thunks := (x.1.thunks.zip x.2.hintNames).zipIdx
  thunks.map (fun (t, slot) => slotEdit a x.2.lookupTable t slot)
    ++ thunks.map fun (t, slot) => slotEdit a x.2.addressTable t slot

/-- The edits of a module that write its hint/name entries and its name. -/
def nameEdits (x : ModuleSpec × ModuleLayout) : List Edit :=
  (x.1.thunks.zip x.2.hintNames).zipIdx.flatMap (fun (t, slot) =>
      hintNameEdits slot t)
    ++ [putText x.2.name x.1.name]

/-- **The edits of a module** go thunk by thunk, but all in all they write its
descriptor, its tables and its names. -/
theorem mem_moduleEdits_iff {x : ModuleSpec × ModuleLayout} {index : Nat}
    {e : Edit} :
    e ∈ moduleEdits a x index ↔ e ∈ descriptorEdits x index
      ∨ e ∈ tableEdits a x ∨ e ∈ nameEdits x := by
  simp only [moduleEdits, tableEdits, nameEdits, List.mem_append,
    List.mem_flatMap, List.mem_map, List.mem_cons, List.not_mem_nil, or_false,
    and_or_left, exists_or, or_assoc, or_left_comm, eq_comm (a := e)]

/-- The edits of all modules, sorted in the same way. -/
theorem mem_edits_iff {l : List (ModuleSpec × ModuleLayout)} {e : Edit} :
    e ∈ l.zipIdx.flatMap (fun (x, index) => moduleEdits a x index)
      ↔ e ∈ l.zipIdx.flatMap (fun (x, index) => descriptorEdits x index)
        ∨ e ∈ l.flatMap (tableEdits a) ∨ e ∈ l.flatMap nameEdits := by
  have hflat : ∀ f : ModuleSpec × ModuleLayout → List Edit,
      l.flatMap f = l.zipIdx.flatMap fun p => f p.1 := by
    intro f
    rw [← List.flatMap_map (f := Prod.fst) (g := f), List.zipIdx_map_fst]
  rw [hflat (tableEdits a), hflat nameEdits]
  simp only [List.mem_flatMap, mem_moduleEdits_iff, and_or_left, exists_or]

/-- Both tables of a module. -/
theorem draws_tablesOf {x : ModuleSpec × ModuleLayout} (h : HasAddresses x)
    (hlength : x.2.hintNames.length = x.1.thunks.length)
    (hbehind : x.2.addressTable = x.2.lookupTable + thunkTableSize a x.1) :
    Draws (tableEdits a x) x.2.lookupTable (tablesBytes a x) := by
  have hlookup := draws_table (a := a) h x.2.lookupTable
  have haddress := draws_table (a := a) h x.2.addressTable
  refine hlookup.append_at haddress ?_
  rw [length_thunkTableBytes hlength, hbehind]

/-- Both tables of all modules. -/
theorem draws_tables (table name : Nat) (ms : List ModuleSpec)
    (h : ∀ x ∈ placeModules a table name ms, HasAddresses x) :
    Draws ((placeModules a table name ms).flatMap (tableEdits a)) table
      ((placeModules a table name ms).flatMap (tablesBytes a)) := by
  induction ms generalizing table name with
  | nil => exact Draws.nil _
  | cons m rest ih =>
    have hlength := length_placeHintNames name m.thunks
    have hfirst := draws_tablesOf (a := a) (h _ List.mem_cons_self) hlength rfl
    refine hfirst.append_at (ih (table + 2 * thunkTableSize a m) _
      fun y hy => h y (List.mem_cons_of_mem _ hy)) ?_
    rw [tablesBytes, List.length_append, length_thunkTableBytes hlength]
    show table + (thunkTableSize a m + thunkTableSize a m)
      = table + 2 * thunkTableSize a m
    omega

/-- The hint/name entries and the names of all modules. -/
theorem draws_names (table name : Nat) (ms : List ModuleSpec) :
    Draws ((placeModules a table name ms).flatMap nameEdits) name
      ((placeModules a table name ms).flatMap fun x =>
        namesBytes x.1 x.2) := by
  induction ms generalizing table name with
  | nil => exact Draws.nil _
  | cons m rest ih =>
    have hhints := draws_hintNames m.thunks 0 name
    have hlength := length_hintNamesBytes name 0 m.thunks
    have hnames := hhints.append_at
      (draws_terminated (placeHintNames name m.thunks).2 m.name) hlength
    refine hnames.append_at (ih (table + 2 * thunkTableSize a m)
      ((placeHintNames name m.thunks).2 + m.name.utf8ByteSize + 1)) ?_
    rw [List.length_append, length_terminated]
    omega

variable (b : Blueprint)

/-- **All pieces of an addressable section have addresses.** -/
theorem IsAddressable.hasAddresses {b : Blueprint} (h : b.IsAddressable)
    {x : ModuleSpec × ModuleLayout} (hx : x ∈ b.placed) : HasAddresses x := by
  have hwithin : ∀ y ∈ b.extents, y.offset ≤ b.sectionSize := fun y hy =>
    Nat.le_trans y.offset_le_finish (b.row_extents.within.2 y hy).2
  have htables : ∀ y ∈ tableExtents b.architecture x,
      address? y.offset = some (addressOf y.offset) := fun y hy =>
    h.address?_eq (hwithin y (b.mem_extents_iff.2 (.inr (.inl ⟨x, hx, hy⟩))))
  have hnames : ∀ y ∈ nameExtents x,
      address? y.offset = some (addressOf y.offset) := fun y hy =>
    h.address?_eq (hwithin y (b.mem_extents_iff.2 (.inr (.inr ⟨x, hx, hy⟩))))
  refine ⟨htables _ List.mem_cons_self,
    htables _ (List.mem_cons_of_mem _ List.mem_cons_self),
    hnames _ (List.mem_append_right _ (List.mem_singleton_self _)),
    fun position hposition => ?_⟩
  obtain ⟨y, hy, rfl⟩ := exists_extent_of_entry hx hposition
  exact hnames y hy

/-- A section starts with the descriptor of its first module. -/
theorem take_sectionBytes {x : ModuleSpec × ModuleLayout}
    {rest : List (ModuleSpec × ModuleLayout)} (h : b.placed = x :: rest) :
    b.sectionBytes.take descriptorSize = descriptorBytes x.1 x.2 := by
  rw [sectionBytes_eq, padTo, contentBytes, described, h, shareFirst,
    List.cons_append, List.flatMap_cons]
  simp only [List.append_assoc]
  exact List.take_left' (length_descriptorBytes x.1 x.2)

/-- Copies of the first bytes, one behind the other. -/
theorem draws_writeOut {target : List UInt8} {width : Nat}
    (hlength : (target.take width).length = width) (n k : Nat) :
    Draws ((List.range' n k).map fun i => writeOut target width (i * width))
      (n * width) (List.replicate k (target.take width)).flatten := by
  induction k generalizing n with
  | zero => exact Draws.nil _
  | succ k ih =>
    have hfirst := Draws.put (n * width) (target.take width)
    rw [hlength] at hfirst
    refine hfirst.append_at (ih (n + 1)) ?_
    rw [hlength, Nat.succ_mul]

/-- **The descriptors that refer to the first module again** are copies of its
descriptor. -/
theorem draws_shared :
    Draws (b.sharedOffsets.map (writeOut b.sectionBytes descriptorSize))
      (b.placed.length * descriptorSize)
      (((b.placed.take 1).flatMap (List.replicate b.sharedDescriptors)).flatMap
        fun x => descriptorBytes x.1 x.2) := by
  unfold sharedOffsets
  rw [← length_described, ← length_placed, described, length_shareFirst,
    List.map_map]
  cases hplaced : b.placed with
  | nil => exact Draws.nil _
  | cons x rest =>
    have hfirst := b.take_sectionBytes hplaced
    have hcopies := draws_writeOut
      (hfirst ▸ length_descriptorBytes x.1 x.2) (x :: rest).length
      b.sharedDescriptors
    rw [hfirst] at hcopies
    have hcount : (x :: rest).length + b.sharedDescriptors - (x :: rest).length
        = b.sharedDescriptors := Nat.add_sub_cancel_left _ _
    simp only [List.isEmpty_cons, Bool.false_eq_true, if_false, hcount,
      List.take_succ_cons, List.take_zero, List.flatMap_singleton]
    rwa [List.flatMap_def, List.map_replicate]

/-- **The edits of the section draw it**, when its copies are written out. -/
theorem draws_section (h : b.IsAddressable) :
    Draws (b.placed.zipIdx.flatMap
          (fun (x, index) => moduleEdits b.architecture x index)
        ++ b.sharedOffsets.map (writeOut b.sectionBytes descriptorSize))
      0 b.sectionBytes := by
  have haddresses : ∀ x ∈ b.placed, HasAddresses x := fun x hx =>
    h.hasAddresses hx
  have hdescriptors := draws_descriptors b.placed haddresses 0
  rw [Nat.zero_mul] at hdescriptors
  have hdescribed := hdescriptors.append_at b.draws_shared
    (by rw [length_descriptorsBytes, Nat.zero_add])
  rw [← List.flatMap_append] at hdescribed
  have htables := draws_tables (a := b.architecture) b.descriptorTableSize
    b.namesStart b.modules haddresses
  have hnames := draws_names (a := b.architecture) b.descriptorTableSize
    b.namesStart b.modules
  -- the tables start behind the descriptors, and the names behind the tables
  have hfront := b.length_descriptorTable
  have htable := (hdescribed.append_zeros descriptorSize).append_at htables
    ((Nat.zero_add _).trans hfront)
  have hbehind := length_tablesBytes (a := b.architecture)
    b.descriptorTableSize b.namesStart b.modules
  have hcontent : Draws _ 0 b.contentBytes := htable.append_at hnames <| by
    rw [Nat.zero_add, List.length_append]
    exact (congrArg (· + _) hfront).trans hbehind
  have hall : Draws _ 0 (padTo b.sectionSize b.contentBytes) :=
    hcontent.append_zeros _
  rw [← sectionBytes_eq] at hall
  refine hall.of_mem_iff fun e => ?_
  simp only [List.mem_append, mem_edits_iff]
  exact or_right_comm.trans or_assoc.symm

/-! ## The pieces of the headers -/

/-- Filling up with zeros takes no edit. -/
theorem draws_padTo {edits : List Edit} {offset : Nat} {bytes : List UInt8}
    (h : Draws edits offset bytes) (size : Nat) :
    Draws edits offset (padTo size bytes) :=
  h.append_zeros _

theorem draws_stub :
    Draws [putWord 2 0 (some StubHeader.signature.toNat),
        putWord 4 StubHeader.ntOffsetField (some ntOffset)]
      0 stubBytes := by
  have hmagic := draws_putWord 2 0 0x5A4D
  have hoffset := (hmagic.append_zeros 58).append_at
    (draws_putWord 4 StubHeader.ntOffsetField ntOffset)
    (by rw [List.length_append, length_wordBytes, List.length_replicate]; rfl)
  exact draws_padTo hoffset ntOffset

theorem draws_fileHeader (a : Architecture) (offset : Nat) :
    Draws [.put offset (offset + 4) (some Headers.signature),
        putWord 2 (offset + 4) (some (machineCode a)),
        putWord 2 (offset + 4 + 2) (some 1),
        putWord 2 (offset + 4 + 16) (some (optionalSize a)),
        putWord 2 (offset + 4 + 18) (some 2)]
      offset (fileHeaderBytes a) := by
  have hsignature := Draws.put offset Headers.signature
  have hmachine := hsignature.append_at
    (draws_putWord 2 (offset + 4) (machineCode a)) rfl
  have hcount := hmachine.append_at (draws_putWord 2 (offset + 4 + 2) 1) rfl
  have hsize := (hcount.append_zeros 12).append_at
    (draws_putWord 2 (offset + 4 + 16) (optionalSize a)) rfl
  exact hsize.append_at (draws_putWord 2 (offset + 4 + 18) 2) rfl

theorem draws_imageBase (a : Architecture) :
    Draws [imageBaseEdit a] (optionalStart + 24) (imageBaseBytes a) := by
  cases a with
  | pe32 =>
    exact (draws_putWord 4 (optionalStart + 24 + 4) 0x10000).zeros_append
  | pe32Plus => exact draws_putWord 8 (optionalStart + 24) 0x140000000

@[simp]
theorem length_imageBaseBytes (a : Architecture) :
    (imageBaseBytes a).length = 8 := by
  cases a <;> rfl

theorem draws_importDirectory :
    Draws b.importDirectoryEdits
      (optionalStart + OptionalHeader.importsOffset b.architecture)
      b.importDirectoryBytes := by
  unfold importDirectoryEdits importDirectoryBytes
  split
  · exact (draws_putWord 4 _ _).append_at (draws_putWord 4 _ _)
      (by rw [length_wordBytes])
  · exact Draws.zeros _ 8

theorem draws_optional (h : b.IsAddressable) :
    Draws (optionalEdits b.architecture b.sectionSize
        ++ b.importDirectoryEdits)
      optionalStart b.optionalBytes := by
  have hmagic := draws_putWord 2 optionalStart b.architecture.magic.toNat
  have hbase := (hmagic.append_zeros 22).append_at
    (draws_imageBase b.architecture) (by simp)
  have halign := hbase.append_at (draws_putWord 4 (optionalStart + 32) 0x1000)
    (by simp)
  have hfile := halign.append_at
    (draws_putWord 4 (optionalStart + 36) fileAlignment) (by simp)
  have hsize := (hfile.append_zeros 16).append_at
    (draws_putWord 4 (optionalStart + 56) (sectionAddress + b.sectionSize))
    (by simp)
  have hheaders := hsize.append_at
    (draws_putWord 4 (optionalStart + 60) sectionOffset) (by simp)
  have hsubsystem := (hheaders.append_zeros 4).append_at
    (draws_putWord 2 (optionalStart + 68) 1) (by simp)
  -- behind the fields there is room up to the number of directories
  have hcount := (draws_padTo hsubsystem
      b.architecture.directoryCountOffset).append_at
    (draws_putWord 4 (optionalStart + b.architecture.directoryCountOffset)
      directoryCount) <| by
    rw [length_padTo]
    cases b.architecture <;> simp [Architecture.directoryCountOffset]
  have himports := (hcount.append_zeros 8).append_at b.draws_importDirectory
    <| by
    rw [List.length_append, List.length_append, length_padTo,
      length_wordBytes, List.length_replicate]
    · cases b.architecture <;> rfl
    · cases b.architecture <;> simp [Architecture.directoryCountOffset]
  have hall := draws_padTo himports (optionalSize b.architecture)
  unfold optionalEdits
  rw [h.address?_sectionSize]
  exact hall

theorem draws_sectionHeader (a : Architecture) :
    Draws (sectionHeaderEdits a b.sectionSize) (optionalStart + optionalSize a)
      b.sectionHeaderBytes := by
  have hname := draws_padTo
    (draws_putText (optionalStart + optionalSize a) ".idata") 8
  have hlength : (padTo 8 ".idata".toUTF8.data.toList).length = 8 := by decide
  unfold sectionHeaderBytes
  generalize padTo 8 ".idata".toUTF8.data.toList = name at hname hlength ⊢
  have hvirtual := hname.append_at
    (draws_putWord 4 (optionalStart + optionalSize a + 8) b.sectionSize)
    (by simp [hlength])
  have haddress := hvirtual.append_at
    (draws_putWord 4 (optionalStart + optionalSize a + 12) sectionAddress)
    (by simp [hlength])
  have hsize := haddress.append_at
    (draws_putWord 4 (optionalStart + optionalSize a + 16) b.sectionSize)
    (by simp [hlength])
  have hfile := hsize.append_at
    (draws_putWord 4 (optionalStart + optionalSize a + 20) sectionOffset)
    (by simp [hlength])
  exact (hfile.append_zeros 12).append_at
    (draws_putWord 4 (optionalStart + optionalSize a + 36) 0xC0000040)
    (by simp [hlength])

/-! ## The image -/

/-- **The edits of the headers draw them.** -/
theorem draws_headers (h : b.IsAddressable) :
    Draws (b.headerEdits b.sectionSize) 0 b.headerBytes := by
  have hstub : stubBytes.length = ntOffset := length_padTo (by decide)
  have hfront : 0 + (stubBytes ++ fileHeaderBytes b.architecture).length
      = optionalStart := by
    rw [Nat.zero_add, List.length_append, hstub]
    rfl
  have hfile := draws_stub.append_at (draws_fileHeader b.architecture ntOffset)
    (by rw [hstub, Nat.zero_add])
  have hoptional := hfile.append_at (b.draws_optional h) hfront
  have hsection := hoptional.append_at (b.draws_sectionHeader b.architecture)
    (by rw [List.length_append, ← Nat.add_assoc, hfront, length_optionalBytes])
  rw [← List.append_assoc] at hsection
  exact hsection

/-- **The edits of the section produce it.** -/
theorem runEdits?_section (h : b.IsAddressable) :
    runEdits? (zeroed b.sectionSize) b.sectionEdits
      = some ⟨b.sectionBytes.toArray⟩ := by
  have hbehind : ∀ offset ∈ b.sharedOffsets, descriptorSize ≤ offset := by
    intro offset hoffset
    obtain ⟨index, hindex, rfl⟩ := List.mem_map.1 hoffset
    have hrange := List.mem_range'_1.1 hindex
    -- only a module can be shared, so that the copies come behind it
    have hmodules : 0 < b.modules.length := by
      refine Nat.pos_of_ne_zero fun hzero => ?_
      have hempty : b.descriptorCount = 0 := by
        rw [descriptorCount, List.length_eq_zero_iff.1 hzero]
        rfl
      omega
    exact Nat.le_mul_of_pos_left _ (Nat.lt_of_lt_of_le hmodules hrange.1)
  have hrun := (b.draws_section h).runEdits?_copies hbehind
  rw [length_sectionBytes] at hrun
  unfold sectionEdits
  rwa [zip_layout]

/-- **An image is built in place without a failure**, and it is the one that
is put together from its pieces. -/
theorem buildInPlace?_eq (h : b.IsAddressable) :
    b.buildInPlace? = some b.build := by
  have hsize : (⟨b.sectionBytes.toArray⟩ : ByteArray).size = b.sectionSize :=
    b.length_sectionBytes
  have hpadded := draws_padTo (b.draws_headers h) sectionOffset
  have hlength := length_padTo b.length_headerBytes
  have hall := hpadded.append_at (Draws.put sectionOffset b.sectionBytes)
    (by rw [hlength, Nat.zero_add])
  have hrun := hall.runEdits?_zeroed
  rw [List.length_append, hlength] at hrun
  unfold buildInPlace?
  rw [b.runEdits?_section h, Option.bind_eq_bind, Option.bind_some]
  simp only [hsize]
  rw [length_sectionBytes] at hrun
  exact hrun

/-- **The layout of an addressable section is sound, and so is what is built
from it.** Every piece has a place; no two places overlap, and all are inside
the section; the headers end where the section starts; building in place never
writes outside the file, and makes the image; each end mark is zero in it; and
it consists of whole blocks, of which at least one belongs to the section. -/
theorem layout_sound (h : b.IsAddressable) :
    b.IsComplete
      ∧ b.extents.Pairwise Extent.Before
      ∧ (∀ x ∈ b.extents, x.finish ≤ b.sectionSize)
      ∧ (∀ e ∈ b.headerEdits b.sectionSize, ∀ i, e.Writes i →
          i < sectionOffset)
      ∧ b.buildInPlace? = some b.build
      ∧ (∀ x ∈ b.extents, x.EndsInZeros b.build sectionOffset)
      ∧ fileAlignment ∣ b.build.size
      ∧ sectionOffset + fileAlignment ≤ b.build.size := by
  obtain ⟨hdvd, hle⟩ := b.dvd_sectionSize
  refine ⟨b.isComplete, b.row_extents.pairwise,
    fun x hx => (b.row_extents.within.2 x hx).2, fun e he i hi => ?_,
    b.buildInPlace?_eq h, fun x hx => b.endsInZeros_of_mem hx, ?_, ?_⟩
  · have hlt := ((b.draws_headers h).lt_of_writes he hi).2
    have hheaders := b.length_headerBytes
    omega
  · rw [size_build]
    exact Nat.dvd_add (Nat.dvd_refl _) hdvd
  · rw [size_build]
    omega

/-- Two modules are built in place. -/
theorem layout_sound_twoModules :
    twoModules.IsAddressable
      ∧ twoModules.buildInPlace? = some twoModules.build :=
  have haddressable : twoModules.IsAddressable := by decide
  ⟨haddressable, (layout_sound twoModules haddressable).2.2.2.2.1⟩

end DriverAudit.Blueprint
