import DriverAudit.Proofs.Image.Placement

/-!
# The file of a built image

A built image has its headers in front and its one section behind them. This
module finds the pieces of both in the file: the headers at its start, the
descriptors at the start of the section with a record of zeros behind them, and
the pieces of all modules where their layouts say.

The first descriptor may be there several times, so the descriptors are those
of the modules and of some more copies of the first module (`shareFirst`).
-/

namespace DriverAudit.Blueprint

/-! ## Descriptors -/

/-- **A list with some more copies of its first element.** -/
def shareFirst {α : Type} (n : Nat) (l : List α) : List α :=
  l ++ (l.take 1).flatMap (List.replicate n)

section ShareFirst

variable {α β : Type} {n : Nat} {l : List α}

theorem mem_of_mem_shareFirst {x : α} (h : x ∈ shareFirst n l) : x ∈ l := by
  rcases List.mem_append.1 h with hl | hcopy
  · exact hl
  · obtain ⟨y, hy, hx⟩ := List.mem_flatMap.1 hcopy
    rw [List.eq_of_mem_replicate hx]
    exact List.mem_of_mem_take hy

theorem map_shareFirst (f : α → β) :
    (shareFirst n l).map f = shareFirst n (l.map f) := by
  unfold shareFirst
  rw [List.map_append, List.map_flatMap, ← List.map_take, List.flatMap_map]
  simp only [List.map_replicate]

theorem length_shareFirst :
    (shareFirst n l).length = if l.isEmpty then 0 else l.length + n := by
  cases l with
  | nil => rfl
  | cons x l =>
    simp only [shareFirst, List.length_append, List.take_succ_cons,
      List.take_zero, List.flatMap_singleton, List.length_replicate,
      List.isEmpty_cons]
    rfl

/-- Copying the first piece is the same as writing the pieces of the list with
the copies. -/
theorem flatten_shareFirst (piece : α → List UInt8) :
    (l.map piece).flatten
        ++ (List.replicate ((shareFirst n l).length - l.length)
          ((l.map piece).headD [])).flatten
      = (shareFirst n l).flatMap piece := by
  cases l with
  | nil => rfl
  | cons x l =>
    have hcopies : (shareFirst n (x :: l)).length - (x :: l).length = n := by
      rw [length_shareFirst]
      exact Nat.add_sub_cancel_left _ _
    rw [hcopies, shareFirst, List.flatMap_append, List.flatMap_def]
    simp [List.flatMap_def]

end ShareFirst

variable (b : Blueprint)

/-- **The modules with their layouts.** -/
def placed : List (ModuleSpec × ModuleLayout) :=
  placeModules b.architecture b.descriptorTableSize
    (placeTables b.architecture b.descriptorTableSize b.modules).2 b.modules

/-- **The modules that the descriptors describe**, with their layouts. -/
def described : List (ModuleSpec × ModuleLayout) :=
  shareFirst b.sharedDescriptors b.placed

theorem map_fst_placed : b.placed.map Prod.fst = b.modules :=
  map_fst_placeModules _ _ _

@[simp]
theorem length_placed : b.placed.length = b.modules.length := by
  rw [← map_fst_placed, List.length_map]

@[simp]
theorem length_described : b.described.length = b.descriptorCount := by
  have hempty : b.placed.isEmpty = b.modules.isEmpty := by
    rw [← map_fst_placed, List.isEmpty_map]
  unfold described descriptorCount
  rw [length_shareFirst, hempty, length_placed]

theorem map_fst_described :
    b.described.map Prod.fst = shareFirst b.sharedDescriptors b.modules := by
  rw [described, map_shareFirst, map_fst_placed]

/-! ## The bytes of the section -/

theorem zip_placeModules (a : Architecture) (table name : Nat)
    (ms : List ModuleSpec) :
    ms.zip (List.zipWith (fun f n => f n)
        (List.zipWith
          (fun (m : ModuleSpec) (t : Nat) (n : List (Option Nat) × Nat) =>
            { lookupTable := t
              addressTable := t + thunkTableSize a m
              hintNames := n.1
              name := n.2 : ModuleLayout })
          ms (placeTables a table ms).1)
        (placeNames name ms).1)
      = placeModules a table name ms := by
  induction ms generalizing table name with
  | nil => rfl
  | cons m rest ih => exact congrArg (_ :: ·) (ih _ _)

/-- The layout of the section is that of its modules. -/
theorem zip_layout : b.modules.zip b.layout.1 = b.placed :=
  zip_placeModules _ _ _ _

/-- What is written into the section. -/
def contentBytes : List UInt8 :=
  b.described.flatMap (fun x => descriptorBytes x.1 x.2)
    ++ zeros descriptorSize
    ++ b.placed.flatMap (tablesBytes b.architecture)
    ++ b.placed.flatMap fun x => namesBytes x.1 x.2

theorem sectionBytes_eq :
    b.sectionBytes = padTo b.sectionSize b.contentBytes := by
  unfold sectionBytes contentBytes
  simp only [zip_layout]
  -- the copies of the first descriptor are described like the others
  rw [← length_described, ← length_placed, described, flatten_shareFirst]
  rfl

theorem length_descriptorsBytes (l : List (ModuleSpec × ModuleLayout)) :
    (l.flatMap fun x => descriptorBytes x.1 x.2).length
      = l.length * descriptorSize :=
  HasAt.length_flatMap fun x _ => length_descriptorBytes x.1 x.2

/-- The descriptors fill the place in front of the tables. -/
theorem length_descriptorTable :
    (b.described.flatMap (fun x => descriptorBytes x.1 x.2)
        ++ zeros descriptorSize).length = b.descriptorTableSize := by
  rw [List.length_append, length_descriptorsBytes, length_described,
    length_zeros, descriptorTableSize, Nat.succ_mul]

/-- **What is written is as long as the layout says.** -/
theorem length_contentBytes : b.contentBytes.length = b.layout.2 := by
  have htables := length_tablesBytes (a := b.architecture)
    b.descriptorTableSize
    (placeTables b.architecture b.descriptorTableSize b.modules).2 b.modules
  have hnames := length_namesBytes (a := b.architecture) b.descriptorTableSize
    (placeTables b.architecture b.descriptorTableSize b.modules).2 b.modules
  unfold contentBytes
  rw [List.length_append, List.length_append, length_descriptorTable, placed,
    htables, hnames]
  rfl

theorem length_sectionBytes : b.sectionBytes.length = b.sectionSize := by
  rw [sectionBytes_eq]
  refine length_padTo ?_
  have hused : b.layout.2 ≤ alignUp b.layout.2 fileAlignment :=
    le_alignUp _ (by decide)
  rw [length_contentBytes, sectionSize]
  omega

/-! ## The bytes of the file -/

/-- What is written in front of the section. -/
def headerBytes : List UInt8 :=
  stubBytes ++ fileHeaderBytes b.architecture ++ b.optionalBytes
    ++ b.sectionHeaderBytes

@[simp]
theorem length_importDirectoryBytes : b.importDirectoryBytes.length = 8 := by
  unfold importDirectoryBytes
  split
  · simp only [List.length_append, length_wordBytes]
  · exact length_zeros 8

@[simp]
theorem length_optionalBytes :
    b.optionalBytes.length = optionalSize b.architecture := by
  unfold optionalBytes imageBaseBytes
  simp only
  refine length_padTo ?_
  rw [List.length_append, List.length_append, List.length_append,
    length_wordBytes, length_zeros, length_importDirectoryBytes]
  cases b.architecture <;>
  · rw [length_padTo (by simp [Architecture.directoryCountOffset])]
    decide

theorem length_headerBytes : b.headerBytes.length ≤ sectionOffset := by
  have hstub : stubBytes.length = ntOffset := length_padTo (by decide)
  have hname : (padTo 8 ".idata".toUTF8.data.toList).length = 8 := by decide
  unfold headerBytes fileHeaderBytes sectionHeaderBytes
  simp only [List.length_append, List.length_cons, List.length_nil,
    length_wordBytes, length_zeros, length_optionalBytes, hstub, hname]
  cases b.architecture <;> decide

theorem toList_build :
    b.build.data.toList = padTo sectionOffset b.headerBytes ++ b.sectionBytes :=
  rfl

/-- **The size of a built image.** -/
theorem size_build : b.build.size = sectionOffset + b.sectionSize := by
  show b.build.data.toList.length = _
  rw [toList_build, List.length_append, length_padTo b.length_headerBytes,
    length_sectionBytes]

/-- **The headers are at the start of the file.** -/
theorem hasAt_headers : HasAt b.build 0 b.headerBytes := by
  have hall := HasAt.self b.build
  rw [toList_build, padTo, List.append_assoc] at hall
  exact (HasAt.append_iff.1 hall).1

/-- **What is written into the section is at its start.** -/
theorem hasAt_content : HasAt b.build sectionOffset b.contentBytes := by
  have hall := HasAt.self b.build
  rw [toList_build, HasAt.append_iff, length_padTo b.length_headerBytes,
    Nat.zero_add, sectionBytes_eq] at hall
  exact (HasAt.append_iff.1 hall.2).1

/-! ## The pieces of the section -/

/-- **The descriptors are at the start of the section.** -/
theorem hasAt_descriptor {i : Nat} (hi : i < b.described.length) :
    HasAt b.build (sectionOffset + i * descriptorSize)
      (descriptorBytes b.described[i].1 b.described[i].2) := by
  have hcontent := b.hasAt_content
  unfold contentBytes at hcontent
  rw [List.append_assoc, List.append_assoc, HasAt.append_iff] at hcontent
  exact HasAt.getElem_flatMap (fun x _ => length_descriptorBytes x.1 x.2)
    hcontent.1 hi

/-- **Behind the descriptors there are zeros.** -/
theorem hasAt_sentinel :
    HasAt b.build (sectionOffset + b.described.length * descriptorSize)
      (zeros descriptorSize) := by
  have hcontent := b.hasAt_content
  unfold contentBytes at hcontent
  rw [List.append_assoc, HasAt.append_iff, HasAt.append_iff,
    length_descriptorsBytes] at hcontent
  exact hcontent.1.2

/-- **The tables are behind the descriptors.** -/
theorem hasAt_tables :
    HasAt b.build (sectionOffset + b.descriptorTableSize)
      (b.placed.flatMap (tablesBytes b.architecture)) := by
  have hcontent := b.hasAt_content
  unfold contentBytes at hcontent
  rw [HasAt.append_iff, HasAt.append_iff, length_descriptorTable] at hcontent
  exact hcontent.1.2

/-- **The names are behind the tables.** -/
theorem hasAt_names :
    HasAt b.build
      (sectionOffset
        + (placeTables b.architecture b.descriptorTableSize b.modules).2)
      (b.placed.flatMap fun x => namesBytes x.1 x.2) := by
  have hcontent := b.hasAt_content
  have hlength := length_tablesBytes (a := b.architecture)
    b.descriptorTableSize
    (placeTables b.architecture b.descriptorTableSize b.modules).2 b.modules
  unfold contentBytes at hcontent
  have hnames := (HasAt.append_iff.1 hcontent).2
  rwa [List.length_append, length_descriptorTable, placed, hlength] at hnames

/-- **The pieces of each module are where its layout says.** -/
theorem placedAt_of_mem {x : ModuleSpec × ModuleLayout} (hx : x ∈ b.placed) :
    PlacedAt b.build sectionOffset b.architecture x.1 x.2 := by
  obtain ⟨hlookup, haddress⟩ := tables_of_mem b.hasAt_tables hx
  obtain ⟨hhints, hname⟩ := names_of_mem b.hasAt_names hx
  refine ⟨hintNames_length_of_mem hx, ?_, hhints, hname⟩
  unfold readTable
  split
  · exact hlookup
  · exact haddress

end DriverAudit.Blueprint
