import DriverAudit.Image.Headers
import DriverAudit.Proofs.Image.BuiltSection

/-!
# The headers of a built image

Reading the headers of a built image gives the headers that its blueprint asks
for, with all their fields (`read_build`): the layout, the import directory
where there is one, and the one section. Nothing is asked of the blueprint; a
section too large for its fields has its size cut off there, as in every
image. Nor is anything asked of what is behind the headers (`HasHeaders`).
-/

namespace DriverAudit

namespace Blueprint

variable (b : Blueprint)

/-! ## The headers of a blueprint -/

/-- The file header. -/
def fileHeader : FileHeader where
  machine := Machine.ofCode (UInt16.ofNat (machineCode b.architecture))
  sectionCount := 1
  timestamp := 0
  optionalSize := UInt16.ofNat (optionalSize b.architecture)
  flags := 2

/-- The preferred load address. -/
def imageBase : Architecture → UInt64
  | .pe32 => 0x10000
  | .pe32Plus => 0x140000000

/-- The address that the import directory gives. -/
def tableAddress : Nat :=
  match b.importDirectoryAddress with
  | some address => address.toNat
  | none => sectionAddress

/-- The directory of the import table. -/
def importDirectory : DataDirectory :=
  if b.hasImportDirectory then
    ⟨UInt32.ofNat b.tableAddress, UInt32.ofNat b.descriptorTableSize⟩
  else .absent

/-- The optional header. -/
def optionalHeader : OptionalHeader where
  architecture := b.architecture
  imageBase := imageBase b.architecture
  directoryCount := UInt32.ofNat directoryCount
  imports := b.importDirectory

/-- The name of the section. -/
def sectionName : Vector UInt8 8 :=
  #v[0x2E, 0x69, 0x64, 0x61, 0x74, 0x61, 0, 0]

/-- The one section. -/
def sectionHeader : Section where
  rawName := sectionName
  virtualSize := UInt32.ofNat b.sectionSize
  virtualAddress := UInt32.ofNat sectionAddress
  rawSize := UInt32.ofNat b.sectionSize
  rawOffset := UInt32.ofNat sectionOffset
  flags := 0xC0000040

/-- **The headers that a blueprint asks for.** -/
def headers : Headers where
  stub := ⟨StubHeader.signature, UInt32.ofNat ntOffset⟩
  file := b.fileHeader
  optional := b.optionalHeader
  sections := [b.sectionHeader]

/-! ## Where the headers are -/

/-- Where the optional header starts. -/
def optionalOffset : Nat := ntOffset + Headers.fixedSize

theorem bytesAt_of_inside {d : ByteArray} {offset width : Nat}
    (h : Inside d offset width) :
    bytesAt d offset width
      = .ok (d.extract offset (offset + width)).data.toList :=
  if_pos (covers_iff.2 h)

/-- The declared size leaves room for the import directory. -/
theorem importsEnd_le (a : Architecture) :
    OptionalHeader.importsOffset a + DataDirectory.byteSize
      ≤ (UInt16.ofNat (optionalSize a)).toNat := by
  cases a <;> decide

/-- **Data that start with the headers of a blueprint.** -/
structure HasHeaders (b : Blueprint) (d : ByteArray) : Prop where
  size_le : sectionOffset ≤ d.size
  hasAt : HasAt d 0 b.headerBytes

namespace HasHeaders

variable {b} {d : ByteArray} (h : b.HasHeaders d)
include h

/-- **Each header follows the one before it.** -/
theorem hasAt_each_header :
    HasAt d 0 stubBytes
      ∧ HasAt d ntOffset (fileHeaderBytes b.architecture)
      ∧ HasAt d optionalOffset b.optionalBytes
      ∧ HasAt d (optionalOffset + optionalSize b.architecture)
        b.sectionHeaderBytes := by
  have hstub : stubBytes.length = ntOffset := length_padTo (by decide)
  have hfile : (fileHeaderBytes b.architecture).length = Headers.fixedSize := by
    simp only [fileHeaderBytes, List.length_append, length_wordBytes,
      length_zeros]
    rfl
  have hall := h.hasAt
  unfold headerBytes at hall
  rw [HasAt.append_iff, HasAt.append_iff, HasAt.append_iff,
    List.length_append, List.length_append, hstub, hfile,
    length_optionalBytes, Nat.zero_add, Nat.zero_add, Nat.zero_add] at hall
  obtain ⟨⟨⟨h1, h2⟩, h3⟩, h4⟩ := hall
  exact ⟨h1, h2, h3, h4⟩

/-! ## Reading them -/

/-- A range in front of the section is inside the file. -/
theorem inside_of_le {offset width : Nat}
    (hle : offset + width ≤ sectionOffset) : Inside d offset width :=
  Nat.le_trans hle h.size_le

theorem read_stub :
    StubHeader.read d
      = .ok ⟨StubHeader.signature, UInt32.ofNat ntOffset⟩ := by
  have hstub := h.hasAt_each_header.1
  unfold stubBytes padTo at hstub
  simp only [HasAt.append_iff, List.length_append, length_wordBytes,
    length_zeros] at hstub
  obtain ⟨⟨⟨hmagic, _⟩, hnt⟩, _⟩ := hstub
  have hinside : Inside d (UInt32.ofNat ntOffset).toNat
      Headers.fixedSize := h.inside_of_le (by decide)
  have hfield : u32At d StubHeader.ntOffsetField
      = .ok (UInt32.ofNat ntOffset) := hnt.u32At_eq
  unfold StubHeader.read
  rw [hmagic.u16At_eq]
  simp only
  rw [if_neg (by decide)]
  simp only [hfield, bytesAt_of_inside hinside, ofRead_ok, bind, Except.bind]
  rfl

theorem bytesAt_signature :
    bytesAt d ntOffset Headers.signature.length
      = .ok Headers.signature := by
  have hfile := h.hasAt_each_header.2.1
  unfold fileHeaderBytes at hfile
  simp only [HasAt.append_iff] at hfile
  -- the pieces are nested to the left, the signature innermost
  obtain ⟨⟨⟨⟨⟨hsignature, _⟩, _⟩, _⟩, _⟩, _⟩ := hfile
  exact hsignature.bytesAt_eq (by decide)

theorem read_fileHeader :
    FileHeader.read d (ntOffset + Headers.signature.length)
      = .ok b.fileHeader := by
  have hfile := h.hasAt_each_header.2.1
  unfold fileHeaderBytes at hfile
  simp only [HasAt.append_iff, List.length_append, length_wordBytes,
    length_zeros] at hfile
  obtain ⟨⟨⟨⟨⟨_, hmachine⟩, hcount⟩, hzeros⟩, hsize⟩, hflags⟩ := hfile
  have hinside : Inside d (ntOffset + Headers.signature.length)
      FileHeader.byteSize := h.inside_of_le (by decide)
  have htime : u32At d (ntOffset + Headers.signature.length + 4)
      = .ok 0 := HasAt.u32At_of_replicate hzeros (i := 0) (by decide)
  unfold FileHeader.read
  rw [bytesAt_of_inside hinside, htime]
  rw [show u16At d (ntOffset + Headers.signature.length) = _ from
      hmachine.u16At_eq,
    show u16At d (ntOffset + Headers.signature.length + 2) = _ from
      hcount.u16At_eq,
    show u16At d (ntOffset + Headers.signature.length + 16) = _ from
      hsize.u16At_eq,
    show u16At d (ntOffset + Headers.signature.length + 18) = _ from
      hflags.u16At_eq]
  rfl

/-- The fields of the optional header that are read, at their places. -/
theorem hasAt_optional_fields :
    HasAt d optionalOffset (wordBytes 2 b.architecture.magic.toNat)
      ∧ HasAt d (optionalOffset + 24) (imageBaseBytes b.architecture)
      ∧ HasAt d (optionalOffset + b.architecture.directoryCountOffset)
        (wordBytes 4 directoryCount)
      ∧ HasAt d
        (optionalOffset + OptionalHeader.importsOffset b.architecture)
        b.importDirectoryBytes := by
  have hoptional := h.hasAt_each_header.2.2.1
  unfold optionalBytes padTo at hoptional
  simp only at hoptional
  obtain ⟨hfields, _⟩ := HasAt.append_iff.1 hoptional
  -- the number of directories stands where the padding of the front ends
  rw [HasAt.append_iff, HasAt.append_iff, HasAt.append_iff] at hfields
  obtain ⟨⟨⟨hpadded, hcount⟩, _⟩, hdirectory⟩ := hfields
  have hfront := (HasAt.append_iff.1 hpadded).1
  simp only [HasAt.append_iff, List.length_append, length_wordBytes,
    length_zeros] at hfront hcount hdirectory
  obtain ⟨⟨⟨⟨⟨⟨⟨⟨⟨hmagic, _⟩, hbase⟩, _⟩, _⟩, _⟩, _⟩, _⟩, _⟩, _⟩ := hfront
  refine ⟨hmagic, hbase, ?_, ?_⟩
  · cases ha : b.architecture <;> rw [ha] at hcount <;> exact hcount
  · cases ha : b.architecture <;> rw [ha] at hdirectory <;> exact hdirectory

theorem readImageBase_eq :
    OptionalHeader.readImageBase d optionalOffset b.architecture
      = .ok (imageBase b.architecture) := by
  have hbase := h.hasAt_optional_fields.2.1
  unfold OptionalHeader.readImageBase
  cases ha : b.architecture with
  | pe32 =>
    rw [ha] at hbase
    have hword := (HasAt.append_iff.1 hbase).2.u32At_eq
    simp only
    rw [show u32At d (optionalOffset + 28) = _ from hword]
    rfl
  | pe32Plus =>
    rw [ha] at hbase
    simp only
    rw [HasAt.u64At_eq hbase]
    rfl

theorem readImports_eq :
    OptionalHeader.readImports d optionalOffset
        (UInt16.ofNat (optionalSize b.architecture)).toNat b.architecture
        (UInt32.ofNat directoryCount)
      = .ok b.importDirectory := by
  have hdirectory := h.hasAt_optional_fields.2.2.2
  unfold OptionalHeader.readImports
  rw [if_pos ⟨by decide, importsEnd_le b.architecture⟩]
  unfold importDirectoryBytes at hdirectory
  unfold importDirectory
  by_cases himports : b.hasImportDirectory = true
  · rw [if_pos himports] at hdirectory ⊢
    obtain ⟨haddress, hsize⟩ := HasAt.append_iff.1 hdirectory
    rw [length_wordBytes] at hsize
    rw [haddress.u32At_eq, hsize.u32At_eq]
    rfl
  · rw [if_neg himports] at hdirectory ⊢
    have hfirst := HasAt.u32At_of_replicate hdirectory (i := 0) (by decide)
    have hsecond := HasAt.u32At_of_replicate hdirectory (i := 4) (by decide)
    rw [Nat.add_zero] at hfirst
    rw [hfirst, hsecond]
    rfl

theorem read_optionalHeader :
    OptionalHeader.read d optionalOffset
        (UInt16.ofNat (optionalSize b.architecture))
      = .ok b.optionalHeader := by
  obtain ⟨hmagic, _, hcount, _⟩ := h.hasAt_optional_fields
  have hroom : b.architecture.directoryCountOffset + 4
      ≤ (UInt16.ofNat (optionalSize b.architecture)).toNat := by
    cases b.architecture <;> decide
  have hmagic' : u16At d optionalOffset
      = .ok b.architecture.magic := by
    rw [hmagic.u16At_eq, UInt16.ofNat_toNat]
  have hcount' : OptionalHeader.readDirectoryCount d optionalOffset
      (UInt16.ofNat (optionalSize b.architecture)).toNat b.architecture
        = .ok (UInt32.ofNat directoryCount) := by
    unfold OptionalHeader.readDirectoryCount
    rw [if_pos hroom, hcount.u32At_eq]
    rfl
  unfold OptionalHeader.read
  simp only [hmagic', ofRead_ok, bind, Except.bind,
    Architecture.ofMagic?_magic, h.readImageBase_eq, hcount',
    h.readImports_eq]
  rfl

theorem headerAt_eq :
    Section.headerAt d (optionalOffset + optionalSize b.architecture)
      = b.sectionHeader := by
  have hsection := h.hasAt_each_header.2.2.2
  have hpadded : padTo 8 ".idata".toUTF8.data.toList = sectionName.toList := by
    decide
  unfold sectionHeaderBytes at hsection
  rw [hpadded] at hsection
  simp only [HasAt.append_iff, List.length_append, length_wordBytes,
    length_zeros, Vector.length_toList] at hsection
  obtain ⟨⟨⟨⟨⟨⟨hname, hvirtual⟩, haddress⟩, hsize⟩, hoffset⟩, _⟩, hflags⟩ :=
    hsection
  have hraw : (Vector.ofFn fun i : Fin 8 => byteAt d
      (optionalOffset + optionalSize b.architecture + i.val)) = sectionName := by
    refine Vector.ext (fun i hi => ?_)
    rw [Vector.getElem_ofFn]
    exact hname.byteAt_eq (by rwa [Vector.length_toList])
  unfold Section.headerAt sectionHeader
  rw [hraw, hvirtual.ofNat_wordAt_eq, haddress.ofNat_wordAt_eq,
    hsize.ofNat_wordAt_eq, hoffset.ofNat_wordAt_eq, hflags.ofNat_wordAt_eq]
  rfl

/-- The section table has one section. -/
theorem headersAt_eq :
    SectionTable.headersAt d
        (optionalOffset + optionalSize b.architecture) 1
      = .ok [b.sectionHeader] := by
  have hinside : Inside d (optionalOffset + optionalSize b.architecture)
      Section.headerSize := by
    refine h.inside_of_le ?_
    cases b.architecture <;> decide
  have hfind : (List.range 1).find? (fun i => !covers d
      (optionalOffset + optionalSize b.architecture + i * Section.headerSize)
      Section.headerSize) = none := by
    refine List.find?_eq_none.2 (fun i hi => ?_)
    obtain rfl : i = 0 := Nat.lt_one_iff.1 (List.mem_range.1 hi)
    rw [Nat.zero_mul, Nat.add_zero, covers_iff.2 hinside]
    decide
  unfold SectionTable.headersAt
  simp only [hfind]
  rw [← h.headerAt_eq]
  rfl

/-! ## All headers -/

/-- **Data that start with the headers of a blueprint** have the headers that
it asks for. -/
theorem read_eq : Headers.read d = .ok b.headers := by
  have hsize : (UInt16.ofNat (optionalSize b.architecture)).toNat
      = optionalSize b.architecture := by
    cases b.architecture <;> rfl
  have hsections := h.headersAt_eq
  rw [← hsize] at hsections
  refine bind_eq_ok_iff.2 ⟨_, h.read_stub, ?_⟩
  refine bind_eq_ok_iff.2
    ⟨Headers.signature, congrArg ofRead h.bytesAt_signature, ?_⟩
  rw [if_neg (not_not_intro rfl)]
  refine bind_eq_ok_iff.2 ⟨_, h.read_fileHeader, ?_⟩
  refine bind_eq_ok_iff.2 ⟨_, h.read_optionalHeader, ?_⟩
  exact bind_eq_ok_iff.2 ⟨_, hsections, rfl⟩

end HasHeaders

theorem hasHeaders_build : b.HasHeaders b.build where
  size_le := by
    rw [size_build]
    exact Nat.le_add_right _ _
  hasAt := b.hasAt_headers

/-- **The headers of a built image are those that its blueprint asks for.** -/
theorem read_build : Headers.read b.build = .ok b.headers :=
  b.hasHeaders_build.read_eq

/-! ## Addresses -/

/-- **A section that stays in the lower half of the addresses.** What marks
an import by number is the highest bit of a thunk, so that the addresses of such
a section can be told from numbers. -/
def IsLow : Prop := sectionAddress + b.sectionSize ≤ 2 ^ 31

/-- Whether an address lies in the section. -/
def Covers (address : Nat) : Prop :=
  sectionAddress ≤ address ∧ address < sectionAddress + b.sectionSize

instance : Decidable b.IsLow := inferInstanceAs (Decidable (_ ≤ _))

instance (address : Nat) : Decidable (b.Covers address) :=
  inferInstanceAs (Decidable (_ ∧ _))

variable {b}

/-- The positions of a low section have addresses that do not wrap around. -/
theorem IsLow.addressOf_eq (h : b.IsLow) {position : Nat}
    (hposition : position < b.sectionSize) :
    addressOf position = sectionAddress + position := by
  unfold IsLow at h
  refine Nat.mod_eq_of_lt (Nat.lt_of_lt_of_le
    (show sectionAddress + position < 2 ^ 31 by omega) ?_)
  decide

theorem IsLow.contains_iff (h : b.IsLow) {address : UInt32} :
    b.sectionHeader.contains address = true ↔ b.Covers address.toNat := by
  have hsize : (UInt32.ofNat b.sectionSize).toNat = b.sectionSize := by
    unfold IsLow at h
    exact Nat.mod_eq_of_lt (by omega)
  have hmapped : b.sectionHeader.mappedSize.toNat = b.sectionSize := by
    show (if _ then UInt32.ofNat b.sectionSize
      else UInt32.ofNat b.sectionSize).toNat = _
    rw [ite_self, hsize]
  unfold Section.contains Covers
  rw [Bool.and_eq_true, decide_eq_true_eq, decide_eq_true_eq, hmapped]
  rfl

theorem IsLow.toNat_addressOf (h : b.IsLow) {position : Nat}
    (hposition : position < b.sectionSize) :
    (UInt32.ofNat (addressOf position)).toNat = sectionAddress + position := by
  rw [h.addressOf_eq hposition]
  unfold IsLow at h
  exact Nat.mod_eq_of_lt (by omega)

/-- An address in the section is not the one that stands for nothing. -/
theorem IsLow.ofNat_addressOf_ne_zero (h : b.IsLow) {position : Nat}
    (hposition : position < b.sectionSize) :
    UInt32.ofNat (addressOf position) ≠ 0 := by
  intro hzero
  have hvalue := h.toNat_addressOf hposition
  have hpos : 0 < sectionAddress := by decide
  rw [hzero, UInt32.toNat_zero] at hvalue
  omega

/-- **The address of a position leads to the position.** -/
theorem IsLow.fileOffset_addressOf (h : b.IsLow) {position : Nat}
    (hposition : position < b.sectionSize) :
    b.headers.sections.fileOffset (UInt32.ofNat (addressOf position))
      = .ok (sectionOffset + position) := by
  have hvalue := h.toNat_addressOf hposition
  have hcovers : b.sectionHeader.contains (UInt32.ofNat (addressOf position))
      = true := by
    rw [h.contains_iff, hvalue]
    exact ⟨Nat.le_add_right _ _, Nat.add_lt_add_left hposition _⟩
  show SectionTable.fileOffset [b.sectionHeader] _ = _
  unfold SectionTable.fileOffset SectionTable.covering?
  rw [List.find?_singleton, if_pos hcovers]
  show Except.ok (sectionOffset + (_ - sectionAddress)) = _
  rw [hvalue, Nat.add_sub_cancel_left]

/-- **An address outside the section leads nowhere.** -/
theorem IsLow.fileOffset_of_not_covers (h : b.IsLow) {address : UInt32}
    (haddress : ¬ b.Covers address.toNat) :
    b.headers.sections.fileOffset address
      = .error (.unmapped address.toUInt64) := by
  have hcovers : ¬ b.sectionHeader.contains address = true :=
    fun hc => haddress (h.contains_iff.1 hc)
  show SectionTable.fileOffset [b.sectionHeader] _ = _
  unfold SectionTable.fileOffset SectionTable.covering?
  rw [List.find?_singleton, if_neg hcovers]

/-- What is in the section of a file of that size is at a position of the
section. -/
theorem lt_sectionSize {d : ByteArray} (hsize : d.size = b.build.size)
    {position : Nat} {bytes : List UInt8}
    (h : HasAt d (sectionOffset + position) bytes)
    (hpos : 0 < bytes.length) : position < b.sectionSize := by
  have hin := h.inside hpos
  unfold Inside at hin
  rw [hsize, size_build] at hin
  omega

end Blueprint

end DriverAudit
