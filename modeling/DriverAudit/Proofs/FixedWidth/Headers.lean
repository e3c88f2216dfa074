import DriverAudit.Image.Headers
import DriverAudit.Proofs.FixedWidth.Reads

/-!
# Header parsers in words

A field of a header is read at the sum of the header's offset and that of the
field. Nothing bounds the first, so the sum is a word only because of what was
read before: a file header is read field by field once it is known to be inside
the data, and an optional header once its first word is. The section headers
stand one behind the other, and the offset of the next is a word because the
one before was inside the data.
-/

namespace DriverAudit.FixedWidth

/-! ## The parsers -/

/-- The 16-bit word of a field. -/
def u16Of (d : ByteArray) (offset field : UInt64) :
    Attempt ImageError UInt16 := do
  let place ← plus offset field
  u16At d place

/-- The 32-bit word of a field. -/
def u32Of (d : ByteArray) (offset field : UInt64) :
    Attempt ImageError UInt32 := do
  let place ← plus offset field
  u32At d place

/-- The 64-bit word of a field. -/
def u64Of (d : ByteArray) (offset field : UInt64) :
    Attempt ImageError UInt64 := do
  let place ← plus offset field
  u64At d place

/-- **The opening header.** -/
def readStub (d : ByteArray) : Attempt ImageError StubHeader := do
  let magic ← (u16At d 0).adapt fun _ => .notAnImage
  if magic ≠ StubHeader.signature then throw .notAnImage
  else
    let ntOffset ← u32At d 0x3C
    let _ ← bytesAt d ntOffset.toUInt64 24
    return { magic, ntOffset }

/-- **The file header** at an offset. -/
def readFile (d : ByteArray) (offset : UInt64) :
    Attempt ImageError FileHeader := do
  let _ ← bytesAt d offset 20
  let machine ← u16At d offset
  let sectionCount ← u16Of d offset 2
  let timestamp ← u32Of d offset 4
  let optionalSize ← u16Of d offset 16
  let flags ← u16Of d offset 18
  return { machine := Machine.ofCode machine, sectionCount, timestamp,
           optionalSize, flags }

/-- The preferred load address. -/
def readImageBase (d : ByteArray) (offset : UInt64) :
    Architecture → Attempt ImageError UInt64
  | .pe32 => do return (← u32Of d offset 28).toUInt64
  | .pe32Plus => u64Of d offset 24

/-- The number of data directories, up to the declared end. -/
def readDirectoryCount (d : ByteArray) (offset declaredEnd : UInt64)
    (a : Architecture) : Attempt ImageError UInt32 := do
  let place ← plus offset (UInt64.ofNat a.directoryCountOffset)
  let last ← plus place 4
  if last ≤ declaredEnd then u32At d place else return 0

/-- The import directory, up to the declared end. -/
def readImports (d : ByteArray) (offset declaredEnd : UInt64)
    (a : Architecture) (count : UInt32) :
    Attempt ImageError DataDirectory := do
  let table ← plus offset (UInt64.ofNat a.directoriesOffset)
  let index ← times 1 8
  let place ← plus table index
  if 1 < count then
    let last ← plus place 8
    if last ≤ declaredEnd then
      let address ← u32At d place
      let size ← u32Of d place 4
      return { address, size }
    else return .absent
  else return .absent

/-- **The optional header** at an offset, of the declared `size`. -/
def readOptional (d : ByteArray) (offset : UInt64) (size : UInt16) :
    Attempt ImageError OptionalHeader := do
  let magic ← u16At d offset
  match Architecture.ofMagic? magic with
  | none => throw (.unsupportedMagic magic)
  | some architecture =>
    let declaredEnd ← plus offset size.toUInt64
    let imageBase ← readImageBase d offset architecture
    let directoryCount ← readDirectoryCount d offset declaredEnd architecture
    let imports ←
      readImports d offset declaredEnd architecture directoryCount
    return { architecture, imageBase, directoryCount, imports }

/-- The section header at an offset. -/
def readSection (d : ByteArray) (offset : UInt64) :
    Attempt ImageError Section := do
  let raw ← bytesAt d offset 40
  let front ← part raw 0 8
  let name ← copied 8 front
  let virtualSize ← u32Of d offset 8
  let virtualAddress ← u32Of d offset 12
  let rawSize ← u32Of d offset 16
  let rawOffset ← u32Of d offset 20
  let flags ← u32Of d offset 36
  return { rawName := Vector.ofFn fun i => byteAt name i, virtualSize,
           virtualAddress, rawSize, rawOffset, flags }

/-- The section headers from number `i` on, `n` of them. -/
def readSectionsFrom (d : ByteArray) (offset : UInt64) (i : Nat) :
    Nat → Attempt ImageError SectionTable
  | 0 => return []
  | n + 1 => do
    let distance ← times (UInt64.ofNat i) 40
    let place ← plus offset distance
    let first ← readSection d place
    let rest ← readSectionsFrom d offset (i + 1) n
    return first :: rest

/-- **The section headers** at an offset, `count` of them. -/
def readSections (d : ByteArray) (offset : UInt64) (count : UInt16) :
    Attempt ImageError SectionTable :=
  readSectionsFrom d offset 0 count.toNat

/-- **All headers**, from the start of the file. -/
def readHeaders (d : ByteArray) : Attempt ImageError Headers := do
  let stub ← readStub d
  let nt := stub.ntOffset.toUInt64
  let found ← bytesAt d nt 4
  if found.data.toList ≠ Headers.signature then throw .notAnImage
  else
    let fileOffset ← plus nt 4
    let file ← readFile d fileOffset
    let optionalOffset ← plus nt 24
    let optional ← readOptional d optionalOffset file.optionalSize
    let sectionsOffset ← plus optionalOffset file.optionalSize.toUInt64
    let sections ← readSections d sectionsOffset file.sectionCount
    return { stub, file, optional, sections }

/-! ## Fields -/

variable {d : ByteArray} (hd : d.size < 2 ^ 63) {offset field : UInt64}
include hd

/-- What follows a range of bytes may rely on the range. -/
theorem exact_bytesAt {β : Type} {f : ByteArray → Attempt ImageError β}
    {g : List UInt8 → Except ImageError β} (offset width : UInt64)
    (h : Inside d offset.toNat width.toNat →
      Exact (f (d.extract offset.toNat (offset.toNat + width.toNat))).run
        (g (d.extract offset.toNat
          (offset.toNat + width.toNat)).data.toList)) :
    Exact ((liftM (bytesAt d offset width)
        : Attempt ImageError ByteArray) >>= f).run
      (ofRead (DriverAudit.bytesAt d offset.toNat width.toNat) >>= g) := by
  rw [bytesAt_eq hd]
  show Exact _ (ofRead (DriverAudit.checked _ _ _ _) >>= g)
  by_cases hin : Inside d offset.toNat width.toNat
  · rw [checked_eq_ok_iff.2 ⟨hin, rfl⟩, checked_eq_ok_iff.2 ⟨hin, rfl⟩]
    exact h hin
  · rw [checked_of_not_inside _ hin, checked_of_not_inside _ hin]
    exact Exact.pure _

omit hd in
/-- A range that was read is inside the data. -/
theorem inside_of_ofRead_eq_ok {α : Type} {place width : Nat} {value a : α}
    (h : ofRead (checked d place width value) = .ok a) :
    Inside d place width := by
  by_contra hout
  rw [checked_of_not_inside _ hout] at h
  cases h

omit hd in
/-- **A read behind an offset is exact** where the sum is a word. -/
theorem exact_beyond {α : Type} {read : UInt64 → Attempt ImageError α}
    (value : Nat → Except ImageError α)
    (hread : ∀ place, Exact (read place).run (value place.toNat))
    (h : offset.toNat + field.toNat < 2 ^ 64) :
    Exact (do
        let place ← plus offset field
        read place : Attempt ImageError α).run
      (value (offset.toNat + field.toNat)) := by
  obtain ⟨place, hplace, hplus⟩ := exact_plus h
  exact Exact.lift hplus (hplace ▸ hread place)

theorem exact_u16Of (h : offset.toNat + field.toNat < 2 ^ 64) :
    Exact (u16Of d offset field).run
      (ofRead (DriverAudit.u16At d (offset.toNat + field.toNat))) :=
  exact_beyond (fun i => ofRead (DriverAudit.u16At d i))
    (exact_u16At hd) h

theorem exact_u32Of (h : offset.toNat + field.toNat < 2 ^ 64) :
    Exact (u32Of d offset field).run
      (ofRead (DriverAudit.u32At d (offset.toNat + field.toNat))) :=
  exact_beyond (fun i => ofRead (DriverAudit.u32At d i))
    (exact_u32At hd) h

theorem exact_u64Of (h : offset.toNat + field.toNat < 2 ^ 64) :
    Exact (u64Of d offset field).run
      (ofRead (DriverAudit.u64At d (offset.toNat + field.toNat))) :=
  exact_beyond (fun i => ofRead (DriverAudit.u64At d i))
    (exact_u64At hd) h

/-! ## The file header -/

/-- **The opening header is read exactly.** -/
theorem exact_readStub : Exact (readStub d).run (StubHeader.read d) := by
  have hmagic : u16At d 0 = ExceptT.mk (pure (ofRead (DriverAudit.u16At d 0)))
    := Exact.iff_eq_pure.1 (exact_u16At hd 0)
  unfold readStub StubHeader.read
  rw [hmagic]
  cases DriverAudit.u16At d 0 with
  | error e => exact Exact.pure _
  | ok magic =>
    show Exact (ExceptT.run (if magic ≠ StubHeader.signature then _ else _)) _
    dsimp only
    split
    · exact Exact.pure _
    · refine Exact.attempt (exact_u32At hd _) (fun ntOffset _ => ?_)
      have hnt : ntOffset.toUInt64.toNat = ntOffset.toNat :=
        UInt32.toNat_toUInt64 _
      rw [← hnt]
      exact exact_bytesAt hd _ 24 (fun _ => Exact.pure _)

/-- **The file header is read exactly at every offset.** -/
theorem exact_readFile (offset : UInt64) :
    Exact (readFile d offset).run (FileHeader.read d offset.toNat) := by
  refine exact_bytesAt hd offset 20 (fun hin => ?_)
  have hsum : ∀ field : UInt64, field.toNat ≤ 20 →
      offset.toNat + field.toNat < 2 ^ 64 := by
    unfold Inside at hin
    omega
  refine Exact.attempt (exact_u16At hd _) (fun _ _ => ?_)
  refine Exact.attempt (exact_u16Of hd (hsum 2 (by decide))) (fun _ _ => ?_)
  refine Exact.attempt (exact_u32Of hd (hsum 4 (by decide))) (fun _ _ => ?_)
  refine Exact.attempt (exact_u16Of hd (hsum 16 (by decide))) (fun _ _ => ?_)
  refine Exact.attempt (exact_u16Of hd (hsum 18 (by decide))) (fun _ _ => ?_)
  exact Exact.pure _

/-! ## The optional header -/

omit hd in
theorem toNat_directoryCountOffset (a : Architecture) :
    (UInt64.ofNat a.directoryCountOffset).toNat = a.directoryCountOffset := by
  cases a <;> rfl

omit hd in
theorem toNat_directoriesOffset (a : Architecture) :
    (UInt64.ofNat a.directoriesOffset).toNat = a.directoriesOffset := by
  cases a <;> rfl

omit hd in
theorem directoriesOffset_le (a : Architecture) : a.directoriesOffset ≤ 112 := by
  cases a <;> decide

section Optional

variable (hin : offset.toNat ≤ d.size)
include hin

theorem exact_readImageBase (a : Architecture) :
    Exact (readImageBase d offset a).run
      (OptionalHeader.readImageBase d offset.toNat a) := by
  have hsum : ∀ field : UInt64, field.toNat ≤ 28 →
      offset.toNat + field.toNat < 2 ^ 64 := by omega
  cases a with
  | pe32 =>
    exact Exact.attempt (exact_u32Of hd (hsum 28 (by decide)))
      (fun _ _ => Exact.pure _)
  | pe32Plus => exact exact_u64Of hd (hsum 24 (by decide))

variable {declaredEnd : UInt64} {size : Nat}
  (hend : declaredEnd.toNat = offset.toNat + size)
include hend

theorem exact_readDirectoryCount (a : Architecture) :
    Exact (readDirectoryCount d offset declaredEnd a).run
      (OptionalHeader.readDirectoryCount d offset.toNat size a) := by
  have hfield := toNat_directoryCountOffset a
  have hle := directoriesOffset_le a
  have hnext := a.directoriesOffset_eq
  obtain ⟨place, hplace, hplus⟩ := exact_plus
    (a := offset) (b := UInt64.ofNat a.directoryCountOffset) (by omega)
  obtain ⟨last, hlast, hplus'⟩ := exact_plus (a := place) (b := 4)
    (by show _ + 4 < _; omega)
  have hwithin : last ≤ declaredEnd ↔ a.directoryCountOffset + 4 ≤ size := by
    have h4 : (4 : UInt64).toNat = 4 := rfl
    rw [UInt64.le_iff_toNat_le]
    omega
  refine Exact.lift hplus (Exact.lift hplus' ?_)
  unfold OptionalHeader.readDirectoryCount
  rw [← hfield, ← hplace]
  simp only [hwithin, hfield]
  split
  · exact exact_u32At hd place
  · exact Exact.pure _

theorem exact_readImports (a : Architecture) (count : UInt32) :
    Exact (readImports d offset declaredEnd a count).run
      (OptionalHeader.readImports d offset.toNat size a count) := by
  have hfield := toNat_directoriesOffset a
  have hle := directoriesOffset_le a
  obtain ⟨table, htable, hplus⟩ := exact_plus
    (a := offset) (b := UInt64.ofNat a.directoriesOffset) (by omega)
  obtain ⟨index, hindex, htimes⟩ := exact_times
    (a := 1) (b := 8) (by decide)
  have hindex : index.toNat = 8 := hindex
  obtain ⟨place, hplace, hplus'⟩ := exact_plus
    (a := table) (b := index) (by omega)
  have hslot : place.toNat
      = offset.toNat + OptionalHeader.importsOffset a := by
    show _ = _ + (a.directoriesOffset + 8)
    omega
  refine Exact.lift hplus (Exact.lift htimes (Exact.lift hplus' ?_))
  unfold OptionalHeader.readImports
  by_cases hcount : 1 < count
  · obtain ⟨last, hlast, hplus''⟩ := exact_plus (a := place) (b := 8)
      (by show _ + 8 < _; omega)
    have hwithin : last ≤ declaredEnd
        ↔ OptionalHeader.importsOffset a + 8 ≤ size := by
      have h8 : (8 : UInt64).toNat = 8 := rfl
      rw [UInt64.le_iff_toNat_le]
      omega
    rw [if_pos hcount]
    refine Exact.lift hplus'' ?_
    simp only [hwithin]
    by_cases hcovered : OptionalHeader.importsOffset a + 8 ≤ size
    · rw [if_pos hcovered, if_pos ⟨UInt32.lt_iff_toNat_lt.1 hcount, hcovered⟩,
        ← hslot]
      refine Exact.attempt (exact_u32At hd place) (fun _ _ => ?_)
      refine Exact.attempt (exact_u32Of hd ?_) (fun _ _ => Exact.pure _)
      show _ + 4 < _
      omega
    · rw [if_neg hcovered, if_neg (fun h => hcovered h.2)]
      exact Exact.pure _
  · rw [if_neg hcount,
      if_neg (fun h => hcount (UInt32.lt_iff_toNat_lt.2 h.1))]
    exact Exact.pure _

end Optional

/-- **The optional header is read exactly at every offset**: its first word is
inside the data, so the fields behind it are at words. -/
theorem exact_readOptional (offset : UInt64) (size : UInt16) :
    Exact (readOptional d offset size).run
      (OptionalHeader.read d offset.toNat size) := by
  refine Exact.attempt (exact_u16At hd offset) (fun magic hmagic => ?_)
  have hin : Inside d offset.toNat 2 := inside_of_ofRead_eq_ok hmagic
  unfold Inside at hin
  cases Architecture.ofMagic? magic with
  | none => exact Exact.pure _
  | some a =>
    have hsize : size.toUInt64.toNat = size.toNat := UInt16.toNat_toUInt64 _
    have hlt : size.toNat < 2 ^ 16 := size.toNat_lt
    obtain ⟨declaredEnd, hend, hplus⟩ := exact_plus
      (a := offset) (b := size.toUInt64) (by omega)
    rw [hsize] at hend
    have hle : offset.toNat ≤ d.size := by omega
    refine Exact.lift hplus ?_
    refine Exact.attempt (exact_readImageBase hd hle a) (fun _ _ => ?_)
    refine Exact.attempt (exact_readDirectoryCount hd hle hend a)
      (fun count _ => ?_)
    refine Exact.attempt (exact_readImports hd hle hend a count)
      (fun _ _ => ?_)
    exact Exact.pure _

/-! ## The section headers -/

/-- A field of a header that is inside the data is there. -/
theorem exact_u32Of_of_inside {width : Nat} (hin : Inside d offset.toNat width)
    (hfield : field.toNat + 4 ≤ width) :
    Exact (u32Of d offset field).run
      (.ok (UInt32.ofNat (wordAt d (offset.toNat + field.toNat) 4))) := by
  unfold Inside at hin
  have hword : Inside d (offset.toNat + field.toNat) 4 := by
    unfold Inside
    omega
  have hread : Exact (u32Of d offset field).run _ :=
    exact_u32Of hd (by omega)
  rw [DriverAudit.u32At, checked_eq_ok_iff.2 ⟨hword, rfl⟩] at hread
  exact hread

omit hd in
/-- The name of a section is the front of its header. -/
theorem headerAt_of_front {place : Nat} (hin : Inside d place 40) :
    { rawName := Vector.ofFn fun i : Fin 8 =>
        byteAt ((d.extract place (place + 40)).extract 0 8) i
      virtualSize := UInt32.ofNat (wordAt d (place + 8) 4)
      virtualAddress := UInt32.ofNat (wordAt d (place + 12) 4)
      rawSize := UInt32.ofNat (wordAt d (place + 16) 4)
      rawOffset := UInt32.ofNat (wordAt d (place + 20) 4)
      flags := UInt32.ofNat (wordAt d (place + 36) 4) }
      = Section.headerAt d place := by
  have hname : Inside d place 8 := by
    unfold Inside at hin ⊢
    omega
  have hfront : (d.extract place (place + 40)).extract 0 8
      = d.extract place (place + 8) := by
    rw [ByteArray.extract_extract, Nat.add_zero, Nat.min_eq_left (by omega)]
  have hbytes : ∀ i : Fin 8, byteAt (d.extract place (place + 8)) i
      = byteAt d (place + i) := fun i => byteAt_extract hname i.isLt
  unfold Section.headerAt
  simp only [hfront, hbytes]

/-- **A section header is read exactly at every offset.** -/
theorem exact_readSection (offset : UInt64) :
    Exact (readSection d offset).run
      (ofRead (checked d offset.toNat Section.headerSize
        (Section.headerAt d offset.toNat))) := by
  have hraw : bytesAt d offset 40 = ofRead (checked d offset.toNat 40
      (d.extract offset.toNat (offset.toNat + 40))) := bytesAt_eq hd offset 40
  unfold readSection Section.headerSize
  rw [hraw]
  by_cases hin : Inside d offset.toNat 40
  · have hsize := size_extract hin
    have hpart : (8 : UInt64)
        ≤ sizeOf (d.extract offset.toNat (offset.toNat + 40)) := by
      rw [UInt64.le_iff_toNat_le, toNat_sizeOf (by omega), hsize]
      decide
    have hname : ((d.extract offset.toNat (offset.toNat + 40)).extract 0
        8).size = 8 := by
      rw [ByteArray.size_extract, hsize]
      rfl
    rw [checked_eq_ok_iff.2 ⟨hin, rfl⟩, checked_eq_ok_iff.2 ⟨hin, rfl⟩]
    refine Exact.andThen (Exact.answer _) ?_
    refine Exact.lift (Exact.expect ⟨UInt64.zero_le, hpart⟩ _) ?_
    refine Exact.lift (Exact.expect hname _) ?_
    refine Exact.andThen (exact_u32Of_of_inside hd hin (by decide)) ?_
    refine Exact.andThen (exact_u32Of_of_inside hd hin (by decide)) ?_
    refine Exact.andThen (exact_u32Of_of_inside hd hin (by decide)) ?_
    refine Exact.andThen (exact_u32Of_of_inside hd hin (by decide)) ?_
    refine Exact.andThen (exact_u32Of_of_inside hd hin (by decide)) ?_
    rw [← headerAt_of_front hin]
    exact Exact.pure _
  · rw [checked_of_not_inside _ hin, checked_of_not_inside _ hin]
    exact Exact.pure _

omit hd in
/-- The table of section headers, as one read after the other. -/
theorem headersAt_eq_mapM (d : ByteArray) (offset count : Nat) :
    SectionTable.headersAt d offset count
      = (List.range count).mapM fun i =>
          ofRead (checked d (offset + i * Section.headerSize)
            Section.headerSize
            (Section.headerAt d (offset + i * Section.headerSize))) := by
  unfold SectionTable.headersAt
  induction List.range count with
  | nil => rfl
  | cons i rest ih =>
    rw [List.mapM_cons, ← ih]
    simp only [List.find?_cons]
    by_cases hin : Inside d (offset + i * Section.headerSize)
        Section.headerSize
    · rw [covers_iff.2 hin, checked_eq_ok_iff.2 ⟨hin, rfl⟩]
      simp only [Bool.not_true]
      cases rest.find? fun i =>
        !covers d (offset + i * Section.headerSize) Section.headerSize <;> rfl
    · rw [Bool.eq_false_iff.2 (mt covers_iff.1 hin),
        checked_of_not_inside _ hin]
      rfl

/-- The section headers are read exactly from a number on whose header is at a
word. -/
theorem exact_readSectionsFrom (offset : UInt64) (n i : Nat)
    (hcount : i + n < 2 ^ 16)
    (hplace : offset.toNat + i * Section.headerSize < 2 ^ 64) :
    Exact (readSectionsFrom d offset i n).run
      ((List.range' i n).mapM fun i =>
        ofRead (checked d (offset.toNat + i * Section.headerSize)
          Section.headerSize
          (Section.headerAt d (offset.toNat + i * Section.headerSize)))) := by
  induction n generalizing i with
  | zero => exact Exact.pure _
  | succ n ih =>
    unfold Section.headerSize at hplace
    have hi : (UInt64.ofNat i).toNat = i :=
      UInt64.toNat_ofNat_of_lt' (by show _ < 2 ^ 64; omega)
    have h40 : (40 : UInt64).toNat = 40 := rfl
    obtain ⟨distance, hdistance, htimes⟩ := exact_times
      (a := UInt64.ofNat i) (b := 40) (by rw [hi, h40]; omega)
    obtain ⟨place, hat, hplus⟩ := exact_plus
      (a := offset) (b := distance) (by rw [hdistance, hi]; exact hplace)
    have hat : place.toNat = offset.toNat + i * Section.headerSize := by
      rw [hat, hdistance, hi]
      rfl
    rw [List.range'_succ, List.mapM_cons]
    refine Exact.lift htimes (Exact.lift hplus ?_)
    refine Exact.attempt (hat ▸ exact_readSection hd place) (fun _ hread => ?_)
    -- this header is inside the data, so the next one is at a word
    have hin := inside_of_ofRead_eq_ok hread
    unfold Inside Section.headerSize at hin
    refine Exact.attempt (ih (i + 1) (by omega) ?_) (fun _ _ => Exact.pure _)
    unfold Section.headerSize
    omega

/-- **The section headers are read exactly at every offset.** -/
theorem exact_readSections (offset : UInt64) (count : UInt16) :
    Exact (readSections d offset count).run
      (SectionTable.headersAt d offset.toNat count.toNat) := by
  rw [headersAt_eq_mapM, List.range_eq_range']
  refine exact_readSectionsFrom hd offset count.toNat 0 ?_ ?_
  · have hlt : count.toNat < 2 ^ 16 := count.toNat_lt
    omega
  · have hlt : offset.toNat < 2 ^ 64 := offset.toNat_lt
    omega

/-! ## All headers -/

/-- **All headers are read exactly.** The offsets that follow the signature are
words because the file says where its headers are in 32 bits. -/
theorem exact_readHeaders : Exact (readHeaders d).run (Headers.read d) := by
  refine Exact.attempt (exact_readStub hd) (fun stub _ => ?_)
  have hnt : stub.ntOffset.toUInt64.toNat = stub.ntOffset.toNat :=
    UInt32.toNat_toUInt64 _
  have hlt : stub.ntOffset.toNat < 2 ^ 32 := stub.ntOffset.toNat_lt
  have h4 : (4 : UInt64).toNat = 4 := rfl
  have h24 : (24 : UInt64).toNat = 24 := rfl
  rw [← hnt]
  refine exact_bytesAt hd stub.ntOffset.toUInt64 4 (fun hin => ?_)
  dsimp only
  split
  · exact Exact.pure _
  · obtain ⟨fileOffset, hfile, hplus⟩ := exact_plus
      (a := stub.ntOffset.toUInt64) (b := 4) (by omega)
    obtain ⟨optionalOffset, hoptional, hplus'⟩ := exact_plus
      (a := stub.ntOffset.toUInt64) (b := 24) (by omega)
    refine Exact.lift hplus ?_
    refine Exact.attempt (hfile ▸ exact_readFile hd fileOffset)
      (fun file _ => ?_)
    have hsize : file.optionalSize.toUInt64.toNat = file.optionalSize.toNat :=
      UInt16.toNat_toUInt64 _
    have hlt' : file.optionalSize.toNat < 2 ^ 16 := file.optionalSize.toNat_lt
    obtain ⟨sectionsOffset, hsections, hplus''⟩ := exact_plus
      (a := optionalOffset) (b := file.optionalSize.toUInt64) (by omega)
    rw [hsize, hoptional] at hsections
    refine Exact.lift hplus' ?_
    refine Exact.attempt (hoptional ▸ exact_readOptional hd optionalOffset _)
      (fun _ _ => ?_)
    refine Exact.lift hplus'' ?_
    exact Exact.attempt (hsections ▸ exact_readSections hd sectionsOffset _)
      (fun _ _ => Exact.pure _)

end DriverAudit.FixedWidth
