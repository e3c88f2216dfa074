import DriverAudit.Image.Headers
import DriverAudit.Proofs.Bytes.Beginnings

/-!
# How much of a file its headers take up

The headers of an image are read from places that they themselves determine,
and these places may lie anywhere, in any order and one over the other.
`Headers.extent` is the largest end of all of them, computed from the headers.

A file whose headers are accepted contains its extent, and cutting it is
noticed exactly there: a cut behind the extent leaves the headers as they are,
a cut before it leaves a file whose headers are out of bounds
(`Headers.needs_read`).
-/

namespace DriverAudit

/-! ## The extent -/

namespace OptionalHeader

/-- The end of the number of directories, if the declared size covers it. -/
def countEnd (o : OptionalHeader) (offset size : Nat) : Nat :=
  if o.architecture.directoryCountOffset + 4 ≤ size then
    offset + o.architecture.directoryCountOffset + 4
  else 0

/-- The end of the import directory, if the declared size and the number of
directories cover it. -/
def importsEnd (o : OptionalHeader) (offset size : Nat) : Nat :=
  if DataDirectory.importIndex < o.directoryCount.toNat
      ∧ importsOffset o.architecture + DataDirectory.byteSize ≤ size then
    offset + importsOffset o.architecture + DataDirectory.byteSize
  else 0

/-- **The largest end of all that is read of an optional header** with some
offset and declared size. The load address ends 32 bytes behind the offset in
both layouts. -/
def extent (o : OptionalHeader) (offset size : Nat) : Nat :=
  max (offset + 32) (max (o.countEnd offset size) (o.importsEnd offset size))

end OptionalHeader

/-- The end of a run of section headers, if there are any. -/
def SectionTable.headersEnd (offset count : Nat) : Nat :=
  if count = 0 then 0 else offset + count * Section.headerSize

/-- **The largest end of all that is read of some headers**: the field that
locates them, the file header, the optional header and the section headers. -/
def Headers.extent (h : Headers) : Nat :=
  let optionalOffset := h.stub.ntOffset.toNat + fixedSize
  let optionalSize := h.file.optionalSize.toNat
  max (StubHeader.ntOffsetField + 4) <| max optionalOffset <|
    max (h.optional.extent optionalOffset optionalSize)
      (SectionTable.headersEnd (optionalOffset + optionalSize)
        h.file.sectionCount.toNat)

/-! ## The parts -/

variable {d : ByteArray}

/-- The file header takes up its size. -/
theorem FileHeader.exists_needs_read (d : ByteArray) (offset : Nat) :
    ∃ value, Needs (fun c => FileHeader.read c offset) d (offset + byteSize)
      value := by
  refine ⟨_, Needs.of_extent (Needs.bind (Needs.bytesAt d offset byteSize) <|
    Needs.bind (Needs.u16At d offset) <|
    Needs.bind (Needs.u16At d (offset + 2)) <|
    Needs.bind (Needs.u32At d (offset + 4)) <|
    Needs.bind (Needs.u16At d (offset + 16)) <|
    Needs.bind (Needs.u16At d (offset + 18)) <| Needs.pure d _) ?_⟩
  unfold byteSize
  omega

namespace OptionalHeader

/-- The load address ends at the same place in both layouts. -/
theorem exists_needs_readImageBase (d : ByteArray) (offset : Nat)
    (a : Architecture) :
    ∃ value, Needs (fun c => readImageBase c offset a) d (offset + 32)
      value := by
  cases a with
  | pe32 =>
    exact ⟨_, Needs.of_extent
      (Needs.bind (Needs.u32At d (offset + 28)) (Needs.pure d _)) (by omega)⟩
  | pe32Plus => exact ⟨_, Needs.u64At d (offset + 24)⟩

theorem exists_needs_readDirectoryCount (d : ByteArray) (offset size : Nat)
    (a : Architecture) :
    ∃ value, Needs (fun c => readDirectoryCount c offset size a) d
      (if a.directoryCountOffset + 4 ≤ size then
        offset + a.directoryCountOffset + 4 else 0) value := by
  unfold readDirectoryCount
  split
  · exact ⟨_, Needs.u32At d (offset + a.directoryCountOffset)⟩
  · exact ⟨_, Needs.pure d 0⟩

theorem exists_needs_readImports (d : ByteArray) (offset size : Nat)
    (a : Architecture) (count : UInt32) :
    ∃ value, Needs (fun c => readImports c offset size a count) d
      (if DataDirectory.importIndex < count.toNat
          ∧ importsOffset a + DataDirectory.byteSize ≤ size then
        offset + importsOffset a + DataDirectory.byteSize else 0) value := by
  unfold readImports
  split
  · refine ⟨_, Needs.of_extent
      (Needs.bind (Needs.u32At d (offset + importsOffset a)) <|
        Needs.bind (Needs.u32At d (offset + importsOffset a + 4))
          (Needs.pure d _)) ?_⟩
    unfold DataDirectory.byteSize
    omega
  · exact ⟨_, Needs.pure d _⟩

/-- **An optional header that is accepted** takes up its extent. -/
theorem needs_read {offset : Nat} {size : UInt16} {o : OptionalHeader}
    (htwo : 2 ≤ d.size) (hread : OptionalHeader.read d offset size = .ok o) :
    Needs (fun c => OptionalHeader.read c offset size) d
      (o.extent offset size.toNat) o := by
  obtain ⟨magic, hmagic, hrest⟩ := bind_eq_ok_iff.1 hread
  have hneeds := Needs.u16At d offset
  rw [← (hneeds.of_eq_ok htwo hmagic).2] at hrest
  -- the magic word decides the layout, and with it all later places
  cases ha : Architecture.ofMagic? (UInt16.ofNat (wordAt d offset 2)) with
  | none =>
    rw [ha] at hrest
    cases hrest
  | some a =>
    rw [ha] at hrest
    obtain ⟨base, hbase, hrest⟩ := bind_eq_ok_iff.1 hrest
    obtain ⟨count, hcount, hrest⟩ := bind_eq_ok_iff.1 hrest
    obtain ⟨imports, himports, ho⟩ := bind_eq_ok_iff.1 hrest
    obtain ⟨_, hb⟩ := exists_needs_readImageBase d offset a
    obtain ⟨_, hc⟩ := exists_needs_readDirectoryCount d offset size.toNat a
    obtain ⟨_, hi⟩ := exists_needs_readImports d offset size.toNat a count
    obtain rfl := (hb.of_eq_ok htwo hbase).2
    obtain rfl := (hc.of_eq_ok htwo hcount).2
    obtain rfl := (hi.of_eq_ok htwo himports).2
    obtain rfl := Except.ok.inj ho
    apply Needs.of_extent
    · apply Needs.bind hneeds
      simp only [ha]
      exact Needs.bind hb <| Needs.bind hc <| Needs.bind hi <| Needs.pure d _
    · unfold extent countEnd importsEnd
      dsimp only
      omega

end OptionalHeader

/-- A section header depends on its own bytes only. -/
theorem Section.headerAt_eq_of_begins {c : ByteArray} (hc : Begins c d)
    {offset : Nat} (hin : Inside c offset headerSize) :
    headerAt c offset = headerAt d offset := by
  have hword : ∀ i ≤ 36, wordAt c (offset + i) 4 = wordAt d (offset + i) 4 := by
    intro i hi
    refine hc.wordAt_eq ?_
    unfold Inside headerSize at *
    omega
  have hname : ∀ i : Fin 8,
      byteAt c (offset + i.val) = byteAt d (offset + i.val) := by
    intro i
    refine hc.byteAt_eq _ ?_
    unfold Inside headerSize at hin
    omega
  unfold headerAt
  rw [hword 8 (by omega), hword 12 (by omega), hword 16 (by omega),
    hword 20 (by omega), hword 36 (by omega), funext hname]

/-- The first section header that is not inside the data, if there is one. -/
theorem SectionTable.exists_needs_headersAt (d : ByteArray)
    (offset count : Nat) :
    ∃ value, Needs (fun c => headersAt c offset count) d
      (headersEnd offset count) value := by
  refine ⟨(List.range count).map fun i =>
    Section.headerAt d (offset + i * Section.headerSize), ?_, ?_⟩
  · intro c hc hextent
    have hin : ∀ i ∈ List.range count,
        Inside c (offset + i * Section.headerSize) Section.headerSize := by
      intro i hi
      have hlt := List.mem_range.1 hi
      unfold headersEnd at hextent
      unfold Inside Section.headerSize at *
      split at hextent <;> omega
    have hnone : (List.range count).find? (fun i =>
        !covers c (offset + i * Section.headerSize) Section.headerSize)
          = none := by
      refine List.find?_eq_none.2 (fun i hi => ?_)
      rw [covers_iff.2 (hin i hi)]
      exact Bool.false_ne_true
    simp only [headersAt, hnone]
    refine congrArg Except.ok (List.map_congr_left (fun i hi => ?_))
    exact Section.headerAt_eq_of_begins hc (hin i hi)
  · intro c hc _ hextent
    cases hfound : (List.range count).find? (fun i =>
        !covers c (offset + i * Section.headerSize) Section.headerSize) with
    | some i => 
      refine ⟨offset + i * Section.headerSize, Section.headerSize, ?_⟩
      simp only [headersAt, hfound]
    | none =>
      -- all headers would be inside, the last one too
      rw [List.find?_eq_none] at hfound
      unfold headersEnd at hextent
      split at hextent
      · omega
      · have hlast := hfound (count - 1) (List.mem_range.2 (by omega))
        rw [Bool.not_eq_true', Bool.not_eq_false, covers_iff] at hlast
        unfold Inside Section.headerSize at *
        omega

namespace StubHeader

/-- What is read of an opening header behind its signature. -/
def readBehind (d : ByteArray) : Except ImageError StubHeader := do
  let ntOffset ← ofRead (u32At d ntOffsetField)
  let _ ← ofRead (bytesAt d ntOffset.toNat Headers.fixedSize)
  return { magic := signature, ntOffset }

/-- Whether data open with the signature. -/
def HasSignature (d : ByteArray) : Prop :=
  Inside d 0 2 ∧ UInt16.ofNat (wordAt d 0 2) = signature

theorem read_eq_readBehind (h : HasSignature d) : read d = readBehind d := by
  have hword : u16At d 0 = .ok signature :=
    checked_eq_ok_iff.2 h
  unfold read
  rw [hword]
  exact if_neg (not_not_intro rfl)

theorem hasSignature_of_read {stub : StubHeader} (h : read d = .ok stub) :
    HasSignature d := by
  unfold read at h
  split at h
  case h_1 => cases h
  case h_2 magic hmagic =>
    split at h
    case isTrue => cases h
    case isFalse hsig =>
      rw [Decidable.not_not] at hsig
      exact checked_eq_ok_iff.1 (hsig ▸ hmagic)

/-- The signature survives any cut that leaves two bytes. -/
theorem HasSignature.of_begins {c : ByteArray} (h : HasSignature d)
    (hc : Begins c d) (hsize : 2 ≤ c.size) : HasSignature c := by
  have hin : Inside c 0 2 := hsize
  refine ⟨hin, ?_⟩
  rw [hc.wordAt_eq hin]
  exact h.2

/-- **The opening header** takes up its last field, and asks for the signature
and the file header behind the offset that it gives. -/
theorem needs_read {stub : StubHeader} (hread : StubHeader.read d = .ok stub) :
    Needs StubHeader.read d
      (max (ntOffsetField + 4) (stub.ntOffset.toNat + Headers.fixedSize))
      stub := by
  have hsig := hasSignature_of_read hread
  refine Needs.of_read
    (fun c hc hsize => read_eq_readBehind (hsig.of_begins hc hsize))
    (Nat.le_trans (by decide) (Nat.le_max_left _ _)) ?_
  rw [read_eq_readBehind hsig] at hread
  obtain ⟨nt, hnt, hread⟩ := bind_eq_ok_iff.1 hread
  obtain ⟨_, _, hstub⟩ := bind_eq_ok_iff.1 hread
  have hneeds := Needs.u32At d ntOffsetField
  obtain rfl := (hneeds.of_eq_ok hsig.1 hnt).2
  obtain rfl := Except.ok.inj hstub
  apply Needs.of_extent
  · apply Needs.bind hneeds
    exact Needs.bind (Needs.bytesAt d _ Headers.fixedSize) (Needs.pure d _)
  · rw [Nat.max_zero]

end StubHeader

namespace Headers

/-- Data without even a first word are no image. -/
theorem read_of_size_lt (h : d.size < 2) :
    Headers.read d = .error .notAnImage := by
  have hword : u16At d 0 = .error (.outOfBounds 0 2 d.size) :=
    checked_of_not_inside _ (Nat.not_le.2 h)
  unfold Headers.read StubHeader.read
  rw [hword]
  rfl

/-- **The headers of a file need just their extent.** -/
theorem needs_read {h : Headers} (hread : Headers.read d = .ok h) :
    2 ≤ d.size ∧ Needs Headers.read d h.extent h := by
  obtain ⟨stub, hstub, hread⟩ := bind_eq_ok_iff.1 hread
  have hneedsStub := StubHeader.needs_read hstub
  have htwo : 2 ≤ d.size := (StubHeader.hasSignature_of_read hstub).1
  refine ⟨htwo, ?_⟩
  obtain ⟨found, hfound, hread⟩ := bind_eq_ok_iff.1 hread
  have hneedsFound := Needs.bytesAt d stub.ntOffset.toNat signature.length
  rw [← (hneedsFound.of_eq_ok htwo hfound).2] at hread
  split at hread
  case isTrue => cases hread
  case isFalse hsig =>
    obtain ⟨file, hfile, hread⟩ := bind_eq_ok_iff.1 hread
    obtain ⟨optional, hoptional, hread⟩ := bind_eq_ok_iff.1 hread
    obtain ⟨sections, hsections, hh⟩ := bind_eq_ok_iff.1 hread
    obtain ⟨_, hneedsFile⟩ := FileHeader.exists_needs_read d
      (stub.ntOffset.toNat + signature.length)
    obtain rfl := (hneedsFile.of_eq_ok htwo hfile).2.symm
    have hneedsOptional := OptionalHeader.needs_read htwo hoptional
    obtain ⟨_, hneedsSections⟩ := SectionTable.exists_needs_headersAt d
      (stub.ntOffset.toNat + fixedSize + file.optionalSize.toNat)
      file.sectionCount.toNat
    obtain rfl := (hneedsSections.of_eq_ok htwo hsections).2.symm
    obtain rfl := Except.ok.inj hh
    apply Needs.of_extent
    · apply Needs.bind hneedsStub
      apply Needs.bind hneedsFound
      simp only [hsig, if_false]
      exact Needs.bind hneedsFile <| Needs.bind hneedsOptional <|
        Needs.bind hneedsSections <| Needs.pure d _
    · -- the signature and the file header end where the opening header asks for
      have hfixed : stub.ntOffset.toNat + signature.length
          + FileHeader.byteSize = stub.ntOffset.toNat + fixedSize := rfl
      have hsignature : stub.ntOffset.toNat + signature.length
          ≤ stub.ntOffset.toNat + fixedSize :=
        Nat.add_le_add_left (by decide) _
      rw [hfixed, Nat.max_zero,
        Nat.max_eq_right (Nat.le_trans hsignature (Nat.le_max_left _ _)),
        Nat.max_assoc, ← Nat.max_assoc (stub.ntOffset.toNat + fixedSize),
        Nat.max_self]
      rfl

end Headers

end DriverAudit
