import DriverAudit.Proofs.Bytes.Lasting
import DriverAudit.Proofs.Image.HeaderExtent

/-!
# The headers of a file that goes on

The headers of a file are found from its start, and no read of them asks where
the file ends except to stay inside. So a file whose headers are accepted has
the same headers however it goes on (`Headers.lasts_read`). All of their parts
are read one after the other, and each of the reads lasts.
-/

namespace DriverAudit

theorem FileHeader.lasts_read (offset : Nat) :
    Lasts fun d => FileHeader.read d offset :=
  Lasts.bind (Lasts.bytesAt offset byteSize).ofRead fun _ =>
    Lasts.bind (Lasts.u16At offset).ofRead fun _ =>
    Lasts.bind (Lasts.u16At (offset + 2)).ofRead fun _ =>
    Lasts.bind (Lasts.u32At (offset + 4)).ofRead fun _ =>
    Lasts.bind (Lasts.u16At (offset + 16)).ofRead fun _ =>
    Lasts.bind (Lasts.u16At (offset + 18)).ofRead fun _ => Lasts.const _

namespace OptionalHeader

theorem lasts_readImageBase (offset : Nat) (a : Architecture) :
    Lasts fun d => readImageBase d offset a := by
  cases a with
  | pe32 =>
    exact Lasts.bind (Lasts.u32At (offset + 28)).ofRead fun _ => Lasts.const _
  | pe32Plus => exact (Lasts.u64At (offset + 24)).ofRead

theorem lasts_readDirectoryCount (offset size : Nat) (a : Architecture) :
    Lasts fun d => readDirectoryCount d offset size a :=
  Lasts.choice (Lasts.u32At (offset + a.directoryCountOffset)).ofRead
    (Lasts.const _)

theorem lasts_readImports (offset size : Nat) (a : Architecture)
    (count : UInt32) : Lasts fun d => readImports d offset size a count :=
  Lasts.choice
    (Lasts.bind (Lasts.u32At (offset + importsOffset a)).ofRead fun _ =>
      Lasts.bind (Lasts.u32At (offset + importsOffset a + 4)).ofRead fun _ =>
      Lasts.const _)
    (Lasts.const _)

theorem lasts_read (offset : Nat) (size : UInt16) :
    Lasts fun d => OptionalHeader.read d offset size := by
  refine Lasts.bind (Lasts.u16At offset).ofRead fun magic => ?_
  -- the magic word alone decides how to go on
  cases Architecture.ofMagic? magic with
  | none => exact Lasts.const _
  | some a =>
    exact Lasts.bind (lasts_readImageBase offset a) fun _ =>
      Lasts.bind (lasts_readDirectoryCount offset size.toNat a) fun count =>
      Lasts.bind (lasts_readImports offset size.toNat a count) fun _ =>
      Lasts.const _

end OptionalHeader

/-- **The section headers** are all inside the file, and stay there. -/
theorem SectionTable.lasts_headersAt (offset count : Nat) :
    Lasts fun d => headersAt d offset count := by
  intro c d hc sections h
  unfold headersAt at h ⊢
  dsimp only at h ⊢
  cases hfind : (List.range count).find? fun i =>
      !covers c (offset + i * Section.headerSize) Section.headerSize with
  | some i =>
    rw [hfind] at h
    cases h
  | none =>
    have hin : ∀ i ∈ List.range count,
        Inside c (offset + i * Section.headerSize) Section.headerSize := by
      intro i hi
      have hcovers := List.find?_eq_none.1 hfind i hi
      rwa [Bool.not_eq_true', Bool.not_eq_false, covers_iff] at hcovers
    have hnone : (List.range count).find? (fun i =>
        !covers d (offset + i * Section.headerSize) Section.headerSize)
          = none := by
      refine List.find?_eq_none.2 (fun i hi => ?_)
      rw [covers_iff.2 (hc.inside (hin i hi))]
      exact Bool.false_ne_true
    rw [hfind] at h
    rw [hnone, ← h]
    refine congrArg Except.ok (List.map_congr_left (fun i hi => ?_))
    exact (Section.headerAt_eq_of_begins hc (hin i hi)).symm

namespace StubHeader

theorem lasts_readBehind : Lasts readBehind :=
  Lasts.bind (Lasts.u32At ntOffsetField).ofRead fun ntOffset =>
    Lasts.bind (Lasts.bytesAt ntOffset.toNat Headers.fixedSize).ofRead fun _ =>
    Lasts.const _

/-- The signature stays at the start of a file. -/
theorem HasSignature.lasts {c d : ByteArray} (hc : Begins c d)
    (h : HasSignature c) : HasSignature d :=
  checked_eq_ok_iff.1 (Lasts.u16At 0 hc (checked_eq_ok_iff.2 h))

theorem lasts_read : Lasts StubHeader.read := by
  intro c d hc stub h
  have hsig := hasSignature_of_read h
  rw [read_eq_readBehind hsig] at h
  rw [read_eq_readBehind (hsig.lasts hc)]
  exact lasts_readBehind hc h

end StubHeader

/-- **The headers of a file last.** -/
theorem Headers.lasts_read : Lasts Headers.read :=
  Lasts.bind StubHeader.lasts_read fun stub =>
    Lasts.bind
      (Lasts.bytesAt stub.ntOffset.toNat signature.length).ofRead fun _ =>
    Lasts.choice (Lasts.const _) <|
      Lasts.bind (FileHeader.lasts_read _) fun file =>
      Lasts.bind (OptionalHeader.lasts_read _ file.optionalSize) fun _ =>
      Lasts.bind (SectionTable.lasts_headersAt _ _) fun _ => Lasts.const _

end DriverAudit
