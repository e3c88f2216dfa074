import DriverAudit.Image.Section
import Mathlib.Data.List.Pairwise
import Mathlib.Order.CompletePartialOrder
import Mathlib.Order.Interval.Set.Disjoint

/-!
# Which section decides where an address lies

A look-up goes through the sections in the order of their headers and stops at
the first one that covers the address. So it fails when no section does, and
sections that are listed behind others decide about those addresses only that
the others leave uncovered.

When no two sections cover the same address, there is at most one that can
decide, and then the order of the headers says nothing. The addresses that a
section covers are counted without wrapping around here (`Section.range`): a
section may go on past the last 32-bit address, and two sections are kept
apart there as well.
-/

namespace DriverAudit

/-! ## Covered addresses -/

/-- **The addresses of a section**, those past the last 32-bit one included. A
section whose two sizes are zero has none. -/
def Section.range (x : Section) : Set ℕ :=
  Set.Ico x.virtualAddress.toNat (x.virtualAddress.toNat + x.mappedSize.toNat)

theorem Section.contains_iff {x : Section} {address : UInt32} :
    x.contains address = true ↔ address.toNat ∈ x.range := by
  unfold contains range
  rw [Bool.and_eq_true, decide_eq_true_iff, decide_eq_true_iff, Set.mem_Ico]

namespace SectionTable

variable {t : SectionTable} {address : UInt32}

/-! ## Look-ups -/

/-- The section that decides is listed, and covers the address. -/
theorem mem_of_covering?_eq_some {x : Section}
    (h : t.covering? address = some x) : x ∈ t ∧ address.toNat ∈ x.range := by
  have hcontains : x.contains address = true := by
    simpa using List.find?_some h
  exact ⟨List.mem_of_find?_eq_some h, Section.contains_iff.1 hcontains⟩

/-- **A look-up fails when no section covers the address.** -/
theorem fileOffset_eq_error_iff {e : ImageError} :
    t.fileOffset address = .error e
      ↔ (∀ x ∈ t, address.toNat ∉ x.range)
        ∧ e = .unmapped address.toUInt64 := by
  have hnone : t.covering? address = none
      ↔ ∀ x ∈ t, address.toNat ∉ x.range := by
    unfold covering?
    simp only [List.find?_eq_none, Section.contains_iff]
  rw [← hnone]
  unfold fileOffset
  cases t.covering? address with
  | none => simp [eq_comm]
  | some x => simp

/-- A look-up answers with the offset that some section gives. -/
theorem fileOffset_eq_ok_iff {offset : Nat} :
    t.fileOffset address = .ok offset
      ↔ ∃ x, t.covering? address = some x ∧ x.offsetOf address = offset := by
  unfold fileOffset
  cases t.covering? address with
  | none => simp
  | some x => simp

/-- **Sections listed behind others decide about no address of theirs.** -/
theorem fileOffset_append {offset : Nat}
    (h : t.fileOffset address = .ok offset) (more : SectionTable) :
    SectionTable.fileOffset (t ++ more) address = .ok offset := by
  obtain ⟨x, hx, hoffset⟩ := fileOffset_eq_ok_iff.1 h
  refine fileOffset_eq_ok_iff.2 ⟨x, ?_, hoffset⟩
  unfold covering? at hx ⊢
  rw [List.find?_append, hx]
  rfl

/-! ## Sections that are kept apart -/

/-- **A table of which no two sections cover the same address.** -/
def Apart (t : SectionTable) : Prop :=
  t.Pairwise fun x y => Disjoint x.range y.range

theorem Apart.of_perm {t' : SectionTable} (h : t.Apart) (hperm : t.Perm t') :
    t'.Apart :=
  (hperm.pairwise_iff fun hxy => hxy.symm).1 h

/-- **Of sections that are kept apart, the one that covers an address decides**,
wherever it is listed. -/
theorem Apart.covering?_eq_some_iff (h : t.Apart) {x : Section} :
    t.covering? address = some x ↔ x ∈ t ∧ address.toNat ∈ x.range := by
  refine ⟨mem_of_covering?_eq_some, fun ⟨hx, hcovers⟩ => ?_⟩
  obtain ⟨y, hdecides⟩ : ∃ y, t.covering? address = some y :=
    Option.isSome_iff_exists.1 (List.find?_isSome.2
      ⟨x, hx, Section.contains_iff.2 hcovers⟩)
  obtain ⟨hy, hycovers⟩ := mem_of_covering?_eq_some hdecides
  -- two different sections could not both cover the address
  have hsame : x = y := by
    by_contra hne
    have hsymm : Std.Symm fun x y : Section => Disjoint x.range y.range :=
      ⟨fun _ _ hxy => hxy.symm⟩
    have hdisjoint : Disjoint x.range y.range := h.forall hx hy hne
    exact Set.disjoint_left.1 hdisjoint hcovers hycovers
  rw [hsame]
  exact hdecides

/-- **The order of sections that are kept apart says nothing.** -/
theorem Apart.fileOffset_eq_of_perm {t' : SectionTable} (h : t.Apart)
    (hperm : t.Perm t') (address : UInt32) :
    t.fileOffset address = t'.fileOffset address := by
  have hcovering : t.covering? address = t'.covering? address := by
    refine Option.ext (fun x => ?_)
    rw [h.covering?_eq_some_iff, (h.of_perm hperm).covering?_eq_some_iff,
      hperm.mem_iff]
  unfold fileOffset
  rw [hcovering]

end SectionTable

end DriverAudit
