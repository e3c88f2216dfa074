import DriverAudit.Proofs.Image.BuiltSection
import Mathlib.Data.List.Pairwise

/-!
# The order of the pieces of a section

The pieces of a section follow one another: first the descriptors with their
end mark, then the tables of all modules, then their names. Within the tables
those of one module come before those of the next, and of each module the
lookup table comes before the address table. So two pieces never share a byte,
and which of them comes first can be told from what they are.
-/

namespace DriverAudit.Blueprint

/-! ## What comes behind a position -/

/-- The hint/name entries of a module are behind the position that they start
from, and so is what follows them. -/
theorem le_placeHintNames (position : Nat) (thunks : List ThunkSpec) :
    position ≤ (placeHintNames position thunks).2
      ∧ ∀ place, some place ∈ (placeHintNames position thunks).1 →
        position ≤ place := by
  induction thunks generalizing position with
  | nil => exact ⟨Nat.le_refl _, fun place hplace => by cases hplace⟩
  | cons t rest ih =>
    cases t with
    | name text =>
      have hroom := hintName_le_afterHintName position text
      obtain ⟨hlast, hplaces⟩ := ih (afterHintName position text)
      refine ⟨by simp only [placeHintNames]; omega, fun place hplace => ?_⟩
      rcases List.mem_cons.1 hplace with heq | hrest
      · exact Nat.le_of_eq (Option.some.inj heq).symm
      · have hbehind := hplaces place hrest
        omega
    | ordinal _ | raw _ =>
      -- a thunk without a name takes no room
      refine ⟨(ih position).1, fun place hplace => ?_⟩
      rcases List.mem_cons.1 hplace with heq | hrest
      · cases heq
      · exact (ih position).2 place hrest

theorem le_placeTables (a : Architecture) (table : Nat) (ms : List ModuleSpec) :
    table ≤ (placeTables a table ms).2 := by
  induction ms generalizing table with
  | nil => exact Nat.le_refl _
  | cons m rest ih => exact Nat.le_trans (Nat.le_add_right _ _) (ih _)

/-! ## Where the pieces of a module lie -/

/-- **A module whose tables lie between two positions** and whose names lie
behind a third. -/
structure LiesWithin (a : Architecture) (first last names : Nat)
    (x : ModuleSpec × ModuleLayout) : Prop where
  first_le : first ≤ x.2.lookupTable
  /-- The address table follows the lookup table. -/
  addressTable_eq : x.2.addressTable = x.2.lookupTable + thunkTableSize a x.1
  le_last : x.2.addressTable + thunkTableSize a x.1 ≤ last
  hintNames_ge : ∀ place, some place ∈ x.2.hintNames → names ≤ place
  name_ge : names ≤ x.2.name

variable {a : Architecture} {table name : Nat} {ms : List ModuleSpec}

/-- **All modules lie behind the positions that they are placed from.** -/
theorem liesWithin_of_mem {x : ModuleSpec × ModuleLayout}
    (hx : x ∈ placeModules a table name ms) :
    LiesWithin a table (placeTables a table ms).2 name x := by
  induction ms generalizing table name with
  | nil => cases hx
  | cons m rest ih =>
    obtain ⟨hname, hhints⟩ := le_placeHintNames name m.thunks
    rcases List.mem_cons.1 hx with rfl | hrest
    · refine ⟨Nat.le_refl _, rfl, ?_, hhints, hname⟩
      have hlast := le_placeTables a (table + 2 * thunkTableSize a m) rest
      show table + thunkTableSize a m + thunkTableSize a m
        ≤ (placeTables a (table + 2 * thunkTableSize a m) rest).2
      omega
    · have hbehind := ih hrest
      refine ⟨?_, hbehind.addressTable_eq, hbehind.le_last, fun place hplace => ?_,
        ?_⟩
      · exact Nat.le_trans (Nat.le_add_right _ _) hbehind.first_le
      · have hge := hbehind.hintNames_ge place hplace
        omega
      · have hge := hbehind.name_ge
        omega

/-- Both tables of one module come before both of the other. -/
def TablesBefore (a : Architecture) (x y : ModuleSpec × ModuleLayout) : Prop :=
  x.2.addressTable + thunkTableSize a x.1 ≤ y.2.lookupTable

/-- **The tables of each module come before those of the next.** -/
theorem pairwise_placeModules (a : Architecture) (table name : Nat)
    (ms : List ModuleSpec) :
    (placeModules a table name ms).Pairwise (TablesBefore a) := by
  induction ms generalizing table name with
  | nil => exact List.Pairwise.nil
  | cons m rest ih =>
    refine List.Pairwise.cons (fun y hy => ?_) (ih _ _)
    have hfirst := (liesWithin_of_mem hy).first_le
    show table + thunkTableSize a m + thunkTableSize a m ≤ y.2.lookupTable
    omega

/-- **Of two different modules, the tables of one come before those of the
other.** -/
theorem tablesBefore_or_of_ne {x y : ModuleSpec × ModuleLayout}
    (hx : x ∈ placeModules a table name ms)
    (hy : y ∈ placeModules a table name ms) (hne : x ≠ y) :
    TablesBefore a x y ∨ TablesBefore a y x := by
  have hsymm : Std.Symm fun x y => TablesBefore a x y ∨ TablesBefore a y x :=
    ⟨fun _ _ h => h.symm⟩
  have hpairs : (placeModules a table name ms).Pairwise
      fun x y => TablesBefore a x y ∨ TablesBefore a y x :=
    (pairwise_placeModules a table name ms).imp Or.inl
  exact hpairs.forall hx hy hne

/-! ## The section of a blueprint -/

variable (b : Blueprint)

/-- Where the names of a section start, behind all tables. -/
def namesStart : Nat :=
  (placeTables b.architecture b.descriptorTableSize b.modules).2

variable {b}

/-- **The pieces of each module are where they belong.** -/
theorem liesWithin_of_mem_placed {x : ModuleSpec × ModuleLayout}
    (hx : x ∈ b.placed) :
    LiesWithin b.architecture b.descriptorTableSize b.namesStart b.namesStart x :=
  liesWithin_of_mem hx

theorem descriptorTableSize_eq (b : Blueprint) :
    b.descriptorTableSize
      = b.described.length * descriptorSize + descriptorSize := by
  rw [length_described, descriptorTableSize, Nat.succ_mul]

end DriverAudit.Blueprint
