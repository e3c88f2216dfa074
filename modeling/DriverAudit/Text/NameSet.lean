/-!
# Sets of names

The names an image imports, the names a scan looks for, and the names found in
both are finite sets of strings. A set is kept as its strictly ascending list
of members, by code points; that list is also the order in which members are
printed, so two equal sets always print alike.
-/

namespace DriverAudit

/-- **A finite set of names**, as the strictly ascending list of its members. -/
@[ext]
structure NameSet where
  names : List String
  ascending : names.Pairwise (· < ·)
  deriving DecidableEq

namespace NameSet

/-! ## Sorting away repetitions -/

/-- Drop every entry that equals its successor. On an ascending list this
leaves one copy of each entry. -/
def dropRepeats : List String → List String
  | a :: b :: rest =>
    if a = b then dropRepeats (b :: rest) else a :: dropRepeats (b :: rest)
  | short => short

theorem mem_dropRepeats {x : String} {l : List String} :
    x ∈ dropRepeats l ↔ x ∈ l := by
  fun_induction dropRepeats l with
  | case1 b rest ih => simp [ih]
  | case2 a b rest _ ih => simp [ih]
  | case3 => exact Iff.rfl

/-- A list ascending in the weak sense ascends strictly once repetitions are
dropped. -/
theorem pairwise_lt_dropRepeats {l : List String} (h : l.Pairwise (· ≤ ·)) :
    (dropRepeats l).Pairwise (· < ·) := by
  fun_induction dropRepeats l with
  | case1 b rest ih => exact ih (List.pairwise_cons.1 h).2
  | case2 a b rest hab ih =>
    obtain ⟨ha, hrest⟩ := List.pairwise_cons.1 h
    refine List.pairwise_cons.2 ⟨fun x hx => ?_, ih hrest⟩
    have hbx : b ≤ x := by
      rcases List.mem_cons.1 (mem_dropRepeats.1 hx) with rfl | hx
      · exact String.le_refl _
      · exact (List.pairwise_cons.1 hrest).1 x hx
    rcases Decidable.em (a < x) with hlt | hnot
    · exact hlt
    · have hxa : x ≤ a := String.not_lt.1 hnot
      exact absurd (String.le_antisymm (ha b (by simp)) (String.le_trans hbx hxa)) hab
  | case3 l hl =>
    match l, hl with
    | [], _ => exact List.Pairwise.nil
    | [_], _ => exact List.pairwise_singleton _ _
    | _ :: _ :: _, hl => exact absurd rfl (hl _ _ _)

/-! ## Sets -/

/-- **The set of the members of a list.** -/
def ofList (l : List String) : NameSet where
  names := dropRepeats (l.mergeSort (fun a b => decide (a ≤ b)))
  ascending := by
    refine pairwise_lt_dropRepeats ?_
    have h : (l.mergeSort fun a b => decide (a ≤ b)).Pairwise
        fun a b => decide (a ≤ b) = true :=
      List.pairwise_mergeSort
        (fun a b c hab hbc => by
          simp only [decide_eq_true_eq] at *
          exact String.le_trans hab hbc)
        (fun a b => by simpa using String.le_total a b) l
    exact h.imp of_decide_eq_true

/-- The set without members. -/
def empty : NameSet := ⟨[], List.Pairwise.nil⟩

instance : Inhabited NameSet := ⟨empty⟩

instance : Membership String NameSet := ⟨fun s name => name ∈ s.names⟩

instance (name : String) (s : NameSet) : Decidable (name ∈ s) :=
  inferInstanceAs (Decidable (name ∈ s.names))

/-- The number of members. -/
def size (s : NameSet) : Nat := s.names.length

/-- Whether there is no member. -/
def isEmpty (s : NameSet) : Bool := s.names.isEmpty

/-- Whether a name is a member. -/
def contains (s : NameSet) (name : String) : Bool := decide (name ∈ s)

/-- **The members of one set that are also in another.** -/
def inter (s t : NameSet) : NameSet where
  names := s.names.filter t.contains
  ascending := s.ascending.filter _

/-- Membership in the set of a list is membership in the list. -/
@[simp]
theorem mem_ofList {name : String} {l : List String} :
    name ∈ ofList l ↔ name ∈ l := by
  show name ∈ dropRepeats _ ↔ _
  simp [mem_dropRepeats]

/-- An intersection holds what both sets hold. -/
@[simp]
theorem mem_inter {name : String} {s t : NameSet} :
    name ∈ s.inter t ↔ name ∈ s ∧ name ∈ t := by
  show name ∈ s.names.filter t.contains ↔ name ∈ s.names ∧ name ∈ t.names
  simp only [List.mem_filter, contains, decide_eq_true_eq]
  exact Iff.rfl

end NameSet

end DriverAudit
