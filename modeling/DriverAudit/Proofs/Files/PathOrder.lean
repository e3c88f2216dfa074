import DriverAudit.Files.Path

/-!
# The order of paths is a lawful one

Paths are compared by their components, and components by their kind and then
by their text. Both are comparisons of parts, one after the other, and such a
comparison inherits the laws from those of the parts. So the order of paths is
a total preorder, and two paths are equal in it exactly when they are spellings
of the same components (`order_eq_iff`): repeated and trailing slashes and a
`.` inside a path make no difference to it.
-/

namespace DriverAudit

/-- Comparing by a property inherits the laws of comparing the property. -/
theorem transCmp_by {α β : Type} {cmp : β → β → Ordering} [h : Std.TransCmp cmp]
    (property : α → β) :
    Std.TransCmp fun a b => cmp (property a) (property b) where
  eq_swap := h.eq_swap
  isLE_trans := h.isLE_trans

namespace Path

instance : Std.TransCmp Component.order :=
  inferInstanceAs (Std.TransCmp (compareLex _ _))

/-- A component is determined by its kind and its text. -/
theorem Component.eq_of_rank_of_text {x y : Component}
    (hrank : x.rank = y.rank) (htext : x.text = y.text) : x = y := by
  cases x <;> cases y <;> simp_all [rank, text]

/-- **Components that compare as equal are equal.** -/
instance : Std.LawfulEqCmp Component.order where
  compare_self := Std.ReflCmp.compare_self
  eq_of_compare h := by
    obtain ⟨hrank, htext⟩ := compareLex_eq_eq.1 h
    exact Component.eq_of_rank_of_text (Std.compare_eq_iff_eq.1 hrank)
      (Std.compare_eq_iff_eq.1 htext)

/-- **The order of paths is a total preorder.** -/
instance : Std.TransCmp order := transCmp_by components

/-- **Paths are equal in their order when they have the same components.** -/
theorem order_eq_iff {a b : String} :
    order a b = .eq ↔ components a = components b := by
  have h : Std.LawfulEqCmp (List.compareLex Component.order) := inferInstance
  exact h.compare_eq_iff_eq

example : order "d//./a.sys/" "d/a.sys" = .eq
    ∧ order "./d/a.sys" "../a.sys" = .lt ∧ order "d/../a" "d/a" = .lt := by
  decide

end Path

end DriverAudit
