import DriverAudit.Image.Error
import DriverAudit.Proofs.Bytes.Words

/-!
# What a computation demands of a file

A computation made of checked reads and of tests stops at the first thing that
the file lacks. What it asks for is a list of *demands*, each with the error of
a file that does not meet it, and the order of the list says which error comes
first when several demands are not met.

`Asks` ties a computation to its demands: it has its value when all of them are
met, and else it has the error of the first one that is not. So the demands say
exactly when it answers (`Asks.eq_ok_iff`) and with what it fails
(`Asks.eq_error_iff`), and the demands of one computation after the other are
those of the first followed by those of the second (`Asks.bind`).
-/

namespace DriverAudit

/-- **A demand on a file**, with the error of a file that does not meet it. -/
structure Demand where
  met : Prop
  error : ImageError

namespace Demand

/-- The demand that a range is inside the file. -/
def inside (d : ByteArray) (offset width : Nat) : Demand :=
  ⟨Inside d offset width, .unreadable (.outOfBounds offset width d.size)⟩

/-- A demand that is made under a condition only. -/
def onlyIf (p : Prop) (x : Demand) : Demand := ⟨p → x.met, x.error⟩

end Demand

/-- Whether a file meets all of some demands. -/
def AllMet (demands : List Demand) : Prop := ∀ x ∈ demands, x.met

/-- **The error of the first demand that is not met.** -/
inductive FirstUnmet : List Demand → ImageError → Prop
  | here {x : Demand} (rest : List Demand) (h : ¬ x.met) :
    FirstUnmet (x :: rest) x.error
  | there {x : Demand} {rest : List Demand} {e : ImageError} (h : x.met)
    (hrest : FirstUnmet rest e) : FirstUnmet (x :: rest) e

variable {demands more : List Demand} {e : ImageError}

@[simp]
theorem allMet_nil : AllMet [] := fun _ h => nomatch h

@[simp]
theorem allMet_cons {x : Demand} :
    AllMet (x :: demands) ↔ x.met ∧ AllMet demands := by
  unfold AllMet
  exact List.forall_mem_cons

@[simp]
theorem allMet_append :
    AllMet (demands ++ more) ↔ AllMet demands ∧ AllMet more := by
  unfold AllMet
  exact List.forall_mem_append

/-- The first demand that is not met is among the first ones, or all of these
are met. -/
theorem FirstUnmet.append (h : FirstUnmet (demands ++ more) e) :
    FirstUnmet demands e ∨ (AllMet demands ∧ FirstUnmet more e) := by
  induction demands with
  | nil => exact Or.inr ⟨allMet_nil, h⟩
  | cons x rest ih =>
    cases h with
    | here _ hx => exact Or.inl (.here rest hx)
    | there hx hrest =>
      rcases ih hrest with hfirst | ⟨hall, hsecond⟩
      · exact Or.inl (.there hx hfirst)
      · exact Or.inr ⟨allMet_cons.2 ⟨hx, hall⟩, hsecond⟩

/-- Where all demands are met, none is the first that is not. -/
theorem AllMet.not_firstUnmet (h : AllMet demands) : ¬ FirstUnmet demands e := by
  intro hfirst
  induction hfirst with
  | here rest hx => exact hx (allMet_cons.1 h).1
  | there _ _ ih => exact ih (allMet_cons.1 h).2

/-- **A computation that asks for its demands in order**: it has its value when
all are met, and the error of the first one that is not. -/
structure Asks {α : Type} (x : Except ImageError α) (demands : List Demand)
    (value : α) : Prop where
  ok : AllMet demands → x = .ok value
  error : ∀ {e}, FirstUnmet demands e → x = .error e

namespace Asks

variable {α β : Type} {x : Except ImageError α} {value : α}

/-- A computation that answers anyway asks for nothing. -/
theorem of_eq_ok (h : x = .ok value) : Asks x [] value :=
  ⟨fun _ => h, fun hfirst => absurd hfirst allMet_nil.not_firstUnmet⟩

/-- The same computation, written in another way. -/
theorem of_eq {y : Except ImageError α} (hxy : x = y)
    (h : Asks y demands value) : Asks x demands value := hxy ▸ h

/-- **One after the other asks for the demands of both**, and the second one may
rely on what the first one asked for. -/
theorem bind {f : α → Except ImageError β} {b : β}
    (h : Asks x demands value)
    (hnext : AllMet demands → Asks (f value) more b) :
    Asks (x >>= f) (demands ++ more) b := by
  constructor
  · intro hall
    obtain ⟨hfirst, hsecond⟩ := allMet_append.1 hall
    exact bind_eq_ok_iff.2 ⟨value, h.ok hfirst, (hnext hfirst).ok hsecond⟩
  · intro e hunmet
    rcases hunmet.append with hfirst | ⟨hall, hsecond⟩
    · rw [h.error hfirst]
      rfl
    · rw [h.ok hall]
      exact (hnext hall).error hsecond

/-- A computation with one demand, and another one behind it. -/
theorem cons {y : Demand} {f : α → Except ImageError β} {b : β}
    (h : Asks x [y] value) (hnext : y.met → Asks (f value) more b) :
    Asks (x >>= f) (y :: more) b :=
  bind h (fun hall => hnext (allMet_cons.1 hall).1)

/-- What follows an answer that is there anyway asks for its own demands. -/
theorem after {f : α → Except ImageError β} {b : β} (h : x = .ok value)
    (hnext : Asks (f value) more b) : Asks (x >>= f) more b :=
  bind (of_eq_ok h) (fun _ => hnext)

/-- What is made of the answer in the end asks for nothing more. -/
theorem last {f : α → Except ImageError β} {b : β}
    (h : Asks x demands value) (hlast : f value = .ok b) :
    Asks (x >>= f) demands b := by
  rw [← List.append_nil demands]
  exact bind h (fun _ => of_eq_ok hlast)

/-- **A test asks for what it tests.** -/
theorem test {p : Prop} (herror : ¬ p → x = .error e)
    (h : p → Asks x demands value) : Asks x (⟨p, e⟩ :: demands) value := by
  constructor
  · intro hall
    obtain ⟨hp, hrest⟩ := allMet_cons.1 hall
    exact (h hp).ok hrest
  · intro e' hunmet
    cases hunmet with
    | here _ hp => exact herror hp
    | there hp hrest => exact (h hp).error hrest

/-- **A checked read asks for its range.** -/
theorem checked (d : ByteArray) (offset width : Nat) (value : α) :
    Asks (ofRead (DriverAudit.checked d offset width value))
      [.inside d offset width] value := by
  refine test (fun hout => ?_) (fun hin => of_eq_ok ?_)
  · rw [checked_of_not_inside _ hout]
    rfl
  · rw [checked_eq_ok_iff.2 ⟨hin, rfl⟩]
    rfl

/-- **What is read under a condition** is asked for under the condition. -/
theorem onlyIf (p : Prop) [Decidable p] {default : α}
    (h : Asks x demands value) :
    Asks (if p then x else .ok default) (demands.map (.onlyIf p))
      (if p then value else default) := by
  by_cases hp : p
  · simp only [if_pos hp]
    have hsame : demands.map (.onlyIf p) = demands := by
      refine List.map_id'' (fun y => ?_) demands
      simp [Demand.onlyIf, hp]
    rw [hsame]
    exact h
  · simp only [if_neg hp]
    have hall : AllMet (demands.map (.onlyIf p)) := by
      intro y hy
      obtain ⟨z, _, rfl⟩ := List.mem_map.1 hy
      exact fun h => absurd h hp
    exact ⟨fun _ => rfl, fun hunmet => absurd hunmet hall.not_firstUnmet⟩

end Asks

end DriverAudit
