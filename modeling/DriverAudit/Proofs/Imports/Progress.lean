import DriverAudit.Proofs.Imports.Leads
import DriverAudit.Proofs.Imports.RecordArrays

/-!
# What a walk has found

A walk takes one descriptor after the other, and each of them does one of
three things to what has been found so far: the budget is used up and the
descriptor is left out, or it leads nowhere and is passed over, or it adds its
contribution (`advance_cases`). All that is known of a whole walk follows from
these three by induction on the descriptors.

Two facts carry the rest. Whatever the budget, each module that was found is
cut from the whole module of one of the descriptors (`mem_modules_foldl`). And
a walk that the budget did not limit found the whole modules of all descriptors
that lead somewhere, in order (`foldl_of_unlimited`).
-/

namespace DriverAudit.ImportSource

variable {s : ImportSource} {p : Progress}

/-- Where the descriptor at an offset leads. -/
def leadAt (s : ImportSource) (offset : Nat) : Except ImageError Lead :=
  s.lead (Descriptor.atOffset s.data offset)

/-- **The whole module of the descriptor at an offset**, if it leads to one. -/
def wholeModuleAt? (s : ImportSource) (offset : Nat) : Option ImportModule :=
  (s.leadAt offset).toOption.map s.wholeModule

/-! ## One descriptor -/

/-- A descriptor that is paid for and leads nowhere. -/
def Progress.passOver (p : Progress) (budget : Nat) (e : Event) : Progress :=
  { p with
    budget
    skippedModules := p.skippedModules + 1
    events := p.events.push e }

/-- A descriptor that is paid for and contributes. -/
def Progress.add (p : Progress) (budget : Nat) (c : Contribution) : Progress where
  budget := budget - c.spent
  modules := p.modules.push c.module
  skippedModules := p.skippedModules
  limitedModules := p.limitedModules + if c.limited then 1 else 0
  events := p.events ++ c.events

/-- **What one descriptor does to a walk.** -/
theorem advance_cases (s : ImportSource) (p : Progress) (offset : Nat) :
    (p.budget = 0 ∧ s.advance p offset
        = { p with limitedModules := p.limitedModules + 1 })
    ∨ (∃ budget e, p.budget = budget + 1 ∧ s.leadAt offset = .error e ∧
        s.advance p offset = p.passOver budget
          (.descriptorSkipped offset
            (Descriptor.atOffset s.data offset).moduleName
            (Descriptor.atOffset s.data offset).thunkAddress e))
    ∨ (∃ budget l, p.budget = budget + 1 ∧ s.leadAt offset = .ok l ∧
        s.advance p offset = p.add budget (s.contribution budget l)) := by
  unfold advance
  cases hb : p.budget with
  | zero => exact Or.inl ⟨rfl, rfl⟩
  | succ budget =>
    refine Or.inr ?_
    simp only [readModule_eq]
    cases hl : s.leadAt offset with
    | error e =>
      refine Or.inl ⟨budget, e, rfl, rfl, ?_⟩
      unfold leadAt at hl
      rw [hl]
      rfl
    | ok l =>
      refine Or.inr ⟨budget, l, rfl, rfl, ?_⟩
      unfold leadAt at hl
      rw [hl]
      rfl

/-- No descriptor takes back that another was limited. -/
theorem limitedModules_le_advance (s : ImportSource) (p : Progress)
    (offset : Nat) :
    p.limitedModules ≤ (s.advance p offset).limitedModules := by
  obtain ⟨_, h⟩ | ⟨_, _, _, _, h⟩ | ⟨_, _, _, _, h⟩ :=
    advance_cases s p offset
  · rw [h]
    exact Nat.le_succ _
  · rw [h]
    exact Nat.le_refl _
  · rw [h]
    exact Nat.le_add_right _ _

/-- **A module that a descriptor adds is cut from the whole module that it
leads to.** -/
theorem mem_modules_advance {offset : Nat} {m : ImportModule}
    (h : m ∈ (s.advance p offset).modules) :
    m ∈ p.modules
      ∨ ∃ whole, s.wholeModuleAt? offset = some whole ∧ m.CutFrom whole := by
  obtain ⟨_, ha⟩ | ⟨_, _, _, _, ha⟩ | ⟨budget, l, _, hl, ha⟩ :=
    advance_cases s p offset
  · rw [ha] at h
    exact Or.inl h
  · rw [ha] at h
    exact Or.inl h
  · rw [ha] at h
    rcases Array.mem_push.1 h with hold | rfl
    · exact Or.inl hold
    · refine Or.inr ⟨s.wholeModule l, ?_, contribution_cutFrom s budget l⟩
      rw [wholeModuleAt?, hl]
      rfl

/-- **A descriptor that is not limited** adds its whole module, or is counted
when it leads nowhere. -/
theorem advance_of_unlimited {offset : Nat}
    (h : (s.advance p offset).limitedModules = p.limitedModules) :
    (s.advance p offset).modules.toList
        = p.modules.toList ++ (s.wholeModuleAt? offset).toList
      ∧ (s.advance p offset).skippedModules
        = p.skippedModules + if (s.wholeModuleAt? offset).isNone then 1 else 0 := by
  obtain ⟨_, ha⟩ | ⟨_, _, _, hl, ha⟩ | ⟨budget, l, _, hl, ha⟩ :=
    advance_cases s p offset
  · rw [ha] at h
    exact absurd h (Nat.succ_ne_self _)
  · rw [ha, wholeModuleAt?, hl]
    exact ⟨(List.append_nil _).symm, rfl⟩
  · rw [ha] at h ⊢
    have hlimited : (s.contribution budget l).limited = false := by
      simp only [Progress.add] at h
      split at h
      case isTrue => exact absurd h (Nat.succ_ne_self _)
      case isFalse hf => exact Bool.not_eq_true _ ▸ hf
    have hwhole := contribution_eq_wholeModule s budget l hlimited
    rw [wholeModuleAt?, hl]
    refine ⟨?_, rfl⟩
    show (p.modules.push _).toList = _
    rw [Array.toList_push, hwhole]
    rfl

/-! ## All descriptors -/

theorem limitedModules_le_foldl (s : ImportSource) (p : Progress)
    (offsets : List Nat) :
    p.limitedModules ≤ (offsets.foldl s.advance p).limitedModules := by
  induction offsets generalizing p with
  | nil => exact Nat.le_refl _
  | cons offset rest ih =>
    exact Nat.le_trans (limitedModules_le_advance s p offset) (ih _)

/-- **Each module that was found is cut from a whole one.** -/
theorem mem_modules_foldl {offsets : List Nat} {m : ImportModule}
    (h : m ∈ (offsets.foldl s.advance p).modules) :
    m ∈ p.modules
      ∨ ∃ offset ∈ offsets, ∃ whole,
        s.wholeModuleAt? offset = some whole ∧ m.CutFrom whole := by
  induction offsets generalizing p with
  | nil => exact Or.inl h
  | cons offset rest ih =>
    rcases ih h with hadv | ⟨o, ho, hwhole⟩
    · rcases mem_modules_advance hadv with hold | hnew
      · exact Or.inl hold
      · exact Or.inr ⟨offset, List.mem_cons_self, hnew⟩
    · exact Or.inr ⟨o, List.mem_cons_of_mem offset ho, hwhole⟩

/-- **A walk that is not limited finds all whole modules**, in the order of
their descriptors, and counts the descriptors that lead nowhere. -/
theorem foldl_of_unlimited {offsets : List Nat}
    (h : (offsets.foldl s.advance p).limitedModules = p.limitedModules) :
    (offsets.foldl s.advance p).modules.toList
        = p.modules.toList ++ offsets.filterMap s.wholeModuleAt?
      ∧ (offsets.foldl s.advance p).skippedModules
        = p.skippedModules
          + offsets.countP (fun o => (s.wholeModuleAt? o).isNone) := by
  induction offsets generalizing p with
  | nil => exact ⟨(List.append_nil _).symm, rfl⟩
  | cons offset rest ih =>
    -- the limit count can only grow, so it stays put at each descriptor
    have hfirst : (s.advance p offset).limitedModules = p.limitedModules :=
      Nat.le_antisymm
        (h ▸ limitedModules_le_foldl s (s.advance p offset) rest)
        (limitedModules_le_advance s p offset)
    obtain ⟨hmods, hskip⟩ := advance_of_unlimited hfirst
    obtain ⟨hrestMods, hrestSkip⟩ := ih (h.trans hfirst.symm)
    rw [List.foldl_cons, hrestMods, hrestSkip, hmods, hskip]
    constructor
    · rw [List.append_assoc, List.filterMap_cons]
      cases s.wholeModuleAt? offset <;> rfl
    · rw [List.countP_cons]
      omega

end DriverAudit.ImportSource
