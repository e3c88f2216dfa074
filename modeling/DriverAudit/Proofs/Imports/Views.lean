import DriverAudit.Proofs.Imports.Tables

/-!
# The table of a walk, from what its descriptors show

A walk takes its budget and its findings along from one descriptor to the
next. What it looks at depends on neither: a descriptor either leads nowhere,
or it *shows* the name of a module, what each of its thunks comes to, and how
the table of thunks ends (`View`). The budget decides how much of a view gets
into the table.

So the table of a walk can be said without the walk, as a function of the
budget and of the views in order (`View.tableWithin`). Files whose descriptors
show the same have the same table, under every budget, wherever in the files
the descriptors and all that they refer to may be (`tableAt_of_views`).
-/

namespace DriverAudit

/-! ## Tables one behind the other -/

/-- A table with another one behind it. -/
def ImportTable.append (t u : ImportTable) : ImportTable :=
  ⟨t.modules ++ u.modules, t.skippedModules + u.skippedModules,
    t.limitedModules + u.limitedModules⟩

theorem ImportTable.append_assoc (t u v : ImportTable) :
    (t.append u).append v = t.append (u.append v) := by
  unfold append
  simp only [List.append_assoc, Nat.add_assoc]

@[simp]
theorem ImportTable.append_empty (t : ImportTable) : t.append .empty = t := by
  unfold append empty
  rw [List.append_nil]
  rfl

@[simp]
theorem ImportTable.empty_append (t : ImportTable) :
    ImportTable.empty.append t = t := by
  unfold append empty
  rw [List.nil_append, Nat.zero_add, Nat.zero_add]

/-! ## Views -/

/-- **What a descriptor shows**: the name of its module, the import of each
thunk of its table if it has one, and how the table ends. -/
structure View where
  name : String
  found : List (Option ImportEntry)
  ending : Ending
  deriving DecidableEq

namespace View

/-- **The module of a view** with what is left of a budget. -/
def moduleWithin (v : View) (budget : Nat) : ImportModule where
  name := v.name
  entries := (v.found.take budget).filterMap id
  skippedEntries :=
    (v.found.take budget).countP (·.isNone)
      + if v.found.length ≤ budget ∧ v.ending = .endOfFile then 1 else 0

/-- **What a descriptor adds to a table** with what is left of a budget: a
module that is left out, one that is passed over, or the module of its view. -/
def addedWithin : Nat → Option View → ImportTable
  | 0, _ => ⟨[], 0, 1⟩
  | _ + 1, none => ⟨[], 1, 0⟩
  | budget + 1, some v =>
    ⟨[v.moduleWithin budget], 0, if budget < v.found.length then 1 else 0⟩

/-- What is left of a budget behind a descriptor. -/
def leftOf : Nat → Option View → Nat
  | 0, _ => 0
  | budget + 1, none => budget
  | budget + 1, some v => budget - v.found.length

/-- **The table of some descriptors** under a budget, from what each of them
shows. -/
def tableWithin : Nat → List (Option View) → ImportTable
  | _, [] => .empty
  | budget, v :: rest =>
    (addedWithin budget v).append (tableWithin (leftOf budget v) rest)

/-- What a descriptor costs when the budget does not matter. -/
def cost : Option View → Nat
  | none => 1
  | some v => 1 + v.found.length

/-- The whole module of a view. -/
def whole (v : View) : ImportModule where
  name := v.name
  entries := v.found.filterMap id
  skippedEntries :=
    v.found.countP (·.isNone) + if v.ending = .endOfFile then 1 else 0

theorem moduleWithin_of_length_le {v : View} {budget : Nat}
    (h : v.found.length ≤ budget) : v.moduleWithin budget = v.whole := by
  unfold moduleWithin whole
  rw [List.take_of_length_le h]
  simp only [h, true_and]

/-- **A budget that covers all descriptors** gets the whole module of each
view into the table, and counts the descriptors that show nothing. -/
theorem tableWithin_of_cost_le {views : List (Option View)} {budget : Nat}
    (h : (views.map cost).sum ≤ budget) :
    tableWithin budget views
      = ⟨views.filterMap (Option.map whole), views.countP (·.isNone), 0⟩ := by
  induction views generalizing budget with
  | nil => rfl
  | cons v rest ih =>
    rw [List.map_cons, List.sum_cons] at h
    cases budget with
    | zero => cases v <;> simp only [cost] at h <;> omega
    | succ budget =>
      cases v with
      | none =>
        have hrest : (rest.map cost).sum ≤ budget := by
          simp only [cost] at h
          omega
        rw [tableWithin, leftOf, ih hrest, addedWithin, ImportTable.append,
          List.countP_cons]
        simp [Nat.add_comm]
      | some v =>
        have hlength : v.found.length ≤ budget := by
          simp only [cost] at h
          omega
        have hrest : (rest.map cost).sum ≤ budget - v.found.length := by
          simp only [cost] at h
          omega
        rw [tableWithin, leftOf, ih hrest, addedWithin, ImportTable.append,
          moduleWithin_of_length_le hlength, if_neg (Nat.not_lt.2 hlength),
          List.countP_cons]
        simp

/-- **A budget leaves nothing out just when it covers all descriptors.** -/
theorem limitedModules_tableWithin_eq_zero_iff {views : List (Option View)}
    {budget : Nat} :
    (tableWithin budget views).limitedModules = 0
      ↔ (views.map cost).sum ≤ budget := by
  constructor
  · intro h
    induction views generalizing budget with
    | nil => exact Nat.zero_le _
    | cons v rest ih =>
      rw [List.map_cons, List.sum_cons]
      simp only [tableWithin, ImportTable.append, Nat.add_eq_zero_iff] at h
      obtain ⟨hfirst, hrest⟩ := h
      have hleft := ih hrest
      cases budget with
      | zero => cases hfirst
      | succ budget =>
        cases v with
        | none =>
          simp only [leftOf] at hleft
          simp only [cost]
          omega
        | some v =>
          have hlength : v.found.length ≤ budget := by
            simp only [addedWithin] at hfirst
            split at hfirst
            · cases hfirst
            · omega
          simp only [leftOf] at hleft
          simp only [cost]
          omega
  · exact fun h => by rw [tableWithin_of_cost_le h]

end View

namespace ImportSource

variable {s : ImportSource} {p : Progress}

/-- **What a lead shows.** -/
def view (s : ImportSource) (l : Lead) : View where
  name := l.name
  found := (s.leadThunks l).map fun o => (s.resolutionAt o).found?
  ending := (s.leadArray l).ending

/-- What the descriptor at an offset shows, if it leads anywhere. -/
def viewAt? (s : ImportSource) (offset : Nat) : Option View :=
  (s.leadAt offset).toOption.map s.view

theorem length_found_view (s : ImportSource) (l : Lead) :
    (s.view l).found.length = (s.leadArray l).count := by
  rw [view, List.length_map, length_leadThunks]

/-- What a lead contributes is the module of its view. -/
theorem contribution_module (s : ImportSource) (budget : Nat) (l : Lead) :
    (s.contribution budget l).module = (s.view l).moduleWithin budget := by
  refine ImportModule.ext (contribution_name s budget l) ?_ ?_
  · rw [contribution_entries, View.moduleWithin, view, ← List.map_take,
      List.filterMap_map]
    rfl
  · rw [contribution_skipped, View.moduleWithin, length_found_view]
    show _ = (((s.leadThunks l).map _).take budget).countP _ + _
    rw [← List.map_take, List.countP_map]
    rfl

/-- **What one descriptor does to a walk**, from what it shows. -/
theorem advance_eq_view (s : ImportSource) (p : Progress) (offset : Nat) :
    (s.advance p offset).table
        = p.table.append (View.addedWithin p.budget (s.viewAt? offset))
      ∧ (s.advance p offset).budget
        = View.leftOf p.budget (s.viewAt? offset) := by
  unfold viewAt?
  obtain ⟨hb, ha⟩ | ⟨budget, e, hb, hl, ha⟩ | ⟨budget, l, hb, hl, ha⟩ :=
    advance_cases s p offset
  · -- the budget is used up
    rw [ha, hb]
    refine ⟨?_, rfl⟩
    show (⟨p.modules.toList, p.skippedModules, p.limitedModules + 1⟩
      : ImportTable) = ⟨p.modules.toList ++ [], p.skippedModules, _⟩
    rw [List.append_nil]
    rfl
  · -- the descriptor leads nowhere
    rw [ha, hb, hl]
    refine ⟨?_, rfl⟩
    show (⟨p.modules.toList, p.skippedModules + 1, p.limitedModules⟩
      : ImportTable) = ⟨p.modules.toList ++ [], p.skippedModules + 1, _⟩
    rw [List.append_nil]
    rfl
  · rw [ha, hb, hl]
    have hlimited : (if (s.contribution budget l).limited then 1 else 0)
        = if budget < (s.view l).found.length then 1 else 0 := by
      rw [contribution_limited, length_found_view]
      simp only [decide_eq_true_eq]
    have hmodules : (p.modules.push (s.contribution budget l).module).toList
        = p.modules.toList ++ [(s.view l).moduleWithin budget] := by
      rw [Array.toList_push, contribution_module]
    constructor
    · show (⟨(p.modules.push (s.contribution budget l).module).toList,
          p.skippedModules,
          p.limitedModules
            + if (s.contribution budget l).limited then 1 else 0⟩
        : ImportTable) = _
      rw [hmodules, hlimited]
      rfl
    · show budget - (s.contribution budget l).spent
        = budget - (s.view l).found.length
      rw [contribution_spent, length_found_view]
      omega

/-- **What a walk has found** is what it had found before, and behind it the
table of the descriptors that it has taken since. -/
theorem table_foldl (s : ImportSource) (p : Progress) (offsets : List Nat) :
    (offsets.foldl s.advance p).table
      = p.table.append (View.tableWithin p.budget (offsets.map s.viewAt?)) := by
  induction offsets generalizing p with
  | nil => exact p.table.append_empty.symm
  | cons offset rest ih =>
    obtain ⟨htable, hbudget⟩ := advance_eq_view s p offset
    rw [List.foldl_cons, ih, htable, hbudget, List.map_cons, View.tableWithin,
      ImportTable.append_assoc]

/-- **The table at an offset**, from what the descriptors there show. -/
theorem tableAt_of_views {offset : Nat} {views : List (Option View)}
    (hend : (s.descriptorArray offset).ending = .terminator)
    (hviews : (s.descriptorOffsets offset).map s.viewAt? = views) :
    (s.tableAt offset).value
      = .ok (View.tableWithin s.limits.imports views) := by
  refine tableAt_eq_ok_iff.2 ⟨hend, ?_⟩
  rw [walked, table_foldl, hviews]
  exact ImportTable.empty_append _

end ImportSource

end DriverAudit
