import DriverAudit.Proofs.Imports.Limits

/-!
# What the budget of a walk is spent on

A walk pays one for every descriptor that it follows, whether or not the
descriptor can be read, and one for every thunk that it looks at, whether or
not the thunk denotes an import. It pays for nothing else: the zero behind a
table of thunks and the end of the file are free, although the end of the file
is counted as a thunk that was passed over.

A walk *visits* the modules of the first descriptors that can be read
(`Visit`), the last one perhaps only in part. What it spends is what its visits
and the unreadable descriptors between them cost, and that is the whole budget
or all that there is to pay for, whichever is less
(`spent_eq_min`). The rest of the accounts follows from there.
-/

namespace DriverAudit

/-- The elements that are there and those that are not. -/
theorem length_filterMap_id_add_countP {α : Type} (l : List (Option α)) :
    (l.filterMap id).length + l.countP (·.isNone) = l.length := by
  induction l with
  | nil => rfl
  | cons a rest ih =>
    cases a with
    | none => simp [← ih, Nat.add_assoc]
    | some a => simp [← ih, Nat.add_right_comm]

/-! ## Visits -/

/-- **A visit to a module**: what the descriptor describes, and how many of its
thunks were paid for. -/
structure Visit where
  view : View
  paid : Nat
  paid_le : paid ≤ view.found.length

namespace Visit

/-- The module that a visit finds. -/
def module (x : Visit) : ImportModule := x.view.moduleWithin x.paid

/-- Whether the budget ended inside the table of thunks. -/
def isCutShort (x : Visit) : Bool := x.paid < x.view.found.length

/-- Whether the visit came to an end of the file. -/
def metEndOfFile (x : Visit) : Bool :=
  !x.isCutShort && x.view.ending = .endOfFile

/-- **The thunks that a visit attempted**: all that the module has and all that
were passed over, less the end of the file. -/
def attempted (x : Visit) : Nat :=
  x.module.entries.length + x.module.skippedEntries
    - if x.metEndOfFile then 1 else 0

/-- The visit to a module when no budget ends it. -/
def whole (v : View) : Visit := ⟨v, v.found.length, Nat.le_refl _⟩

/-- **What is attempted is paid for**, and nothing else. -/
theorem attempted_eq (x : Visit) : x.attempted = x.paid := by
  have hfound : ((x.view.found.take x.paid).filterMap id).length
      + (x.view.found.take x.paid).countP (·.isNone) = x.paid := by
    rw [length_filterMap_id_add_countP]
    exact List.length_take_of_le x.paid_le
  have hend : x.metEndOfFile = true
      ↔ x.view.found.length ≤ x.paid ∧ x.view.ending = .endOfFile := by
    unfold metEndOfFile isCutShort
    simp
  unfold attempted module View.moduleWithin
  simp only [hend]
  omega

/-- The visit to a module with what is left of a budget. -/
def within (v : View) (budget : Nat) : Visit :=
  ⟨v, min budget v.found.length, Nat.min_le_right ..⟩

theorem module_within (v : View) (budget : Nat) :
    (within v budget).module = v.moduleWithin budget := by
  show v.moduleWithin (min budget v.found.length) = _
  rcases Nat.le_total budget v.found.length with hle | hle
  · rw [Nat.min_eq_left hle]
  · rw [Nat.min_eq_right hle, View.moduleWithin_of_length_le (Nat.le_refl _),
      View.moduleWithin_of_length_le hle]

theorem isCutShort_within (v : View) (budget : Nat) :
    (within v budget).isCutShort = decide (budget < v.found.length) := by
  show decide (min budget v.found.length < v.found.length) = _
  rw [decide_eq_decide]
  omega

end Visit

/-! ## The visits of a walk -/

namespace View

/-- **The visits that a budget pays for**, in order. -/
def visitsWithin : Nat → List (Option View) → List Visit
  | _, [] => []
  | 0, _ :: _ => []
  | budget + 1, none :: rest => visitsWithin budget rest
  | budget + 1, some v :: rest =>
    .within v budget :: visitsWithin (budget - v.found.length) rest

@[simp]
theorem visitsWithin_zero (views : List (Option View)) :
    visitsWithin 0 views = [] := by
  cases views <;> rfl

variable {budget : Nat} {views : List (Option View)}

/-- **The modules of a table are those that were visited.** -/
theorem modules_tableWithin (budget : Nat) (views : List (Option View)) :
    (tableWithin budget views).modules
      = (visitsWithin budget views).map (·.module) := by
  fun_induction visitsWithin budget views with
  | case1 => rfl
  | case2 v rest => rw [tableWithin_zero]; rfl
  | case3 budget rest ih => exact ih
  | case4 budget v rest ih =>
    rw [List.map_cons, ← ih, Visit.module_within]
    rfl

/-- **The modules that are visited** are the first ones that there are. -/
theorem map_view_visitsWithin (budget : Nat) (views : List (Option View)) :
    (visitsWithin budget views).map (·.view) <+: views.filterMap id := by
  fun_induction visitsWithin budget views with
  | case1 => exact List.prefix_refl _
  | case2 v rest => exact List.nil_prefix
  | case3 budget rest ih => exact ih
  | case4 budget v rest ih => exact (List.prefix_cons_inj v).2 ih

/-- **Only the last visit is cut short.** -/
theorem isCutShort_of_mem_dropLast (budget : Nat)
    (views : List (Option View)) :
    ∀ x ∈ (visitsWithin budget views).dropLast, x.isCutShort = false := by
  fun_induction visitsWithin budget views with
  | case1 => exact fun x hx => by cases hx
  | case2 v rest => exact fun x hx => by cases hx
  | case3 budget rest ih => exact ih
  | case4 budget v rest ih =>
    intro x hx
    by_cases hcut : budget < v.found.length
    · rw [Nat.sub_eq_zero_of_le (Nat.le_of_lt hcut), visitsWithin_zero] at hx
      cases hx
    · by_cases hnil : visitsWithin (budget - v.found.length) rest = []
      · rw [hnil] at hx
        cases hx
      · rw [List.dropLast_cons_of_ne_nil hnil] at hx
        rcases List.mem_cons.1 hx with rfl | hrest
        · rw [Visit.isCutShort_within, decide_eq_false hcut]
        · exact ih x hrest

/-- **Every descriptor is counted**: visited, passed over or limited. One that
is cut short is counted twice. -/
theorem length_add_countP_isCutShort (budget : Nat)
    (views : List (Option View)) :
    views.length + (visitsWithin budget views).countP (·.isCutShort)
      = (tableWithin budget views).modules.length
        + (tableWithin budget views).skippedModules
        + (tableWithin budget views).limitedModules := by
  rw [modules_tableWithin, List.length_map]
  fun_induction visitsWithin budget views with
  | case1 => rfl
  | case2 v rest =>
    rw [tableWithin_zero]
    simp
  | case3 budget rest ih =>
    simp only [tableWithin, addedWithin, leftOf, ImportTable.append,
      List.length_cons]
    omega
  | case4 budget v rest ih =>
    simp only [tableWithin, addedWithin, leftOf, ImportTable.append,
      List.length_cons, List.countP_cons, Visit.isCutShort_within,
      decide_eq_true_eq]
    omega

/-- **What a walk spends** is its budget or all that there is to pay for,
whichever is less. -/
theorem spent_eq_min (budget : Nat) (views : List (Option View)) :
    (tableWithin budget views).modules.length
        + (tableWithin budget views).skippedModules
        + ((visitsWithin budget views).map (·.attempted)).sum
      = min budget (views.map cost).sum := by
  rw [modules_tableWithin, List.length_map]
  simp only [Visit.attempted_eq]
  fun_induction visitsWithin budget views with
  | case1 => simp [tableWithin, ImportTable.empty]
  | case2 v rest =>
    rw [tableWithin_zero]
    simp
  | case3 budget rest ih =>
    simp only [tableWithin, addedWithin, leftOf, ImportTable.append,
      List.map_cons, List.sum_cons, cost]
    omega
  | case4 budget v rest ih =>
    simp only [tableWithin, addedWithin, leftOf, ImportTable.append,
      List.length_cons, List.map_cons, List.sum_cons, cost, Visit.within]
    omega

/-- **All that there is to pay for**: each descriptor, and the thunks that are
attempted when no budget ends a visit. -/
theorem sum_cost (views : List (Option View)) :
    (views.map cost).sum
      = views.length
        + ((views.filterMap id).map fun v => (Visit.whole v).attempted).sum := by
  simp only [Visit.attempted_eq, Visit.whole]
  induction views with
  | nil => rfl
  | cons v rest ih =>
    rw [List.map_cons, List.sum_cons, ih, List.length_cons]
    cases v with
    | none =>
      simp only [cost, List.filterMap_cons, id]
      omega
    | some v =>
      simp only [cost, List.filterMap_cons, id, List.map_cons, List.sum_cons]
      omega

end View

/-- Whether the last of some visits was cut short. -/
def Visit.lastIsCutShort (visits : List Visit) : Bool :=
  visits.getLast?.any (·.isCutShort)

/-- When only the last visit may be cut short, at most one is. -/
theorem Visit.countP_isCutShort {visits : List Visit}
    (h : ∀ x ∈ visits.dropLast, x.isCutShort = false) :
    visits.countP (·.isCutShort)
      = if Visit.lastIsCutShort visits then 1 else 0 := by
  unfold lastIsCutShort
  rcases List.eq_nil_or_concat' visits with rfl | ⟨front, last, rfl⟩
  · rfl
  · rw [List.dropLast_concat] at h
    have hfront : front.countP (·.isCutShort) = 0 :=
      List.countP_eq_zero.2 fun x hx => by simp [h x hx]
    rw [List.countP_append, hfront, List.countP_singleton,
      List.getLast?_concat, Nat.zero_add]
    rfl

/-! ## The accounts of a table -/

/-- **A balanced account** of a table, by what the descriptors describe and by
the visits that its walk paid. -/
structure Balanced (budget : Nat) (views : List (Option View))
    (visits : List Visit) (t : ImportTable) : Prop where
  modules : t.modules = visits.map (·.module)
  /-- The visits are to the modules of the first descriptors that can be
  read. -/
  inOrder : visits.map (·.view) <+: views.filterMap id
  /-- A descriptor costs one, and a thunk that is attempted costs one. -/
  spent_le : t.modules.length + t.skippedModules
    + (visits.map (·.attempted)).sum ≤ budget
  /-- A walk that is limited has spent its budget. -/
  spent_eq : 0 < t.limitedModules →
    t.modules.length + t.skippedModules
      + (visits.map (·.attempted)).sum = budget
  /-- A walk is limited when all descriptors, with all the thunks that are
  attempted without a limit, cost more than the budget. -/
  limited_iff : 0 < t.limitedModules ↔ budget < views.length
    + ((views.filterMap id).map fun v => (Visit.whole v).attempted).sum
  /-- Every descriptor is counted once, but for one that was cut short. -/
  descriptors : views.length + (if Visit.lastIsCutShort visits then 1 else 0)
    = t.modules.length + t.skippedModules + t.limitedModules
  /-- No visit but the last is cut short. -/
  cutShort : ∀ x ∈ visits.dropLast, x.isCutShort = false

/-- **The table under a budget has a balanced account.** -/
theorem View.balanced_tableWithin (budget : Nat)
    (views : List (Option View)) :
    Balanced budget views (visitsWithin budget views)
      (tableWithin budget views) := by
  have hspent := spent_eq_min budget views
  have hlimited : (tableWithin budget views).limitedModules = 0
      ↔ (views.map cost).sum ≤ budget := limitedModules_tableWithin_eq_zero_iff
  have hcut := isCutShort_of_mem_dropLast budget views
  refine ⟨modules_tableWithin budget views, map_view_visitsWithin budget views,
    ?_, fun hpos => ?_, ?_, ?_, hcut⟩
  · omega
  · omega
  · rw [← sum_cost]
    omega
  · rw [← Visit.countP_isCutShort hcut]
    exact length_add_countP_isCutShort budget views

namespace ImportSource

variable {s : ImportSource} {directory : DataDirectory} {table : ImportTable}

/-- **The accounts of a walk.** Whatever table a walk finds, the descriptors
and the visits to their modules balance with it: what was spent is within the
budget, and is all of it when the walk was limited; the walk was limited just
when everything together costs more than the budget, so that a budget that is
reached at an end mark limits nothing; and each descriptor is a module, passed
over or limited, and at most one of them is two of these. The modules that
there are to visit are those that every unlimited walk finds. -/
theorem walk_accounts (hwalk : (s.walk directory).value = .ok table) :
    ∃ views, s.Lists directory views
      ∧ (∀ budget t, ((s.withBudget budget).walk directory).value = .ok t →
        t.limitedModules = 0 → t.modules = (views.filterMap id).map View.whole)
      ∧ ∃ visits, Balanced s.limits.imports views visits table := by
  obtain ⟨e, hfails⟩ | ⟨views, hlists, hfinds⟩ :=
    walk_withBudget_cases s directory
  · cases hwalk.symm.trans (hfails s.limits.imports)
  · refine ⟨views, hlists, fun budget t ht hunlimited => ?_,
      View.visitsWithin s.limits.imports views, ?_⟩
    · obtain rfl : View.tableWithin budget views = t :=
        Except.ok.inj ((hfinds budget).symm.trans ht)
      rw [View.tableWithin_of_cost_le
        (View.limitedModules_tableWithin_eq_zero_iff.1 hunlimited),
        List.map_filterMap]
      rfl
    · obtain rfl : View.tableWithin s.limits.imports views = table :=
        Except.ok.inj ((hfinds s.limits.imports).symm.trans hwalk)
      exact View.balanced_tableWithin _ _

/-- A budget of three pays for the first descriptor of the sample and for two
of its thunks. -/
theorem walk_accounts_sample :
    ((sample.withBudget 3).walk sampleDirectory).value
        = .ok ⟨[⟨"ntoskrnl.exe",
            [.byName 0 "MmMapIoSpace", .byOrdinal 7], 0⟩], 0, 3⟩
      ∧ ∃ visits : List Visit,
        visits.length = 1 ∧ (visits.map (·.attempted)).sum = 2 := by
  have hwalk : ((sample.withBudget 3).walk sampleDirectory).value
      = .ok ⟨[⟨"ntoskrnl.exe",
          [.byName 0 "MmMapIoSpace", .byOrdinal 7], 0⟩], 0, 3⟩ :=
    (walk_sample_withBudget 3).trans (congrArg Except.ok (by decide))
  obtain ⟨views, _, _, visits, hbalanced⟩ := walk_accounts hwalk
  have hcount : visits.length = 1 := by
    rw [← List.length_map, ← hbalanced.modules]
    rfl
  have hspent : 1 + 0 + (visits.map (·.attempted)).sum = 3 :=
    hbalanced.spent_eq (by decide)
  exact ⟨hwalk, visits, hcount, by omega⟩

end ImportSource

end DriverAudit
