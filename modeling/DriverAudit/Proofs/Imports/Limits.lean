import DriverAudit.Proofs.Imports.Descriptions

/-!
# What a smaller budget leaves of an import table

Two walks of one file under two budgets go side by side as long as neither
budget is used up. From the thunk or the descriptor on at which the smaller one
is, the walk under it finds nothing more, and it counts every descriptor that
is still to come as limited. The other walk may go on. So what a smaller budget
finds is the front of what a larger one finds, and only the last module of that
front can be another one: it may lack some of its last thunks
(`ImportTable.CutFrom`).

Whether there is a table at all is no matter of the budget, and a walk that was
not limited finds the same under every larger budget.
-/

namespace DriverAudit

/-! ## Tables cut from others -/

/-- **The front of some modules**, of which the last one may lack some of its
last thunks. -/
inductive ImportModule.FrontOf : List ImportModule → List ImportModule → Prop
  | nil (rest : List ImportModule) : FrontOf [] rest
  | last {m whole : ImportModule} (rest : List ImportModule)
      (h : m.CutFrom whole) : FrontOf [m] (whole :: rest)
  | cons {front all : List ImportModule} (m : ImportModule)
      (h : FrontOf front all) : FrontOf (m :: front) (m :: all)

/-- **A table that a smaller budget leaves** of another one. -/
structure ImportTable.CutFrom (t whole : ImportTable) : Prop where
  modules : ImportModule.FrontOf t.modules whole.modules
  skipped : t.skippedModules ≤ whole.skippedModules
  limited : whole.limitedModules ≤ t.limitedModules
  /-- Only what is limited is cut. -/
  eq_of_unlimited : t.limitedModules = 0 → t = whole

/-- The imports of the front of some modules are imports of the modules. -/
theorem ImportModule.FrontOf.entries_subset {front all : List ImportModule}
    (h : FrontOf front all) :
    front.flatMap (·.entries) ⊆ all.flatMap (·.entries) := by
  induction h with
  | nil rest => exact List.nil_subset _
  | last rest hcut =>
    rw [List.flatMap_cons, List.flatMap_cons, List.flatMap_nil,
      List.append_nil]
    exact List.Subset.trans hcut.entries.subset
      (List.subset_append_left _ _)
  | cons m _ ih =>
    rw [List.flatMap_cons, List.flatMap_cons]
    exact List.append_subset.2 ⟨List.subset_append_left _ _,
      List.Subset.trans ih (List.subset_append_right _ _)⟩

namespace ImportTable.CutFrom

variable {t whole : ImportTable}

protected theorem refl (t : ImportTable) : t.CutFrom t := by
  refine ⟨?_, Nat.le_refl _, Nat.le_refl _, fun _ => rfl⟩
  induction t.modules with
  | nil => exact .nil []
  | cons m rest ih => exact .cons m ih

/-- **What stands before both tables** takes nothing away. -/
theorem append (h : t.CutFrom whole) (u : ImportTable) :
    (u.append t).CutFrom (u.append whole) := by
  refine ⟨?_, Nat.add_le_add_left h.skipped _,
    Nat.add_le_add_left h.limited _, fun hzero => ?_⟩
  · show ImportModule.FrontOf (u.modules ++ _) (u.modules ++ _)
    induction u.modules with
    | nil => exact h.modules
    | cons m rest ih => exact .cons m ih
  · have hunlimited : t.limitedModules = 0 := (Nat.add_eq_zero_iff.1 hzero).2
    rw [h.eq_of_unlimited hunlimited]

/-- **A name that a cut table imports** is imported by the whole one. -/
theorem mem_names (h : t.CutFrom whole) {name : String}
    (hname : name ∈ t.names) : name ∈ whole.names := by
  obtain ⟨e, he, hename⟩ := ImportTable.mem_names_iff.1 hname
  exact ImportTable.mem_names_iff.2
    ⟨e, h.modules.entries_subset he, hename⟩

end ImportTable.CutFrom

/-! ## One list of views under two budgets -/

namespace View

/-- A budget that is used up leaves all descriptors out. -/
theorem tableWithin_zero (views : List (Option View)) :
    tableWithin 0 views = ⟨[], 0, views.length⟩ := by
  induction views with
  | nil => rfl
  | cons v rest ih =>
    rw [tableWithin, addedWithin, leftOf, ih, ImportTable.append,
      List.length_cons, Nat.add_comm rest.length]
    rfl

/-- Each descriptor is limited at most once. -/
theorem limitedModules_tableWithin_le (budget : Nat)
    (views : List (Option View)) :
    (tableWithin budget views).limitedModules ≤ views.length := by
  induction views generalizing budget with
  | nil => exact Nat.le_refl _
  | cons v rest ih =>
    have hfirst : (addedWithin budget v).limitedModules ≤ 1 := by
      unfold addedWithin
      split
      · exact Nat.le_refl _
      · exact Nat.zero_le _
      · dsimp only
        split <;> omega
    have hrest := ih (leftOf budget v)
    rw [tableWithin, List.length_cons]
    simp only [ImportTable.append]
    omega

variable {b b' : Nat}

/-- **A module under a smaller budget** is cut from what it is under a larger
one. -/
theorem moduleWithin_cutFrom (h : b ≤ b') (v : View) :
    (v.moduleWithin b).CutFrom (v.moduleWithin b') := by
  have hprefix : v.found.take b <+: v.found.take b' :=
    List.take_prefix_take_left h
  refine ⟨rfl, hprefix.filterMap _, ?_⟩
  unfold moduleWithin
  refine Nat.add_le_add hprefix.sublist.countP_le ?_
  split
  case isTrue hend => rw [if_pos ⟨Nat.le_trans hend.1 h, hend.2⟩]
  case isFalse => exact Nat.zero_le _

/-- What a budget adds that covers a module: all of it. -/
theorem addedWithin_of_length_le {v : View} (h : v.found.length ≤ b) :
    addedWithin (b + 1) (some v) = ⟨[v.whole], 0, 0⟩ := by
  rw [addedWithin, moduleWithin_of_length_le h, if_neg (Nat.not_lt.2 h)]

/-- **A table under a smaller budget** is cut from what it is under a larger
one. -/
theorem tableWithin_cutFrom (h : b ≤ b') (views : List (Option View)) :
    (tableWithin b views).CutFrom (tableWithin b' views) := by
  induction views generalizing b b' with
  | nil => exact .refl _
  | cons v rest ih =>
    cases b with
    | zero =>
      rw [tableWithin_zero]
      exact ⟨.nil _, Nat.zero_le _, limitedModules_tableWithin_le _ _,
        fun hzero => by cases hzero⟩
    | succ b =>
      cases b' with
      | zero => exact absurd h (Nat.not_succ_le_zero b)
      | succ b' =>
        have hle : b ≤ b' := Nat.le_of_succ_le_succ h
        cases v with
        | none => exact (ih hle).append _
        | some v =>
          by_cases hcovered : v.found.length ≤ b
          · -- neither budget cuts the module short, so the rest decides
            rw [tableWithin, tableWithin, addedWithin_of_length_le hcovered,
              addedWithin_of_length_le (Nat.le_trans hcovered hle)]
            exact (ih (Nat.sub_le_sub_right hle _)).append _
          · -- the smaller budget ends inside the module
            have hcut : b < v.found.length := Nat.lt_of_not_le hcovered
            have hfirst : tableWithin (b + 1) (some v :: rest)
                = ⟨[v.moduleWithin b], 0, rest.length + 1⟩ := by
              rw [tableWithin, addedWithin, if_pos hcut, leftOf,
                Nat.sub_eq_zero_of_le (Nat.le_of_lt hcut), tableWithin_zero,
                Nat.add_comm rest.length]
              rfl
            rw [hfirst]
            exact ⟨.last _ (moduleWithin_cutFrom hle v), Nat.zero_le _,
              limitedModules_tableWithin_le _ _, fun hzero => by cases hzero⟩

end View

/-! ## One file under two budgets -/

namespace ImportSource

/-- A walk that is the same but for its budget. -/
def withBudget (s : ImportSource) (budget : Nat) : ImportSource :=
  { s with limits := { s.limits with imports := budget } }

/-- **What a walk comes to under all budgets**: always the same failure, or as
much of what the descriptors describe as the budget covers. -/
theorem walk_withBudget_cases (s : ImportSource) (directory : DataDirectory) :
    (∃ e, ∀ budget, ((s.withBudget budget).walk directory).value = .error e)
      ∨ ∃ views, s.Lists directory views ∧ ∀ budget,
        ((s.withBudget budget).walk directory).value
          = .ok (View.tableWithin budget views) := by
  by_cases hzero : directory.address = 0
  · exact Or.inr ⟨[], .absent hzero, fun _ => walk_value_of_absent hzero⟩
  cases hmapped : s.sections.fileOffset directory.address with
  | error e =>
    exact Or.inl ⟨_, fun budget =>
      (s.withBudget budget).walk_value_of_unmapped hzero hmapped⟩
  | ok offset =>
    have hwalk : ∀ budget, ((s.withBudget budget).walk directory).value
        = ((s.withBudget budget).tableAt offset).value :=
      fun budget => (s.withBudget budget).walk_value_of_mapped hzero hmapped
    cases hend : (s.descriptorArray offset).ending with
    | endOfFile =>
      exact Or.inl ⟨.importTableTruncated
        (RecordArray.recordOffset Descriptor.byteSize offset
          (s.descriptorArray offset).count), fun budget =>
        (hwalk budget).trans
          ((s.withBudget budget).tableAt_value_of_endOfFile hend)⟩
    | terminator =>
      refine Or.inr ⟨_, .present hzero hmapped (showsAt_iff.2 ⟨hend, rfl⟩),
        fun budget => ?_⟩
      rw [hwalk]
      exact tableAt_of_views hend rfl

/-- **A limit on imports only cuts off the end.** Under two budgets, walks of
the same file either fail in the same way, or they both find a table. Then the
modules under the smaller budget are the first ones of those under the larger
budget, except that the last one may have only the first of its imports; no
more descriptors are passed over, no fewer are limited, and no name is new. If
nothing is limited, the two tables are the same. -/
theorem walk_withBudget (s : ImportSource) (directory : DataDirectory)
    {b b' : Nat} (h : b ≤ b') :
    (∃ e, ((s.withBudget b).walk directory).value = .error e
        ∧ ((s.withBudget b').walk directory).value = .error e)
      ∨ ∃ t t', ((s.withBudget b).walk directory).value = .ok t
        ∧ ((s.withBudget b').walk directory).value = .ok t'
        ∧ t.CutFrom t' ∧ ∀ name ∈ t.names, name ∈ t'.names := by
  obtain ⟨e, hfails⟩ | ⟨views, _, hfinds⟩ := walk_withBudget_cases s directory
  · exact Or.inl ⟨e, hfails b, hfails b'⟩
  · have hcut := View.tableWithin_cutFrom h views
    exact Or.inr ⟨_, _, hfinds b, hfinds b', hcut,
      fun _ hname => hcut.mem_names hname⟩

/-- What the descriptors of the sample describe: its first module, one that
cannot be read, and the first module once more. -/
def sampleViews : List (Option View) :=
  let first : View := ⟨"ntoskrnl.exe",
    [some (.byName 0 "MmMapIoSpace"), some (.byOrdinal 7), none], .terminator⟩
  [some first, none, some first]

/-- The walk of the sample under a budget. -/
theorem walk_sample_withBudget (budget : Nat) :
    ((sample.withBudget budget).walk sampleDirectory).value
      = .ok (View.tableWithin budget sampleViews) := by
  have hviews : Blueprint.sample.describedModules.map
        (·.view? Blueprint.sample.architecture .default) = sampleViews := by
    refine (List.map_congr_left fun m hm =>
      Blueprint.view?_of_readable Blueprint.readable_sample
        (Blueprint.mem_of_mem_shareFirst hm)).trans ?_
    decide
  refine (Blueprint.walk_of_shows Blueprint.readable_sample.tidy
    Blueprint.sample.shows_build).trans (congrArg Except.ok ?_)
  have hdirectory : Blueprint.sample.hasImportDirectory = true := rfl
  rw [Blueprint.visibleTable, if_pos hdirectory]
  exact congrArg (View.tableWithin budget) hviews

/-- A budget of three ends inside the first module of the sample. -/
theorem walk_withBudget_sample :
    3 ≤ sample.limits.imports
      ∧ ∃ t, ((sample.withBudget 3).walk sampleDirectory).value = .ok t
        ∧ t.CutFrom Blueprint.sample.importedTable := by
  have hle : 3 ≤ sample.limits.imports := by decide
  obtain ⟨e, _, hfails⟩ | ⟨t, t', ht, ht', hcut, _⟩ :=
    walk_withBudget sample sampleDirectory hle
  · cases walk_sample.symm.trans hfails
  · obtain rfl : Blueprint.sample.importedTable = t' :=
      Except.ok.inj (walk_sample.symm.trans ht')
    exact ⟨hle, t, ht, hcut⟩

end ImportSource

end DriverAudit
