import DriverAudit.Imports.Walk

/-!
# What a descriptor leads to, budget aside

A walk looks at a descriptor with what is left of its budget, and what the
descriptor contributes depends on both. The two can be told apart. Where a
descriptor *leads* – to the name of its module and to its table of thunks – is
a matter of the file alone, and so is whether it leads anywhere. The budget
comes in only afterwards, and all it does is to cut the table of thunks short.

So every contribution is the *whole* module of a lead with some of its last
thunks left out (`ImportModule.CutFrom`), and the whole module itself when the
budget does not limit it.
-/

namespace DriverAudit

attribute [ext] ImportModule

/-- **A module with some of its last thunks left out.** -/
structure ImportModule.CutFrom (m whole : ImportModule) : Prop where
  name : m.name = whole.name
  entries : m.entries <+: whole.entries
  skipped : m.skippedEntries ≤ whole.skippedEntries

namespace ImportSource

/-- **Where a descriptor leads**: the name of its module, and where its table
of thunks starts, if it has one. -/
structure Lead where
  name : String
  table : Option Nat

/-- Follow a descriptor to its name and to its table of thunks. -/
def lead (s : ImportSource) (x : Descriptor) : Except ImageError Lead := do
  let nameOffset ← s.sections.fileOffset x.moduleName
  let name ←
    ofRead (stringAt s.data nameOffset s.limits.moduleNameLength)
  if x.thunkAddress = 0 then return ⟨name, none⟩
  else
    let offset ← s.sections.fileOffset x.thunkAddress
    return ⟨name, some offset⟩

/-- The table of thunks of a lead, which is empty when there is none. -/
def leadArray (s : ImportSource) (l : Lead) : RecordArray :=
  match l.table with
  | none => ⟨0, .terminator⟩
  | some offset => s.thunkArray offset

/-- The thunks of a lead, by their offsets. -/
def leadThunks (s : ImportSource) (l : Lead) : List Nat :=
  match l.table with
  | none => []
  | some offset =>
    (s.thunkArray offset).offsets s.architecture.thunkWidth offset

/-- **What a lead contributes** with what is left of a budget. -/
def contribution (s : ImportSource) (budget : Nat) (l : Lead) :
    Contribution :=
  match l.table with
  | none =>
    { module := ⟨l.name, [], 0⟩, limited := false, spent := 0, events := [] }
  | some offset => s.moduleAt budget l.name offset

/-- **The whole module of a lead**: each of its thunks either resolves to what
is imported or is passed over, and a table that runs out of the file counts as
one more thunk passed over. -/
def wholeModule (s : ImportSource) (l : Lead) : ImportModule where
  name := l.name
  entries := (s.leadThunks l).filterMap fun o => (s.resolutionAt o).found?
  skippedEntries :=
    (s.leadThunks l).countP (fun o => (s.resolutionAt o).found?.isNone)
      + if (s.leadArray l).ending = .endOfFile then 1 else 0

variable {s : ImportSource}

/-- A descriptor whose name is nowhere in the file leads nowhere. -/
theorem toOption_lead_of_unmapped {x : Descriptor} {e : ImageError}
    (hname : s.sections.fileOffset x.moduleName = .error e) :
    (s.lead x).toOption = none := by
  unfold lead
  rw [hname]
  rfl

/-- A descriptor whose name and table have their places in the file leads there
if the name can be read. -/
theorem toOption_lead_of_mapped {x : Descriptor} {place table : Nat}
    (hname : s.sections.fileOffset x.moduleName = .ok place)
    (hne : x.thunkAddress ≠ 0)
    (htable : s.sections.fileOffset x.thunkAddress = .ok table) :
    (s.lead x).toOption
      = (stringAt s.data place s.limits.moduleNameLength).toOption.map
          fun name => ⟨name, some table⟩ := by
  unfold lead
  rw [hname]
  show Except.toOption (ofRead (stringAt ..) >>= _) = _
  cases stringAt s.data place s.limits.moduleNameLength with
  | error e => rfl
  | ok name =>
    show Except.toOption (if _ then _ else s.sections.fileOffset _ >>= _) = _
    rw [if_neg hne, htable]
    rfl

/-- **A descriptor is followed first and paid for afterwards.** -/
theorem readModule_eq (s : ImportSource) (budget : Nat) (x : Descriptor) :
    s.readModule budget x = (s.lead x).map (s.contribution budget) := by
  unfold readModule lead
  cases s.sections.fileOffset x.moduleName with
  | error e => rfl
  | ok nameOffset =>
    show (ofRead _ >>= _) = Except.map _ (ofRead _ >>= _)
    cases ofRead (stringAt s.data nameOffset s.limits.moduleNameLength) with
    | error e => rfl
    | ok name =>
      show (if _ then _ else _) = Except.map _ (if _ then _ else _)
      split
      · rfl
      · cases s.sections.fileOffset x.thunkAddress with
        | error e => rfl
        | ok offset => rfl

/-! ## What the budget leaves of a module -/

section Contribution

variable (s : ImportSource) (budget : Nat) (l : Lead)

@[simp]
theorem contribution_name : (s.contribution budget l).module.name = l.name := by
  unfold contribution
  split <;> rfl

theorem length_leadThunks : (s.leadThunks l).length = (s.leadArray l).count := by
  unfold leadThunks leadArray
  split
  · rfl
  · rw [RecordArray.offsets, List.length_map, List.length_range]

/-- The budget decides how many thunks are looked at. -/
theorem contribution_entries :
    (s.contribution budget l).module.entries
      = ((s.leadThunks l).take budget).filterMap
          fun o => (s.resolutionAt o).found? := by
  unfold contribution leadThunks
  split
  · rw [List.take_nil, List.filterMap_nil]
  · rw [moduleAt]
    exact List.filterMap_map ..

/-- A module is limited when its table has more thunks than the budget. -/
theorem contribution_limited :
    (s.contribution budget l).limited
      = decide (budget < (s.leadArray l).count) := by
  unfold contribution leadArray
  split
  · exact (decide_eq_false (Nat.not_lt_zero budget)).symm
  · rfl

/-- Every thunk that is looked at is paid for. -/
theorem contribution_spent :
    (s.contribution budget l).spent = min budget (s.leadArray l).count := by
  rw [← length_leadThunks]
  unfold contribution leadThunks
  split
  · exact (Nat.min_zero budget).symm
  · rw [moduleAt]
    exact List.length_take

/-- A thunk is passed over when it has no import, and then an event says so. -/
theorem event?_isSome_eq (name : String) (r : Resolution) :
    (r.event? name).isSome = r.found?.isNone := by
  unfold Resolution.event? Resolution.found?
  cases r.result <;> rfl

/-- What is passed over is counted among the thunks that are looked at; the
end of the file counts when the budget reaches it. -/
theorem contribution_skipped :
    (s.contribution budget l).module.skippedEntries
      = ((s.leadThunks l).take budget).countP
          (fun o => (s.resolutionAt o).found?.isNone)
        + if (s.leadArray l).count ≤ budget
            ∧ (s.leadArray l).ending = .endOfFile then 1 else 0 := by
  unfold contribution leadThunks leadArray
  split
  · simp
  case h_2 offset _ =>
    simp only [moduleAt]
    refine congr (congrArg HAdd.hAdd ?_) ?_
    · rw [List.length_filterMap_eq_countP, List.countP_map]
      refine List.countP_congr (fun o _ => ?_)
      rw [Function.comp_apply, event?_isSome_eq]
    · simp only [Bool.and_eq_true, Bool.not_eq_true', decide_eq_true_eq,
        decide_eq_false_iff_not, Nat.not_lt]
      split <;> rfl

/-- **A contribution is cut from the whole module.** -/
theorem contribution_cutFrom :
    (s.contribution budget l).module.CutFrom (s.wholeModule l) := by
  refine ⟨contribution_name s budget l, ?_, ?_⟩
  · rw [contribution_entries]
    exact (List.take_prefix budget _).filterMap _
  · rw [contribution_skipped, wholeModule]
    refine Nat.add_le_add ((List.take_sublist budget _).countP_le) ?_
    split
    case isTrue h => exact Nat.le_of_eq (if_pos h.2).symm
    case isFalse => exact Nat.zero_le _

/-- **A contribution that is not limited is the whole module.** -/
theorem contribution_eq_wholeModule
    (h : (s.contribution budget l).limited = false) :
    (s.contribution budget l).module = s.wholeModule l := by
  have hcount : (s.leadArray l).count ≤ budget := by
    rw [contribution_limited, decide_eq_false_iff_not] at h
    exact Nat.not_lt.1 h
  have htake : (s.leadThunks l).take budget = s.leadThunks l := by
    refine List.take_of_length_le ?_
    rwa [length_leadThunks]
  -- an end of the file is counted when the budget reaches it, as it does here
  have hskipped : (s.contribution budget l).module.skippedEntries
      = (s.wholeModule l).skippedEntries := by
    rw [contribution_skipped, wholeModule, htake]
    simp only [hcount, true_and]
  have hentries : (s.contribution budget l).module.entries
      = (s.wholeModule l).entries := by
    rw [contribution_entries, htake]
    rfl
  exact ImportModule.ext (contribution_name s budget l) hentries hskipped

end Contribution

end ImportSource

end DriverAudit
