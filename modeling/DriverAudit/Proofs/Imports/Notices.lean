import DriverAudit.Proofs.FixedWidth.Walk
import DriverAudit.Proofs.Imports.Limits
import Mathlib.Data.List.Forall2

/-!
# Nothing is passed over in silence

A table counts what its walk has passed over: descriptors that lead nowhere,
thunks that denote nothing, a table of thunks that runs out of the file. Each
of these is also an event, and whoever reads the events should come to the same
numbers (`Reported`). The two are kept in different places of the walk, and a
module that is given up half-way could have left events that no table counts.

It cannot, because a descriptor is followed to the name and to the table of
thunks before the first thunk is looked at. So a descriptor either contributes
a module, with all the events about its thunks (`NoticesOf`), or it contributes
the one event that it was passed over. That is the step lemma
(`Tells.advance`), and a walk is a sequence of such steps. The limit is told of
behind the last step, and only where the walk has come to a table.

The walk in words has a place where a thunk is counted and nothing is said: no
word is left for the next offset. It never comes there, since a thunk is inside
the data and the data end below the last word, so the statement holds of that
walk too (`walk_reportsItself`).
-/

namespace DriverAudit

/-! ## What an event is about -/

namespace Event

/-- Whether an event has a level and a message. -/
def reads (level : Level) (message : String) (e : Event) : Bool :=
  decide (e.level = level ∧ e.message = message)

/-- Whether an event tells of a descriptor that was passed over. -/
def isDescriptorSkipped : Event → Bool :=
  reads .warn "Skipping unreadable import descriptor"

/-- Whether an event tells of a thunk that was passed over. -/
def isThunkSkipped : Event → Bool :=
  reads .debug "Skipping unresolvable import thunk"

/-- Whether an event tells of a table of thunks that runs out of the file. -/
def isCutOff : Event → Bool :=
  reads .debug "Thunk array ends without terminator"

/-- Whether an event tells of the limit on imports. -/
def isLimit : Event → Bool :=
  reads .warn "Import limit reached, remaining thunks not walked"

/-- **Whether an event is about the thunks of a module.** -/
def isAboutThunks (e : Event) : Bool := e.isThunkSkipped || e.isCutOff

@[simp]
theorem about_descriptorSkipped (offset : Nat) (name thunks : UInt32)
    (error : ImageError) :
    (descriptorSkipped offset name thunks error).isDescriptorSkipped = true
      ∧ (descriptorSkipped offset name thunks error).isAboutThunks = false
      ∧ (descriptorSkipped offset name thunks error).isLimit = false := by
  refine ⟨?_, ?_, ?_⟩ <;> rfl

@[simp]
theorem about_thunkSkipped (module : String) (offset : Nat) (thunk : UInt64)
    (error : ImageError) :
    (thunkSkipped module offset thunk error).isDescriptorSkipped = false
      ∧ (thunkSkipped module offset thunk error).isAboutThunks = true
      ∧ (thunkSkipped module offset thunk error).isCutOff = false
      ∧ (thunkSkipped module offset thunk error).isLimit = false := by
  refine ⟨?_, ?_, ?_, ?_⟩ <;> rfl

@[simp]
theorem about_thunksCutOff (module : String) (offset : Nat)
    (error : ImageError) :
    (thunksCutOff module offset error).isDescriptorSkipped = false
      ∧ (thunksCutOff module offset error).isAboutThunks = true
      ∧ (thunksCutOff module offset error).isLimit = false := by
  refine ⟨?_, ?_, ?_⟩ <;> rfl

@[simp]
theorem about_importLimitReached (limit modules resolved : Nat) :
    (importLimitReached limit modules resolved).isDescriptorSkipped = false
      ∧ (importLimitReached limit modules resolved).isAboutThunks = false
      ∧ (importLimitReached limit modules resolved).isLimit = true := by
  refine ⟨?_, ?_, ?_⟩ <;> rfl

theorem reads_of_level_ne {level : Level} {e : Event} (h : e.level ≠ level)
    (message : String) : e.reads level message = false :=
  decide_eq_false fun h' => h h'.1

/-- Events about thunks are of interest to few. -/
theorem level_of_isAboutThunks {e : Event} (h : e.isAboutThunks = true) :
    e.level = .debug := by
  rcases Bool.or_eq_true_iff.1 h with h | h
  · exact (of_decide_eq_true h).1
  · exact (of_decide_eq_true h).1

/-- An event about thunks is about nothing else. -/
theorem about_of_isAboutThunks {e : Event} (h : e.isAboutThunks = true) :
    e.isDescriptorSkipped = false ∧ e.isLimit = false := by
  have hne : e.level ≠ .warn := by
    rw [level_of_isAboutThunks h]
    decide
  exact ⟨reads_of_level_ne hne _, reads_of_level_ne hne _⟩

/-- An event about thunks is about one thunk or about the end of the file. -/
theorem isThunkSkipped_eq_of_isAboutThunks {e : Event}
    (h : e.isAboutThunks = true) : e.isThunkSkipped = !e.isCutOff := by
  cases hcut : e.isCutOff with
  | false => rwa [isAboutThunks, hcut, Bool.or_false] at h
  | true =>
    have hmessage := (of_decide_eq_true hcut).2
    refine decide_eq_false fun h' => ?_
    rw [h'.2] at hmessage
    exact absurd hmessage (by decide)

/-- **The events about thunks are counted by what they say.** -/
theorem countP_isThunkSkipped_add (events : List Event) :
    events.countP (·.isThunkSkipped) + events.countP (·.isCutOff)
      = (events.filter (·.isAboutThunks)).length := by
  have hrestrict : ∀ p : Event → Bool, (∀ e, p e = true → e.isAboutThunks) →
      events.countP p = (events.filter (·.isAboutThunks)).countP p := by
    intro p hp
    rw [List.countP_filter]
    refine List.countP_congr fun e _ => ?_
    rw [Bool.and_eq_true]
    exact ⟨fun h => ⟨h, hp e h⟩, fun h => h.1⟩
  have hexclusive : (events.filter (·.isAboutThunks)).countP (·.isThunkSkipped)
      = (events.filter (·.isAboutThunks)).countP (fun e => !e.isCutOff) := by
    refine List.countP_congr fun e he => ?_
    rw [isThunkSkipped_eq_of_isAboutThunks (List.mem_filter.1 he).2]
  rw [hrestrict (·.isThunkSkipped) fun e h => Bool.or_eq_true_iff.2 (.inl h),
    hrestrict (·.isCutOff) fun e h => Bool.or_eq_true_iff.2 (.inr h),
    hexclusive, List.length_eq_countP_add_countP (·.isCutOff), Nat.add_comm]
  simp only [Bool.not_eq_true, Bool.decide_eq_false]

end Event

/-! ## One module -/

/-- **The events about the thunks of a module**: as many as it has imports that
could not be read, each with the name of the module. At most one of them says
that the table of thunks runs out of the file. -/
structure NoticesOf (m : ImportModule) (notices : List Event) : Prop where
  length : notices.length = m.skippedEntries
  aboutThunks : ∀ e ∈ notices, e.isAboutThunks = true
  cutOff_le : notices.countP (·.isCutOff) ≤ 1
  named : ∀ e ∈ notices, ("dll", FieldValue.text m.name) ∈ e.fields

namespace ImportSource

/-- The event of a thunk is that it was passed over. -/
theorem Resolution.event?_eq_some {module : String} {r : Resolution}
    {e : Event} (h : r.event? module = some e) :
    ∃ error, e = .thunkSkipped module r.offset r.thunk error := by
  unfold event? at h
  split at h
  · cases h
  · exact ⟨_, (Option.some.inj h).symm⟩

/-- Thunks that were passed over, and perhaps the end of the file behind them,
make up the events of a module. -/
theorem noticesOf_append {name : String} (entries : List ImportEntry)
    (resolutions : List Resolution) {atEnd : List Event}
    (hend : atEnd = []
      ∨ ∃ offset error, atEnd = [.thunksCutOff name offset error]) :
    NoticesOf ⟨name, entries,
        (resolutions.filterMap (·.event? name)).length + atEnd.length⟩
      (resolutions.filterMap (·.event? name) ++ atEnd) := by
  have hskipped : ∀ e ∈ resolutions.filterMap (·.event? name),
      ∃ offset thunk error, e = .thunkSkipped name offset thunk error := by
    intro e he
    obtain ⟨r, _, hr⟩ := List.mem_filterMap.1 he
    obtain ⟨error, rfl⟩ := Resolution.event?_eq_some hr
    exact ⟨_, _, _, rfl⟩
  have hatEnd : ∀ e ∈ atEnd, ∃ offset error,
      e = .thunksCutOff name offset error := by
    obtain rfl | ⟨offset, error, rfl⟩ := hend
    · nofun
    · exact fun e he => ⟨offset, error, List.mem_singleton.1 he⟩
  refine ⟨List.length_append, fun e he => ?_, ?_, fun e he => ?_⟩
  · rcases List.mem_append.1 he with h | h
    · obtain ⟨_, _, _, rfl⟩ := hskipped e h
      simp
    · obtain ⟨_, _, rfl⟩ := hatEnd e h
      simp
  · -- only the end of the file is told of in this way
    have hnone : (resolutions.filterMap (·.event? name)).countP
        (·.isCutOff) = 0 := by
      refine List.countP_eq_zero.2 fun e he => ?_
      obtain ⟨_, _, _, rfl⟩ := hskipped e he
      simp
    have hone : atEnd.length ≤ 1 := by
      obtain rfl | ⟨offset, error, rfl⟩ := hend
      · exact Nat.zero_le 1
      · exact Nat.le_refl 1
    rw [List.countP_append, hnone, Nat.zero_add]
    exact Nat.le_trans List.countP_le_length hone
  · rcases List.mem_append.1 he with h | h
    · obtain ⟨_, _, _, rfl⟩ := hskipped e h
      exact List.mem_cons_self
    · obtain ⟨_, _, rfl⟩ := hatEnd e h
      exact List.mem_cons_self

/-- **A module is contributed with the events about its thunks.** -/
theorem noticesOf_contribution (s : ImportSource) (budget : Nat) (l : Lead) :
    NoticesOf (s.contribution budget l).module
      (s.contribution budget l).events := by
  unfold contribution
  split
  · exact ⟨rfl, nofun, Nat.zero_le 1, nofun⟩
  · unfold moduleAt
    refine noticesOf_append _ _ ?_
    split
    · exact Or.inr ⟨_, _, rfl⟩
    · exact Or.inl rfl

/-! ## One descriptor -/

/-- **Events that tell of everything that was passed over** on the way to some
modules: each descriptor that was skipped, and the thunks of each module, in
the order of the modules. -/
structure Tells (modules : List ImportModule) (skippedModules : Nat)
    (events : List Event) : Prop where
  descriptors : events.countP (·.isDescriptorSkipped) = skippedModules
  thunks : ∃ notices : List (List Event),
    events.filter (·.isAboutThunks) = notices.flatten
      ∧ List.Forall₂ NoticesOf modules notices
  notLimit : ∀ e ∈ events, e.isLimit = false

namespace Tells

variable {modules : List ImportModule} {skippedModules : Nat}
  {events : List Event}

/-- Before the first descriptor there is nothing to tell. -/
theorem nil : Tells [] 0 [] := ⟨rfl, ⟨[], rfl, .nil⟩, nofun⟩

/-- A descriptor that leads nowhere is told of. -/
theorem passOver (h : Tells modules skippedModules events) (offset : Nat)
    (name thunks : UInt32) (error : ImageError) :
    Tells modules (skippedModules + 1)
      (events ++ [.descriptorSkipped offset name thunks error]) := by
  obtain ⟨notices, hfilter, hnotices⟩ := h.thunks
  refine ⟨?_, ⟨notices, ?_, hnotices⟩, fun e he => ?_⟩
  · rw [List.countP_append, h.descriptors]
    simp
  · rw [List.filter_append, hfilter]
    simp
  · rcases List.mem_append.1 he with hold | hnew
    · exact h.notLimit e hold
    · obtain rfl := List.mem_singleton.1 hnew
      simp

/-- A module comes with its notices. -/
theorem add (h : Tells modules skippedModules events) {m : ImportModule}
    {more : List Event} (hm : NoticesOf m more) :
    Tells (modules ++ [m]) skippedModules (events ++ more) := by
  obtain ⟨notices, hfilter, hnotices⟩ := h.thunks
  have hother := fun e he => Event.about_of_isAboutThunks (hm.aboutThunks e he)
  refine ⟨?_, ⟨notices ++ [more], ?_, ?_⟩, fun e he => ?_⟩
  · have hnone : more.countP (·.isDescriptorSkipped) = 0 :=
      List.countP_eq_zero.2 fun e he => by simp [(hother e he).1]
    rw [List.countP_append, h.descriptors, hnone, Nat.add_zero]
  · rw [List.filter_append, hfilter, List.filter_eq_self.2 hm.aboutThunks,
      List.flatten_append, List.flatten_singleton]
  · exact List.rel_append hnotices (.cons hm .nil)
  · rcases List.mem_append.1 he with hold | hnew
    · exact h.notLimit e hold
    · exact (hother e hnew).2

end Tells

/-- A walk that has told of everything that it has passed over. -/
def Progress.HasTold (p : Progress) : Prop :=
  Tells p.modules.toList p.skippedModules p.events.toList

variable {s : ImportSource} {p : Progress}

theorem Progress.hasTold_start (budget : Nat) : (start budget).HasTold :=
  Tells.nil

/-- **One descriptor further, everything has been told.** -/
theorem Progress.HasTold.advance (h : p.HasTold) (offset : Nat) :
    (s.advance p offset).HasTold := by
  obtain ⟨_, ha⟩ | ⟨_, e, _, _, ha⟩ | ⟨budget, l, _, _, ha⟩ :=
    advance_cases s p offset
  · rw [ha]
    exact h
  · rw [ha]
    unfold HasTold passOver
    rw [Array.toList_push]
    exact h.passOver offset _ _ e
  · rw [ha]
    unfold HasTold add
    rw [Array.toList_push, Array.toList_appendList]
    exact Tells.add h (noticesOf_contribution s budget l)

/-- **A whole walk has told of everything.** -/
theorem Progress.HasTold.foldl (h : p.HasTold) (offsets : List Nat) :
    (offsets.foldl s.advance p).HasTold := by
  induction offsets generalizing p with
  | nil => exact h
  | cons offset rest ih => exact ih (h.advance offset)

theorem hasTold_walked (s : ImportSource) (offset : Nat) :
    (s.walked offset).HasTold :=
  (Progress.hasTold_start _).foldl _

/-! ## The whole walk -/

/-- **Events that report a table**: they tell of each descriptor and each thunk
that the table counts as passed over, and of the limit just where the table is
limited. -/
structure Reported (limit : Nat) (t : ImportTable) (events : List Event) :
    Prop where
  descriptors : events.countP (·.isDescriptorSkipped) = t.skippedModules
  thunks : events.countP (·.isThunkSkipped) + events.countP (·.isCutOff)
    = t.skippedEntries
  /-- The events about thunks are those of the first module, then those of the
  second one, and so on. -/
  byModule : ∃ notices : List (List Event),
    events.filter (·.isAboutThunks) = notices.flatten
      ∧ List.Forall₂ NoticesOf t.modules notices
  limited : events.filter (·.isLimit)
    = if 0 < t.limitedModules then
        [.importLimitReached limit t.limitedModules t.count]
      else []

/-- The notices of all modules are as many as the entries that were skipped. -/
theorem length_flatten_notices {modules : List ImportModule}
    {notices : List (List Event)} (h : List.Forall₂ NoticesOf modules notices)
    (skipped limited : Nat) :
    notices.flatten.length
      = (ImportTable.mk modules skipped limited).skippedEntries := by
  unfold ImportTable.skippedEntries
  induction h with
  | nil => rfl
  | cons hm _ ih =>
    rw [List.flatten_cons, List.length_append, hm.length, ih, List.foldr_cons]

/-- **What has been told is a report**, with the limit told of at the end. -/
theorem Progress.HasTold.reported (h : p.HasTold) (limit : Nat) :
    Reported limit p.table (p.events.toList
      ++ if p.table.isLimited then
          [.importLimitReached limit p.table.limitedModules p.table.count]
        else []) := by
  have hlimited : p.table.isLimited = true ↔ 0 < p.table.limitedModules :=
    decide_eq_true_iff
  obtain ⟨notices, hfilter, hnotices⟩ := h.thunks
  have hnone : p.events.toList.filter (·.isLimit) = [] :=
    List.filter_eq_nil_iff.2 fun e he => by simp [h.notLimit e he]
  have habout : (p.events.toList ++ if p.table.isLimited then
          [Event.importLimitReached limit p.table.limitedModules p.table.count]
        else []).filter (·.isAboutThunks) = notices.flatten := by
    rw [List.filter_append, hfilter]
    split <;> simp
  refine ⟨?_, ?_, ⟨notices, habout, hnotices⟩, ?_⟩
  · rw [List.countP_append, h.descriptors]
    split <;> simp [Progress.table]
  · rw [Event.countP_isThunkSkipped_add, habout]
    exact length_flatten_notices hnotices _ _
  · rw [List.filter_append, hnone, List.nil_append]
    simp only [hlimited]
    split <;> simp

/-- **A walk that reports on itself**: a table comes with a report, and an
error with no word of the limit. -/
structure ReportsItself (limit : Nat)
    (walk : Traced (Except ImageError ImportTable)) : Prop where
  table : ∀ t, walk.value = .ok t → Reported limit t walk.events
  error : ∀ e, walk.value = .error e → walk.events.filter (·.isLimit) = []

theorem ReportsItself.of_ok {limit : Nat} {t : ImportTable}
    {events : List Event} (h : Reported limit t events) :
    ReportsItself limit ⟨.ok t, events⟩ := by
  refine ⟨fun t' ht => ?_, nofun⟩
  obtain rfl := Except.ok.inj ht
  exact h

theorem ReportsItself.of_error {limit : Nat} {events : List Event}
    (h : ∀ x ∈ events, x.isLimit = false) (e : ImageError) :
    ReportsItself limit ⟨.error e, events⟩ :=
  ⟨nofun, fun _ _ => List.filter_eq_nil_iff.2 fun x hx => by simp [h x hx]⟩

/-- What is at an offset comes with a report. -/
theorem reportsItself_tableAt (s : ImportSource) (offset : Nat) :
    ReportsItself s.limits.imports (s.tableAt offset) := by
  have h : ((s.descriptorOffsets offset).foldl s.advance
      (.start s.limits.imports)).HasTold := s.hasTold_walked offset
  unfold tableAt
  dsimp only
  cases (s.descriptorArray offset).ending with
  | terminator => exact .of_ok (h.reported s.limits.imports)
  | endOfFile => exact .of_error h.notLimit _

theorem reportsItself_walk (s : ImportSource) (directory : DataDirectory) :
    ReportsItself s.limits.imports (s.walk directory) := by
  unfold walk
  split
  · split
    · exact reportsItself_tableAt s _
    · show ReportsItself _ ⟨.error _, []⟩
      exact .of_error (List.forall_mem_nil _) _
  · exact .of_ok ⟨rfl, rfl, ⟨[], rfl, .nil⟩, rfl⟩

/-- **No skip is silent.** Whenever a walk finds a table, there is an event for
each descriptor that the table counts as passed over, and one for each import:
either its thunk was passed over, or a table of thunks came to the end of the
file, which it does once for a module at most. Where the table is limited there
is exactly one event that says so, with the number of limited modules and of
the imports that were found; where it is not, there is none, and neither is
there when the walk fails. All this is true of the walk in words as well, on
any data that a machine can hold. -/
theorem walk_reportsItself (directory : DataDirectory) :
    (∀ s : ImportSource,
      ReportsItself s.limits.imports (s.walk directory))
    ∧ ∀ s : FixedWidth.Source, s.data.size < 2 ^ 63 →
      ReportsItself s.limits.imports.toNat (s.walk directory).value := by
  refine ⟨fun s => s.reportsItself_walk directory, fun s hd => ?_⟩
  rw [(FixedWidth.Source.exact_walk hd directory).value]
  exact s.unbounded.reportsItself_walk directory

/-- A budget of seven ends behind the first thunk of the third descriptor of
the sample. By then one thunk and one descriptor have been passed over. -/
theorem walk_reportsItself_sample :
    let walk := (sample.withBudget 7).walk sampleDirectory
    walk.value = .ok ⟨[⟨"ntoskrnl.exe",
        [.byName 0 "MmMapIoSpace", .byOrdinal 7], 1⟩,
        ⟨"ntoskrnl.exe", [.byName 0 "MmMapIoSpace"], 0⟩], 1, 1⟩
      ∧ walk.events.countP (·.isDescriptorSkipped) = 1
      ∧ walk.events.countP (·.isThunkSkipped)
        + walk.events.countP (·.isCutOff) = 1
      ∧ walk.events.filter (·.isLimit) = [.importLimitReached 7 1 3] := by
  intro walk
  have hwalk : walk.value = .ok ⟨[⟨"ntoskrnl.exe",
        [.byName 0 "MmMapIoSpace", .byOrdinal 7], 1⟩,
        ⟨"ntoskrnl.exe", [.byName 0 "MmMapIoSpace"], 0⟩], 1, 1⟩ :=
    (walk_sample_withBudget 7).trans (congrArg Except.ok (by decide))
  have h := ((walk_reportsItself sampleDirectory).1
    (sample.withBudget 7)).table _ hwalk
  exact ⟨hwalk, h.descriptors, h.thunks, h.limited⟩

end ImportSource

end DriverAudit
