import DriverAudit.Proofs.Imports.Loops

/-!
# The walk as a machine

The walk measures an array before it goes through its records, so nobody needs
to ask whether it comes to an end. A program that reads one record after the
other until it meets a zero does not know how many there are. Here is that
program as a machine (`round`), which reads one record in each round: of the
descriptors, or of the thunks of one of them. Nothing in it counts rounds.

Two things are shown of it. A round that goes on has read a record inside the
file, and its next place is behind that record (`goesOn_of_round`). And the
machine comes to the walk: from the first thunk of a module it leads back to
the descriptors with what the module contributes (`leads_thunk`), and so from
the directory to the table and the events of the walk (`stops_directory`).
-/

namespace DriverAudit

/-! ## Machines -/

/-- **What a round of a machine comes to**: a state to go on from, or a
result. -/
inductive Round (σ α : Type) where
  | next (x : σ)
  | stop (result : α)

namespace Round

variable {σ α : Type} {step : σ → Round σ α}

/-- **Rounds that lead from one state to another**, as many as `n`. -/
inductive Leads (step : σ → Round σ α) : (n : Nat) → σ → σ → Prop
  | refl (x : σ) : Leads step 0 x x
  | next {n : Nat} {x y z : σ} (h : step x = .next y)
      (rest : Leads step n y z) : Leads step (n + 1) x z

/-- **Rounds that end with a result**, as many as `n`. -/
inductive Stops (step : σ → Round σ α) : (n : Nat) → σ → α → Prop
  | stop {x : σ} {a : α} (h : step x = .stop a) : Stops step 1 x a
  | next {n : Nat} {x y : σ} {a : α} (h : step x = .next y)
      (rest : Stops step n y a) : Stops step (n + 1) x a

/-- Rounds that lead to rounds that end. -/
theorem Leads.stops {n k : Nat} {x y : σ} {a : α} (h : Leads step n x y)
    (hy : Stops step k y a) : Stops step (n + k) x a := by
  induction h with
  | refl x => rwa [Nat.zero_add]
  | next h _ ih =>
    rw [Nat.add_right_comm]
    exact .next h (ih hy)

end Round

/-- A module with the rest of its thunks behind those it has. -/
def ImportModule.followedBy (m rest : ImportModule) : ImportModule where
  name := m.name
  entries := m.entries ++ rest.entries
  skippedEntries := m.skippedEntries + rest.skippedEntries

namespace ImportSource

/-! ## The machine of a walk -/

/-- **Where a walk has come to.** -/
inductive State where
  /-- In front of the directory. -/
  | directory (x : DataDirectory)
  /-- In front of the descriptor at an offset. -/
  | descriptor (offset : Nat) (p : Progress)
  /-- In front of the thunk at an offset, with what is known of its module. The
  descriptor behind that of the module is at `next`. -/
  | thunk (next offset : Nat) (m : ImportModule) (p : Progress)

/-- A module to which no more is added. -/
def Progress.close (p : Progress) (m : ImportModule) (limited : Bool) :
    Progress :=
  { p with
    modules := p.modules.push m
    limitedModules := p.limitedModules + if limited then 1 else 0 }

/-- A module with what became of one more thunk. -/
def Resolution.addTo (r : Resolution) (m : ImportModule) : ImportModule :=
  match r.result with
  | .ok e => { m with entries := m.entries ++ [e] }
  | .error _ => { m with skippedEntries := m.skippedEntries + 1 }

@[simp]
theorem Resolution.name_addTo (r : Resolution) (m : ImportModule) :
    (r.addTo m).name = m.name := by
  unfold addTo
  split <;> rfl

/-- What is known behind a thunk that was paid for. -/
def Progress.pay (p : Progress) (budget : Nat) (e : Option Event) : Progress :=
  { p with budget, events := p.events ++ e.toList }

/-- **A round at the directory.** -/
def enter (s : ImportSource) (directory : DataDirectory) :
    Round State (Traced (Except ImageError ImportTable)) :=
  if directory.isPresent then
    match s.sections.fileOffset directory.address with
    | .ok offset => .next (.descriptor offset (.start s.limits.imports))
    | .error _ => .stop (pure (.error
        (.importDirectoryUnmapped directory.address)))
  else .stop (pure (.ok .empty))

/-- **A round at a descriptor.** -/
def passDescriptor (s : ImportSource) (offset : Nat) (p : Progress) :
    Round State (Traced (Except ImageError ImportTable)) :=
  if Inside s.data offset Descriptor.byteSize then
    let x := Descriptor.atOffset s.data offset
    let next := offset + Descriptor.byteSize
    if x.isSentinel then .stop (s.conclude (.ok (), p))
    else
      match p.budget with
      | 0 => .next (.descriptor next
          { p with limitedModules := p.limitedModules + 1 })
      | budget + 1 =>
        match s.lead x with
        | .error e => .next (.descriptor next (p.passOver budget
            (.descriptorSkipped offset x.moduleName x.thunkAddress e)))
        | .ok ⟨name, none⟩ => .next (.descriptor next
            ({ p with budget }.close ⟨name, [], 0⟩ false))
        | .ok ⟨name, some start⟩ => .next (.thunk next start ⟨name, [], 0⟩
            { p with budget })
  else .stop (s.conclude (.error (.importTableTruncated offset), p))

/-- **A round at a thunk.** It never ends the walk. -/
def passThunk (s : ImportSource) (next offset : Nat) (m : ImportModule)
    (p : Progress) : State :=
  if Inside s.data offset s.architecture.thunkWidth then
    if s.thunkAt offset = 0 then .descriptor next (p.close m false)
    else
      match p.budget with
      | 0 => .descriptor next (p.close m true)
      | budget + 1 =>
        let r := s.resolutionAt offset
        .thunk next (offset + s.architecture.thunkWidth) (r.addTo m)
          (p.pay budget (r.event? m.name))
  else
    .descriptor next
      (Progress.close
        { p with events :=
            p.events.push (.thunksCutOff m.name offset (s.thunkError offset)) }
        { m with skippedEntries := m.skippedEntries + 1 } false)

/-- **One round of a walk.** -/
def round (s : ImportSource) :
    State → Round State (Traced (Except ImageError ImportTable))
  | .directory x => s.enter x
  | .descriptor offset p => s.passDescriptor offset p
  | .thunk next offset m p => .next (s.passThunk next offset m p)

variable {s : ImportSource} {p : Progress} {m : ImportModule}

/-! ## Where a round goes on -/

/-- **From one place of a walk to the next.** A record that is passed is inside
the file, and the next place is behind it. Only the first thunk of a module may
be anywhere. -/
inductive GoesOn (s : ImportSource) : State → State → Prop
  | directory {x : DataDirectory} {offset : Nat} {p : Progress} :
      GoesOn s (.directory x) (.descriptor offset p)
  | descriptor {offset : Nat} {p p' : Progress}
      (hin : Inside s.data offset Descriptor.byteSize) :
      GoesOn s (.descriptor offset p)
        (.descriptor (offset + Descriptor.byteSize) p')
  | firstThunk {offset first : Nat} {p p' : Progress} {m : ImportModule}
      (hin : Inside s.data offset Descriptor.byteSize) :
      GoesOn s (.descriptor offset p)
        (.thunk (offset + Descriptor.byteSize) first m p')
  | thunk {next offset : Nat} {m m' : ImportModule} {p p' : Progress}
      (hin : Inside s.data offset s.architecture.thunkWidth) :
      GoesOn s (.thunk next offset m p)
        (.thunk next (offset + s.architecture.thunkWidth) m' p')
  | lastThunk {next offset : Nat} {m : ImportModule} {p p' : Progress} :
      GoesOn s (.thunk next offset m p) (.descriptor next p')

/-- **What a round that goes on has passed.** -/
theorem goesOn_of_round {x y : State} (h : s.round x = .next y) :
    s.GoesOn x y := by
  cases x with
  | directory x =>
    simp only [round, enter] at h
    split at h
    · split at h
      · cases h
        exact .directory
      · cases h
    · cases h
  | descriptor offset p =>
    simp only [round, passDescriptor] at h
    split at h
    case isFalse => cases h
    case isTrue hin =>
      split at h
      · cases h
      split at h
      · cases h
        exact .descriptor hin
      split at h
      · cases h
        exact .descriptor hin
      · cases h
        exact .descriptor hin
      · cases h
        exact .firstThunk hin
  | thunk next offset m p =>
    simp only [round, Round.next.injEq] at h
    subst h
    unfold passThunk
    split
    case isFalse => exact .lastThunk
    case isTrue hin =>
      split
      · exact .lastThunk
      split
      · exact .lastThunk
      · exact .thunk hin

/-! ## The loop over thunks -/

/-- A walk with what the rest of the thunks of a module contributes. -/
def Progress.addBehind (p : Progress) (m : ImportModule) (c : Contribution) :
    Progress where
  budget := p.budget - c.spent
  modules := p.modules.push (m.followedBy c.module)
  skippedModules := p.skippedModules
  limitedModules := p.limitedModules + if c.limited then 1 else 0
  events := p.events ++ c.events

/-- Without more thunks there is nothing behind a module. -/
theorem Progress.addBehind_nothing (p : Progress) (m : ImportModule)
    (name : String) (limited : Bool) :
    p.addBehind m ⟨⟨name, [], 0⟩, limited, 0, []⟩ = p.close m limited := by
  simp [addBehind, close, ImportModule.followedBy]

/-- The end of the file is passed over like a thunk. -/
theorem Progress.addBehind_cutOff (p : Progress) (m : ImportModule)
    (name : String) (e : Event) :
    p.addBehind m ⟨⟨name, [], 1⟩, false, 0, [e]⟩
      = Progress.close { p with events := p.events.push e }
          { m with skippedEntries := m.skippedEntries + 1 } false := by
  simp [addBehind, close, ImportModule.followedBy]

/-- **A thunk is added to what is before it or to what is behind it**, which
comes to the same. -/
theorem Progress.addBehind_behind {budget : Nat} (hp : p.budget = budget + 1)
    (m : ImportModule) (r : Resolution) {c : Contribution}
    (hname : c.module.name = m.name) :
    p.addBehind m (c.behind r)
      = (p.pay budget (r.event? m.name)).addBehind (r.addTo m) c := by
  obtain ⟨offset, thunk, result⟩ := r
  unfold addBehind Contribution.behind pay Resolution.addTo
    Resolution.event? Resolution.found? ImportModule.followedBy
  rw [hname, hp]
  cases result with
  | ok e => simp [Except.toOption]
  | error e => simp [Except.toOption, Nat.add_assoc]

/-- **The rounds over the thunks of a module** lead to the descriptor behind,
with what the module contributes. There is a round for each thunk that is paid
for, and one for what ends them. -/
theorem leads_thunk (s : ImportSource) (next offset : Nat) (m : ImportModule)
    (p : Progress) :
    Round.Leads s.round (min p.budget (s.thunkArray offset).count + 1)
      (.thunk next offset m p)
      (.descriptor next
        (p.addBehind m (s.moduleAt p.budget m.name offset))) := by
  have hround : s.round (.thunk next offset m p)
      = .next (s.passThunk next offset m p) := rfl
  by_cases hin : Inside s.data offset s.architecture.thunkWidth
  case neg =>
    rw [passThunk, if_neg hin] at hround
    have harray : s.thunkArray offset = ⟨0, .endOfFile⟩ :=
      RecordArray.measure_of_outside hin
    rw [moduleAt_of_outside hin, Progress.addBehind_cutOff, harray,
      Nat.min_zero]
    exact .next hround (.refl _)
  rw [passThunk, if_pos hin] at hround
  by_cases hzero : s.thunkAt offset = 0
  case pos =>
    rw [if_pos hzero] at hround
    rw [moduleAt_of_zero hin hzero, Progress.addBehind_nothing,
      thunkArray_of_zero hin hzero, Nat.min_zero]
    exact .next hround (.refl _)
  rw [if_neg hzero] at hround
  cases hp : p.budget with
  | zero =>
    rw [hp] at hround
    rw [moduleAt_of_spent hin hzero, Progress.addBehind_nothing, Nat.zero_min]
    exact .next hround (.refl _)
  | succ budget =>
    -- the thunk is paid for, and what is left of the file is shorter
    rw [hp] at hround
    have hcloser : s.data.size - (offset + s.architecture.thunkWidth)
        < s.data.size - offset := by
      have hpos := s.architecture.thunkWidth_pos
      unfold Inside at hin
      omega
    have hrest := leads_thunk s next (offset + s.architecture.thunkWidth)
      ((s.resolutionAt offset).addTo m)
      (p.pay budget ((s.resolutionAt offset).event? m.name))
    rw [Resolution.name_addTo] at hrest
    rw [moduleAt_of_ne_zero hin hzero, Progress.addBehind_behind hp m _ rfl,
      thunkArray_of_ne_zero hin hzero, Nat.succ_min_succ]
    exact .next hround hrest
termination_by s.data.size - offset

/-! ## The loop over descriptors -/

/-- A module of which nothing is known yet becomes what its thunks
contribute. -/
theorem addBehind_moduleAt (s : ImportSource) (p : Progress) (budget : Nat)
    (name : String) (offset : Nat) :
    Progress.addBehind { p with budget } ⟨name, [], 0⟩
        (s.moduleAt budget name offset)
      = p.add budget (s.moduleAt budget name offset) := by
  have hmodule : ImportModule.followedBy ⟨name, [], 0⟩
        (s.moduleAt budget name offset).module
      = (s.moduleAt budget name offset).module :=
    ImportModule.ext rfl (List.nil_append _) (Nat.zero_add _)
  unfold Progress.addBehind Progress.add
  rw [hmodule]

/-- The most rounds that a descriptor may take: one of its own, one for each
thunk that the file has room for, and one for what ends them. -/
def roundsPerDescriptor (s : ImportSource) : Nat :=
  s.data.size / s.architecture.thunkWidth + 2

/-- **The rounds at a descriptor that is followed** lead to the next one, with
the walk one descriptor further. -/
theorem leads_descriptor {offset : Nat} (p : Progress)
    (hin : Inside s.data offset Descriptor.byteSize)
    (hsentinel : ¬ (Descriptor.atOffset s.data offset).isSentinel = true) :
    ∃ n ≤ s.roundsPerDescriptor,
      Round.Leads s.round n (.descriptor offset p)
        (.descriptor (offset + Descriptor.byteSize) (s.advance p offset)) := by
  have hround : s.round (.descriptor offset p) = s.passDescriptor offset p :=
    rfl
  have hone : 1 ≤ s.roundsPerDescriptor := Nat.le_add_left 1 _
  rw [passDescriptor, if_pos hin, if_neg hsentinel] at hround
  obtain ⟨hp, ha⟩ | ⟨budget, e, hp, hl, ha⟩ | ⟨budget, l, hp, hl, ha⟩ :=
    advance_cases s p offset
  · rw [hp] at hround
    rw [ha, hp]
    exact ⟨1, hone, .next hround (.refl _)⟩
  · unfold leadAt at hl
    rw [hp, hl] at hround
    rw [ha]
    exact ⟨1, hone, .next hround (.refl _)⟩
  · unfold leadAt at hl
    rw [hp, hl] at hround
    rw [ha]
    obtain ⟨name, table⟩ := l
    cases table with
    | none =>
      have hnothing : p.add budget (s.contribution budget ⟨name, none⟩)
          = Progress.close { p with budget } ⟨name, [], 0⟩ false := by
        simp [contribution, Progress.add, Progress.close]
      rw [hnothing]
      exact ⟨1, hone, .next hround (.refl _)⟩
    | some first =>
      have hthunks := leads_thunk s (offset + Descriptor.byteSize) first
        ⟨name, [], 0⟩ { p with budget }
      rw [addBehind_moduleAt] at hthunks
      refine ⟨_, ?_, .next hround hthunks⟩
      have hcount : (s.thunkArray first).count
          ≤ s.data.size / s.architecture.thunkWidth :=
        RecordArray.count_measure_le s.architecture.thunkWidth_pos
      unfold roundsPerDescriptor
      omega

/-- **The rounds from a descriptor on** end with what the loop comes to. -/
theorem stops_descriptor (s : ImportSource) (offset : Nat) (p : Progress) :
    ∃ n ≤ (s.descriptorArray offset).count * s.roundsPerDescriptor + 1,
      Round.Stops s.round n (.descriptor offset p)
        (s.conclude (s.runFrom offset p)) := by
  have hround : s.round (.descriptor offset p) = s.passDescriptor offset p :=
    rfl
  by_cases hin : Inside s.data offset Descriptor.byteSize
  case neg =>
    rw [passDescriptor, if_neg hin] at hround
    rw [runFrom_of_outside hin]
    exact ⟨1, Nat.le_add_left 1 _, .stop hround⟩
  by_cases hsentinel :
    (Descriptor.atOffset s.data offset).isSentinel = true
  case pos =>
    rw [passDescriptor, if_pos hin, if_pos hsentinel] at hround
    rw [runFrom_of_isSentinel hin hsentinel]
    exact ⟨1, Nat.le_add_left 1 _, .stop hround⟩
  -- the descriptor is followed, and what is left of the file is shorter
  have hcloser : s.data.size - (offset + Descriptor.byteSize)
      < s.data.size - offset := by
    have hpos : 0 < Descriptor.byteSize := by decide
    unfold Inside at hin
    omega
  obtain ⟨n, hn, hleads⟩ := leads_descriptor p hin hsentinel
  obtain ⟨k, hk, hstops⟩ := stops_descriptor s
    (offset + Descriptor.byteSize) (s.advance p offset)
  have harray : (s.descriptorArray offset).count
      = (s.descriptorArray (offset + Descriptor.byteSize)).count + 1 :=
    congrArg RecordArray.count (RecordArray.measure_of_not_isZero (by decide)
      hin (mt isSentinel_atOffset_iff.2 hsentinel))
  rw [runFrom_of_not_isSentinel hin hsentinel, harray, Nat.succ_mul]
  exact ⟨n + k, by omega, hleads.stops hstops⟩
termination_by s.data.size - offset

/-- **The rounds of a walk** end with the walk. -/
theorem stops_directory (s : ImportSource) (directory : DataDirectory) :
    ∃ n ≤ s.data.size / Descriptor.byteSize * s.roundsPerDescriptor + 2,
      Round.Stops s.round n (.directory directory) (s.walk directory) := by
  have hround : s.round (.directory directory) = s.enter directory := rfl
  unfold enter at hround
  unfold walk
  by_cases hpresent : directory.isPresent = true
  case neg =>
    rw [if_neg hpresent] at hround ⊢
    exact ⟨1, Nat.le_add_left 1 _, .stop hround⟩
  rw [if_pos hpresent] at hround ⊢
  cases hmapped : s.sections.fileOffset directory.address with
  | error e =>
    rw [hmapped] at hround
    exact ⟨1, Nat.le_add_left 1 _, .stop hround⟩
  | ok offset =>
    rw [hmapped] at hround
    obtain ⟨n, hn, hstops⟩ := stops_descriptor s offset
      (.start s.limits.imports)
    have hcount : (s.descriptorArray offset).count
        ≤ s.data.size / Descriptor.byteSize :=
      RecordArray.count_measure_le (by decide)
    have hmore := Nat.mul_le_mul_right s.roundsPerDescriptor hcount
    dsimp only
    rw [tableAt_eq_runFrom]
    exact ⟨n + 1, by omega, .next hround hstops⟩

end ImportSource

end DriverAudit
