import DriverAudit.Files.Store

/-!
# Where paths lead when a file has been written

A way through a store depends on its directories and links, and on the contents
of no file. Writing a file changes the contents of one file, or it makes one
and puts one name into one directory (`Changes`). So ways go on as before: what
a path led to it leads to still, and a path that led to nothing leads to
nothing still, or to the new file (`Persists`).

A way for writing is a way for reading that asks more of its last piece.
-/

namespace DriverAudit.FileStore

/-! ## What writing changes -/

/-- **What writing a file changes.** Either the file was there and has other
contents now, or its number is new, and a directory gives it a name that it gave
to nothing before. No other file, directory or link is different. -/
inductive Changes (before : FileStore) (id : NodeId) (contents : ByteArray)
    (after : FileStore) : Prop where
  | replaced (access : Access) (old : ByteArray)
      (hbefore : before.nodeAt? id = some (.file access old))
      (hafter : after.nodeAt? id = some (.file access contents))
      (frame : ∀ other, other ≠ id →
        after.nodeAt? other = before.nodeAt? other)
  | made (access : Access) (directory parent : NodeId) (name : String)
      (entering : Access) (names : List (String × NodeId))
      (hbefore : before.nodeAt? id = none)
      (hafter : after.nodeAt? id = some (.file access contents))
      (hdirectory : before.nodeAt? directory
        = some (.directory entering parent names))
      (hvacant : before.lookUp names name = .vacant)
      (hnamed : after.nodeAt? directory
        = some (.directory entering parent ((name, id) :: names)))
      (frame : ∀ other, other ≠ id → other ≠ directory →
        after.nodeAt? other = before.nodeAt? other)

variable {before after : FileStore} {id : NodeId} {contents : ByteArray}

/-- The file is there afterwards, with the contents that were written. -/
theorem Changes.exists_nodeAt?_eq (h : Changes before id contents after) :
    ∃ access, after.nodeAt? id = some (.file access contents) := by
  cases h with
  | replaced access _ _ hafter => exact ⟨access, hafter⟩
  | made access _ _ _ _ _ _ hafter => exact ⟨access, hafter⟩

/-- Before, there was a file or nothing. -/
theorem Changes.nodeAt?_before (h : Changes before id contents after) :
    before.nodeAt? id = none
      ∨ ∃ access old, before.nodeAt? id = some (.file access old) := by
  cases h with
  | replaced access old hbefore => exact Or.inr ⟨access, old, hbefore⟩
  | made _ _ _ _ _ _ hbefore => exact Or.inl hbefore

/-- **Everything but the file is what it was**, except that a directory may have
a name for the file. -/
theorem Changes.nodeAt?_of_ne (h : Changes before id contents after)
    {other : NodeId} (hne : other ≠ id) :
    after.nodeAt? other = before.nodeAt? other
      ∨ ∃ access parent names name,
        before.nodeAt? other = some (.directory access parent names)
        ∧ before.lookUp names name = .vacant
        ∧ after.nodeAt? other
          = some (.directory access parent ((name, id) :: names)) := by
  cases h with
  | replaced _ _ _ _ frame => exact Or.inl (frame other hne)
  | made _ directory parent name entering names _ _ hdirectory hvacant hnamed
      frame =>
    by_cases hother : other = directory
    · subst hother
      exact Or.inr ⟨entering, parent, names, name, hdirectory, hvacant, hnamed⟩
    · exact Or.inl (frame other hne hother)

/-! ## One piece -/

/-- What has become of a step: it leads where it led, or it led to nothing and
leads to the file. -/
def StepPersists (id : NodeId) (b a : Step) : Prop :=
  a = b ∨ b = .vacant ∧ a = .to id

/-- A name leads where it led, or to the file. -/
theorem Changes.lookUp (h : Changes before id contents after)
    (names : List (String × NodeId)) (name : String) :
    StepPersists id (before.lookUp names name) (after.lookUp names name) := by
  unfold FileStore.lookUp
  cases names.lookup name with
  | none => exact Or.inl rfl
  | some found =>
    dsimp only
    by_cases hfound : found = id
    · obtain ⟨access, hafter⟩ := h.exists_nodeAt?_eq
      rw [hfound, hafter]
      obtain hnone | ⟨_, _, hfile⟩ := h.nodeAt?_before
      · rw [hnone]
        exact Or.inr ⟨rfl, rfl⟩
      · rw [hfile]
        exact Or.inl rfl
    · obtain hsame | ⟨_, _, _, _, hbefore, _, hafter⟩ := h.nodeAt?_of_ne hfound
      · rw [hsame]
        exact Or.inl rfl
      · rw [hbefore, hafter]
        exact Or.inl rfl

/-- So it does in a directory that has a name for the file now. -/
theorem Changes.lookUp_cons (h : Changes before id contents after)
    {names : List (String × NodeId)} {new : String}
    (hvacant : before.lookUp names new = .vacant) (name : String) :
    StepPersists id (before.lookUp names name)
      (after.lookUp ((new, id) :: names) name) := by
  by_cases hname : name = new
  · subst hname
    obtain ⟨access, hafter⟩ := h.exists_nodeAt?_eq
    refine Or.inr ⟨hvacant, ?_⟩
    unfold FileStore.lookUp
    rw [List.lookup_cons_self]
    dsimp only
    rw [hafter]
  · have hskip : after.lookUp ((new, id) :: names) name
        = after.lookUp names name := by
      unfold FileStore.lookUp
      rw [List.lookup_cons, beq_eq_false_iff_ne.2 hname]
    rw [hskip]
    exact h.lookUp names name

/-- There is no directory of some number. -/
def NoDirectory (s : FileStore) (here : NodeId) : Prop :=
  ∀ access parent names,
    s.nodeAt? here ≠ some (.directory access parent names)

theorem noDirectory_or_exists (s : FileStore) (here : NodeId) :
    s.NoDirectory here ∨ ∃ access parent names,
      s.nodeAt? here = some (.directory access parent names) := by
  by_cases hdirectory : ∃ access parent names,
      s.nodeAt? here = some (.directory access parent names)
  · exact Or.inr hdirectory
  · exact Or.inl fun access parent names hnode =>
      hdirectory ⟨access, parent, names, hnode⟩

/-- The file that was written is no directory, and was none. -/
theorem Changes.noDirectory (h : Changes before id contents after) :
    before.NoDirectory id ∧ after.NoDirectory id := by
  obtain ⟨_, hafter⟩ := h.exists_nodeAt?_eq
  refine ⟨fun access parent names hdirectory => ?_,
    fun access parent names hdirectory => ?_⟩
  · obtain hnone | ⟨_, _, hfile⟩ := h.nodeAt?_before
    · cases hnone.symm.trans hdirectory
    · cases hfile.symm.trans hdirectory
  · cases hafter.symm.trans hdirectory

/-- **A directory stays one**, with the names that it gave; and nothing else
becomes one. -/
theorem Changes.directory_cases (h : Changes before id contents after)
    (here : NodeId) :
    before.NoDirectory here ∧ after.NoDirectory here
    ∨ ∃ access parent names names',
      before.nodeAt? here = some (.directory access parent names)
      ∧ after.nodeAt? here = some (.directory access parent names')
      ∧ ∀ name, StepPersists id (before.lookUp names name)
        (after.lookUp names' name) := by
  by_cases hhere : here = id
  · exact Or.inl (hhere ▸ h.noDirectory)
  · obtain hsame | ⟨access, parent, names, new, hbefore, hvacant, hafter⟩ :=
      h.nodeAt?_of_ne hhere
    · obtain hno | ⟨access, parent, names, hbefore⟩ :=
        before.noDirectory_or_exists here
      · refine Or.inl ⟨hno, ?_⟩
        unfold NoDirectory
        rwa [hsame]
      · exact Or.inr ⟨access, parent, names, names, hbefore,
          hsame.trans hbefore, h.lookUp names⟩
    · exact Or.inr ⟨access, parent, names, _, hbefore, hafter,
        h.lookUp_cons hvacant⟩

section Steps

variable {s : FileStore} {purpose : Purpose} {here : NodeId} {piece : String}
  {rest : List String}

/-- From what is no directory no step can be made. -/
theorem exists_step_eq_error (h : s.NoDirectory here) (purpose : Purpose)
    (piece : String) (rest : List String) :
    ∃ cause, s.step purpose here piece rest = .error cause := by
  unfold step
  split
  · exact ⟨_, rfl⟩
  · exact ⟨_, rfl⟩
  · exact ⟨_, rfl⟩
  case h_4 hdirectory => exact absurd hdirectory (h _ _ _)

/-- **What a piece comes to in a directory** does not depend on the store,
unless the piece is looked up among the names. -/
theorem step_cases (access : Access) (parent here : NodeId) (purpose : Purpose)
    (piece : String) (rest : List String) :
    (∃ answer, answer ≠ .ok .vacant ∧ ∀ (s : FileStore) names,
      s.nodeAt? here = some (.directory access parent names) →
        s.step purpose here piece rest = answer)
    ∨ ∀ (s : FileStore) names,
      s.nodeAt? here = some (.directory access parent names) →
        s.step purpose here piece rest = .ok (s.lookUp names piece) := by
  by_cases hempty : piece = ""
  · refine Or.inl ⟨.ok (.to here), nofun, fun s names h => ?_⟩
    simp only [step, h, if_pos hempty]
  cases hentering : access.entering? with
  | some cause =>
    refine Or.inl ⟨.error cause, nofun, fun s names h => ?_⟩
    simp only [step, h, if_neg hempty, hentering]
  | none =>
    by_cases hrefuses : purpose.refuses piece rest
    · refine Or.inl ⟨.error .isADirectory, nofun, fun s names h => ?_⟩
      simp only [step, h, if_neg hempty, hentering, if_pos hrefuses]
    by_cases hdot : piece = "."
    · refine Or.inl ⟨.ok (.to here), nofun, fun s names h => ?_⟩
      simp only [step, h, if_neg hempty, hentering, if_neg hrefuses,
        if_pos hdot]
    by_cases hup : piece = ".."
    · refine Or.inl ⟨.ok (.to parent), nofun, fun s names h => ?_⟩
      simp only [step, h, if_neg hempty, hentering, if_neg hrefuses,
        if_neg hdot, if_pos hup]
    by_cases hlong : maxNameBytes < piece.utf8ByteSize
    · refine Or.inl ⟨.error .nameTooLong, nofun, fun s names h => ?_⟩
      simp only [step, h, if_neg hempty, hentering, if_neg hrefuses,
        if_neg hdot, if_neg hup, if_pos hlong]
    · refine Or.inr fun s names h => ?_
      simp only [step, h, if_neg hempty, hentering, if_neg hrefuses,
        if_neg hdot, if_neg hup, if_neg hlong]

/-- **The same step in another store** leads where it led, or to the file; and a
step that could not be made still cannot. -/
theorem Changes.step (h : Changes before id contents after) (purpose : Purpose)
    (here : NodeId) (piece : String) (rest : List String) :
    ((∃ cause, before.step purpose here piece rest = .error cause)
      ∧ ∃ cause, after.step purpose here piece rest = .error cause)
    ∨ ∃ b a, before.step purpose here piece rest = .ok b
      ∧ after.step purpose here piece rest = .ok a ∧ StepPersists id b a := by
  obtain ⟨hbefore, hafter⟩
    | ⟨access, parent, names, names', hbefore, hafter, hlook⟩ :=
    h.directory_cases here
  · exact Or.inl ⟨exists_step_eq_error hbefore purpose piece rest,
      exists_step_eq_error hafter purpose piece rest⟩
  · obtain ⟨answer, -, hsame⟩ | hlooked :=
      step_cases access parent here purpose piece rest
    · rw [hsame before names hbefore, hsame after names' hafter]
      cases answer with
      | error cause => exact Or.inl ⟨⟨cause, rfl⟩, cause, rfl⟩
      | ok next => exact Or.inr ⟨next, next, rfl, rfl, Or.inl rfl⟩
    · exact Or.inr ⟨_, _, hlooked before names hbefore,
        hlooked after names' hafter, hlook piece⟩

/-- A step for writing is one for reading. -/
theorem step_reading_of_writing {next : Step}
    (h : s.step .writing here piece rest = .ok next) :
    s.step .reading here piece rest = .ok next := by
  unfold step at h ⊢
  split at h
  · cases h
  · cases h
  · cases h
  · split at h
    case isTrue hempty => rwa [if_pos hempty]
    case isFalse hempty =>
      rw [if_neg hempty]
      split at h
      · cases h
      · split at h
        · cases h
        · exact h

/-- A step that leads to nothing is made in a directory without the name. -/
theorem step_eq_vacant (h : s.step purpose here piece rest = .ok .vacant) :
    ∃ access parent names,
      s.nodeAt? here = some (.directory access parent names)
      ∧ s.lookUp names piece = .vacant := by
  obtain hno | ⟨access, parent, names, hnode⟩ := s.noDirectory_or_exists here
  · obtain ⟨cause, herror⟩ := exists_step_eq_error hno purpose piece rest
    cases herror.symm.trans h
  · refine ⟨access, parent, names, hnode, ?_⟩
    obtain ⟨answer, hvacant, hsame⟩ | hlooked :=
      step_cases access parent here purpose piece rest
    · exact absurd ((hsame s names hnode).symm.trans h) hvacant
    · exact Except.ok.inj ((hlooked s names hnode).symm.trans h)

end Steps

/-! ## Whole ways -/

/-- **What has become of a way.** -/
inductive Persists (id : NodeId) :
    Except FileError Destination → Except FileError Destination → Prop where
  | node (found : NodeId) : Persists id (.ok (.node found)) (.ok (.node found))
  | vacant (directory : NodeId) (name : String) :
    Persists id (.ok (.vacant directory name)) (.ok (.vacant directory name))
  /-- The way led to nothing and leads to the file now. -/
  | made (directory : NodeId) (name : String) :
    Persists id (.ok (.vacant directory name)) (.ok (.node id))
  | error (cause cause' : FileError) : Persists id (.error cause) (.error cause')

/-- A way goes on as before up to the first link if it does behind it. -/
theorem Changes.followUntil (h : Changes before id contents after)
    (purpose : Purpose)
    {onward onward' :
      NodeId → String → List String → Except FileError Destination}
    (honward : ∀ here target rest,
      Persists id (onward here target rest) (onward' here target rest))
    (here : NodeId) (pieces : List String) :
    Persists id (before.followUntil purpose onward here pieces)
      (after.followUntil purpose onward' here pieces) := by
  induction pieces generalizing here with
  | nil => exact .node here
  | cons piece rest ih =>
    unfold FileStore.followUntil
    obtain ⟨⟨_, hbefore⟩, _, hafter⟩ | ⟨b, a, hbefore, hafter, hstep⟩ :=
      h.step purpose here piece rest
    · rw [hbefore, hafter]
      exact .error _ _
    · rw [hbefore, hafter]
      obtain rfl | ⟨rfl, rfl⟩ := hstep
      · match a with
        | .to next => exact ih next
        | .through target => exact honward here target rest
        | .vacant =>
          dsimp only
          cases rest with
          | nil => exact .vacant here piece
          | cons _ _ => exact .error _ _
      · dsimp only
        cases rest with
        | nil => exact .made here piece
        | cons next rest =>
          -- the file is no directory, so the way still ends here
          obtain ⟨cause, hstuck⟩ :=
            exists_step_eq_error h.noDirectory.2 purpose next rest
          unfold FileStore.followUntil
          rw [hstuck]
          exact .error _ _

/-- **Ways go on as before.** -/
theorem Changes.follow (h : Changes before id contents after)
    (hroot : after.root = before.root) (purpose : Purpose) (links : Nat)
    (here : NodeId) (pieces : List String) :
    Persists id (before.follow purpose links here pieces)
      (after.follow purpose links here pieces) := by
  induction links generalizing here pieces with
  | zero =>
    exact h.followUntil purpose (fun _ _ _ => .error _ _) here pieces
  | succ links ih =>
    refine h.followUntil purpose (fun here target rest => ?_) here pieces
    have hstart : after.start here target = before.start here target := by
      unfold start
      rw [hroot]
    rw [hstart]
    exact ih _ _

section Purposes

variable {s : FileStore} {here : NodeId} {pieces : List String}
  {d : Destination}

theorem followUntil_reading_of_writing
    {onward onward' :
      NodeId → String → List String → Except FileError Destination}
    (honward : ∀ here target rest d,
      onward here target rest = .ok d → onward' here target rest = .ok d)
    (h : s.followUntil .writing onward here pieces = .ok d) :
    s.followUntil .reading onward' here pieces = .ok d := by
  induction pieces generalizing here with
  | nil => exact h
  | cons piece rest ih =>
    unfold followUntil at h ⊢
    cases hstep : s.step .writing here piece rest with
    | error cause =>
      rw [hstep] at h
      cases h
    | ok next =>
      rw [hstep] at h
      rw [step_reading_of_writing hstep]
      match next with
      | .to next => exact ih h
      | .through target => exact honward _ _ _ _ h
      | .vacant => exact h

/-- **A way for writing is one for reading.** -/
theorem follow_reading_of_writing {links : Nat}
    (h : s.follow .writing links here pieces = .ok d) :
    s.follow .reading links here pieces = .ok d := by
  induction links generalizing here pieces d with
  | zero =>
    exact followUntil_reading_of_writing (fun _ _ _ _ hlink => by cases hlink) h
  | succ links ih =>
    exact followUntil_reading_of_writing (fun _ _ _ _ hlink => ih hlink) h

variable {purpose : Purpose} {directory : NodeId} {name : String}

theorem followUntil_eq_vacant
    {onward : NodeId → String → List String → Except FileError Destination}
    (honward : ∀ here target rest,
      onward here target rest = .ok (.vacant directory name) →
        ∃ access parent names,
          s.nodeAt? directory = some (.directory access parent names)
          ∧ s.lookUp names name = .vacant)
    (h : s.followUntil purpose onward here pieces
      = .ok (.vacant directory name)) :
    ∃ access parent names,
      s.nodeAt? directory = some (.directory access parent names)
      ∧ s.lookUp names name = .vacant := by
  induction pieces generalizing here with
  | nil => cases h
  | cons piece rest ih =>
    unfold followUntil at h
    cases hstep : s.step purpose here piece rest with
    | error cause =>
      rw [hstep] at h
      cases h
    | ok next =>
      rw [hstep] at h
      match next with
      | .to next => exact ih h
      | .through target => exact honward _ _ _ h
      | .vacant =>
        dsimp only at h
        split at h
        · cases h
          exact step_eq_vacant hstep
        · cases h

/-- **A way that leads to nothing** ends in a directory without the name. -/
theorem follow_eq_vacant {links : Nat}
    (h : s.follow purpose links here pieces = .ok (.vacant directory name)) :
    ∃ access parent names,
      s.nodeAt? directory = some (.directory access parent names)
      ∧ s.lookUp names name = .vacant := by
  induction links generalizing here pieces with
  | zero => exact followUntil_eq_vacant (fun _ _ _ hlink => by cases hlink) h
  | succ links ih => exact followUntil_eq_vacant (fun _ _ _ hlink => ih hlink) h

end Purposes

end DriverAudit.FileStore
