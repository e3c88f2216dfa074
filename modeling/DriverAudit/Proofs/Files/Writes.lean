import DriverAudit.Proofs.Bytes.Words
import DriverAudit.Proofs.Files.Ways

/-!
# What writing a file does to a store

Writing a file either is refused, and then nothing has changed, or it changes
one file, which is the one that the path leads to afterwards (`WrittenTo`). The
file holds what the system took: all that was to be written, unless the system
broke off, and the first bytes otherwise (`overwrite_cases`).

Everything else is as it was, by number and by path. A file is read as it was
by any path that does not lead to the one that was written – by another name of
it, say, or through a link.
-/

namespace DriverAudit.FileStore

variable {s : FileStore} {id : NodeId} {node : FileNode}

/-! ## Nodes -/

theorem lt_size_of_nodeAt?_eq (h : s.nodeAt? id = some node) :
    id < s.nodes.size :=
  (Array.getElem?_eq_some_iff.1 h).1

/-- A number that is not in use has nothing. -/
theorem nodeAt?_size (s : FileStore) : s.nodeAt? s.nodes.size = none :=
  Array.getElem?_eq_none (Nat.le_refl _)

section Replaced

variable {access : Access} {old contents : ByteArray}

@[simp]
theorem root_replace : (s.replace id contents).root = s.root := by
  unfold replace
  split <;> rfl

@[simp]
theorem workingDirectory_replace :
    (s.replace id contents).workingDirectory = s.workingDirectory := by
  unfold replace
  split <;> rfl

/-- **New contents for a file** change the file and nothing else. -/
theorem changes_replace (h : s.nodeAt? id = some (.file access old)) :
    Changes s id contents (s.replace id contents) := by
  have hlt := lt_size_of_nodeAt?_eq h
  unfold replace
  rw [h]
  refine .replaced access old h ?_ (fun other hother => ?_)
  · exact Array.getElem?_setIfInBounds_self_of_lt hlt
  · exact Array.getElem?_setIfInBounds_ne hother.symm

end Replaced

section Added

variable {directory parent : NodeId} {access : Access}
  {names : List (String × NodeId)} {name : String}

@[simp]
theorem root_add : (s.add directory name node).root = s.root := by
  unfold add
  split <;> rfl

@[simp]
theorem workingDirectory_add :
    (s.add directory name node).workingDirectory = s.workingDirectory := by
  unfold add
  split <;> rfl

theorem nodes_add
    (h : s.nodeAt? directory = some (.directory access parent names)) :
    (s.add directory name node).nodes
      = (s.nodes.setIfInBounds directory
        (.directory access parent ((name, s.nodes.size) :: names))).push node := by
  unfold add
  rw [h]

/-- Something new has the first number that was not in use. -/
theorem nodeAt?_add_size
    (h : s.nodeAt? directory = some (.directory access parent names)) :
    (s.add directory name node).nodeAt? s.nodes.size = some node := by
  unfold nodeAt?
  rw [nodes_add h, Array.getElem?_push, if_pos Array.size_setIfInBounds.symm]

/-- It has a name in its directory. -/
theorem nodeAt?_add_directory
    (h : s.nodeAt? directory = some (.directory access parent names)) :
    (s.add directory name node).nodeAt? directory
      = some (.directory access parent ((name, s.nodes.size) :: names)) := by
  have hlt := lt_size_of_nodeAt?_eq h
  unfold nodeAt?
  rw [nodes_add h, Array.getElem?_push, Array.size_setIfInBounds,
    if_neg (Nat.ne_of_lt hlt)]
  exact Array.getElem?_setIfInBounds_self_of_lt hlt

/-- Everything else is as it was. -/
theorem nodeAt?_add_of_ne
    (h : s.nodeAt? directory = some (.directory access parent names))
    {other : NodeId} (hother : other ≠ s.nodes.size) (hne : other ≠ directory) :
    (s.add directory name node).nodeAt? other = s.nodeAt? other := by
  unfold nodeAt?
  rw [nodes_add h, Array.getElem?_push, Array.size_setIfInBounds,
    if_neg hother]
  exact Array.getElem?_setIfInBounds_ne hne.symm

end Added

/-! ## Reading again -/

variable {before after : FileStore} {contents : ByteArray} {path : String}

/-- Whether a way can be gone does not change. -/
theorem Changes.destination (h : Changes before id contents after)
    (hroot : after.root = before.root)
    (hworking : after.workingDirectory = before.workingDirectory)
    (purpose : Purpose) (path : String) :
    Persists id (before.destination purpose path)
      (after.destination purpose path) := by
  unfold FileStore.destination
  split
  · exact .error _ _
  · have hstart : after.start after.workingDirectory path
        = before.start before.workingDirectory path := by
      unfold start
      rw [hroot, hworking]
    rw [hstart]
    exact h.follow hroot purpose maxLinks _ _

/-- What can be read is at the end of the way. -/
theorem read_eq_ok_iff {d : ByteArray} :
    s.read path = .ok d
      ↔ ∃ found, s.destination .reading path = .ok (.node found)
        ∧ s.contentsOf found = .ok d := by
  unfold FileStore.read
  rw [bind_eq_ok_iff]
  constructor
  · rintro ⟨found | ⟨directory, name⟩, hway, hread⟩
    · exact ⟨found, hway, hread⟩
    · cases hread
  · rintro ⟨found, hway, hread⟩
    exact ⟨.node found, hway, hread⟩

/-- Of everything but the file there is to read what there was. -/
theorem Changes.contentsOf_eq_ok_iff (h : Changes before id contents after)
    {found : NodeId} (hne : found ≠ id) {d : ByteArray} :
    after.contentsOf found = .ok d ↔ before.contentsOf found = .ok d := by
  unfold contentsOf
  obtain hsame | ⟨access, parent, names, name, hbefore, _, hafter⟩ :=
    h.nodeAt?_of_ne hne
  · rw [hsame]
    cases hnode : before.nodeAt? found with
    | none => exact Iff.rfl
    | some node =>
      cases node with
      | file access old => exact Iff.rfl
      | link target => exact Iff.rfl
      | directory access parent names =>
        dsimp only
        cases access.reading? <;> exact iff_of_false nofun nofun
  · rw [hbefore, hafter]
    dsimp only
    cases access.reading? <;> exact iff_of_false nofun nofun

/-- **Reading elsewhere gives what it gave.** -/
theorem Changes.read_eq_ok_iff (h : Changes before id contents after)
    (hroot : after.root = before.root)
    (hworking : after.workingDirectory = before.workingDirectory)
    (helsewhere : after.destination .reading path ≠ .ok (.node id))
    {d : ByteArray} :
    after.read path = .ok d ↔ before.read path = .ok d := by
  rw [FileStore.read_eq_ok_iff, FileStore.read_eq_ok_iff]
  have hway := h.destination hroot hworking .reading path
  generalize after.destination .reading path = a at hway helsewhere ⊢
  generalize before.destination .reading path = b at hway ⊢
  cases hway with
  | node found =>
    have hne : found ≠ id := by
      rintro rfl
      exact helsewhere rfl
    simp only [Except.ok.injEq, Destination.node.injEq, exists_eq_left']
    exact h.contentsOf_eq_ok_iff hne
  | vacant directory name => exact iff_of_false nofun nofun
  | made directory name => exact absurd rfl helsewhere
  | error cause cause' => exact iff_of_false nofun nofun

/-! ## Writing -/

/-- **A file that was written**, and all there is to a store besides. -/
structure WrittenTo (before : FileStore) (path : String) (contents : ByteArray)
    (id : NodeId) (after : FileStore) : Prop where
  /-- The file holds what was written, and nothing else has changed. -/
  changes : Changes before id contents after
  /-- The path leads to the file. -/
  destination_eq : after.destination .reading path = .ok (.node id)
  /-- What was written is there to read, unless reading the file is refused. -/
  read_eq : ∀ access, after.nodeAt? id = some (.file access contents) →
    access.reading? = none → after.read path = .ok contents
  /-- By a path that leads elsewhere, there is to read what there was. -/
  frame : ∀ other, after.destination .reading other ≠ .ok (.node id) →
    ∀ d, after.read other = .ok d ↔ before.read other = .ok d

/-- A way for writing is one for reading. -/
theorem destination_reading_of_writing {d : Destination}
    (h : s.destination .writing path = .ok d) :
    s.destination .reading path = .ok d := by
  unfold destination at h ⊢
  split at h
  · cases h
  · exact follow_reading_of_writing h

/-- A way that leads to nothing ends in a directory without the name. -/
theorem destination_eq_vacant {purpose : Purpose} {directory : NodeId}
    {name : String}
    (h : s.destination purpose path = .ok (.vacant directory name)) :
    ∃ access parent names,
      s.nodeAt? directory = some (.directory access parent names)
      ∧ s.lookUp names name = .vacant := by
  unfold destination at h
  split at h
  · cases h
  · exact follow_eq_vacant h

theorem Changes.writtenTo (h : Changes before id contents after)
    (hroot : after.root = before.root)
    (hworking : after.workingDirectory = before.workingDirectory)
    (hway : after.destination .reading path = .ok (.node id)) :
    WrittenTo before path contents id after where
  changes := h
  destination_eq := hway
  read_eq access hfile hfree := by
    refine FileStore.read_eq_ok_iff.2 ⟨id, hway, ?_⟩
    unfold contentsOf
    rw [hfile]
    dsimp only
    rw [hfree]
  frame _ helsewhere _ := h.read_eq_ok_iff hroot hworking helsewhere

/-- A file that was there is where its path leads. -/
theorem writtenTo_replace {access : Access} {old : ByteArray}
    (hway : s.destination .writing path = .ok (.node id))
    (hfile : s.nodeAt? id = some (.file access old)) :
    WrittenTo s path contents id (s.replace id contents) := by
  have hchanges : Changes s id contents (s.replace id contents) :=
    changes_replace hfile
  have hpersists := hchanges.destination root_replace workingDirectory_replace
    .reading path
  rw [destination_reading_of_writing hway] at hpersists
  refine hchanges.writtenTo root_replace workingDirectory_replace ?_
  generalize (s.replace id contents).destination .reading path = a
    at hpersists ⊢
  cases hpersists
  rfl

/-- A file that was made is where its path leads. -/
theorem writtenTo_add {directory : NodeId} {name : String}
    (hway : s.destination .writing path = .ok (.vacant directory name)) :
    WrittenTo s path contents s.nodes.size
      ((s.add directory name (.file .free .empty)).replace s.nodes.size
        contents) := by
  obtain ⟨access, parent, names, hdirectory, hvacant⟩ :=
    destination_eq_vacant hway
  have hne : directory ≠ s.nodes.size :=
    Nat.ne_of_lt (lt_size_of_nodeAt?_eq hdirectory)
  -- first the file is made, and then it gets its contents
  have hfilled : Changes (s.add directory name (.file .free .empty))
      s.nodes.size contents _ := changes_replace (nodeAt?_add_size hdirectory)
  generalize hafter : (s.add directory name (.file .free .empty)).replace
    s.nodes.size contents = after at hfilled ⊢
  have hroot : after.root = s.root := by rw [← hafter]; simp
  have hworking : after.workingDirectory = s.workingDirectory := by
    rw [← hafter]; simp
  obtain ⟨_, _, _, hfile, hframe⟩ | ⟨_, _, _, _, _, _, hnone⟩ := hfilled
  case made =>
    rw [nodeAt?_add_size hdirectory] at hnone
    cases hnone
  have hnamed : after.nodeAt? directory
      = some (.directory access parent ((name, s.nodes.size) :: names)) := by
    rw [hframe directory hne, nodeAt?_add_directory hdirectory]
  have hchanges : Changes s s.nodes.size contents after :=
    .made _ directory parent name access names s.nodeAt?_size hfile hdirectory
      hvacant hnamed (fun other hother hotherdir => by
        rw [hframe other hother, nodeAt?_add_of_ne hdirectory hother hotherdir])
  refine hchanges.writtenTo hroot hworking ?_
  have hpersists := hchanges.destination hroot hworking .reading path
  rw [destination_reading_of_writing hway] at hpersists
  generalize hgone : after.destination .reading path = a at hpersists ⊢
  cases hpersists with
  | made => rfl
  | vacant =>
    -- the name leads to the file now
    obtain ⟨_, _, _, hdirectory', hvacant'⟩ := destination_eq_vacant hgone
    rw [hnamed] at hdirectory'
    cases hdirectory'
    unfold lookUp at hvacant'
    rw [List.lookup_cons_self] at hvacant'
    dsimp only at hvacant'
    rw [hfile] at hvacant'
    cases hvacant'

/-- **What it takes to open a file for writing**: the path leads to a file that
may be written, or to nothing in a directory that may be written. -/
theorem openForWriting_cases {opened : FileStore}
    (h : s.openForWriting path = .ok (id, opened)) :
    (∃ access old, s.destination .writing path = .ok (.node id)
      ∧ s.nodeAt? id = some (.file access old) ∧ opened = s)
    ∨ ∃ directory name access parent names,
      s.destination .writing path = .ok (.vacant directory name)
      ∧ s.nodeAt? directory = some (.directory access parent names)
      ∧ id = s.nodes.size
      ∧ opened = s.add directory name (.file .free .empty) := by
  unfold openForWriting at h
  obtain ⟨found | ⟨directory, name⟩, hway, hopen⟩ := bind_eq_ok_iff.1 h
  · dsimp only at hopen
    split at hopen
    case h_1 access old hfile =>
      split at hopen
      · cases hopen
      · cases hopen
        exact Or.inl ⟨access, old, hway, hfile, rfl⟩
    case h_2 => cases hopen
  · dsimp only at hopen
    split at hopen
    case h_1 access parent names hdirectory =>
      split at hopen
      · cases hopen
      · cases hopen
        exact Or.inr ⟨directory, name, access, parent, names, hway, hdirectory,
          rfl, rfl⟩
    case h_2 => cases hopen

/-- **What the system takes** is all there is, or so many bytes. -/
theorem taken_cases (s : FileStore) (contents : ByteArray) :
    s.taken contents = (contents, .ok ())
      ∨ ∃ room cause, room < contents.size
        ∧ s.taken contents = (contents.extract 0 room, .error cause) := by
  unfold taken
  split
  · exact Or.inl rfl
  case h_2 room cause _ =>
    by_cases hroom : room < contents.size
    · rw [if_pos hroom]
      exact Or.inr ⟨room, cause, hroom, rfl⟩
    · rw [if_neg hroom]
      exact Or.inl rfl

/-- **A file that could be opened** is there, and holds what the system took. -/
theorem writtenTo_of_opened {opened : FileStore}
    (h : s.openForWriting path = .ok (id, opened)) (contents : ByteArray) :
    WrittenTo s path contents id (opened.replace id contents) := by
  obtain ⟨access, old, hway, hfile, rfl⟩
    | ⟨directory, name, _, _, _, hway, _, rfl, rfl⟩ := openForWriting_cases h
  · exact writtenTo_replace hway hfile
  · exact writtenTo_add hway

/-- **Writing a file** is refused, and then nothing has changed; or the file is
there and holds what was to be written; or the system broke off, and it holds
so many bytes of that. -/
theorem overwrite_cases (s : FileStore) (path : String) (contents : ByteArray) :
    (∃ cause, s.overwrite path contents = (.error cause, s))
    ∨ (∃ id after, s.overwrite path contents = (.ok (), after)
      ∧ WrittenTo s path contents id after)
    ∨ ∃ cause id room after, room < contents.size
      ∧ s.overwrite path contents = (.error cause, after)
      ∧ WrittenTo s path (contents.extract 0 room) id after := by
  unfold overwrite
  cases hopen : s.openForWriting path with
  | error cause => exact Or.inl ⟨cause, rfl⟩
  | ok result =>
    obtain ⟨id, opened⟩ := result
    dsimp only
    obtain htaken | ⟨room, cause, hroom, htaken⟩ := s.taken_cases contents
    · rw [htaken]
      exact Or.inr (Or.inl ⟨id, _, rfl, writtenTo_of_opened hopen contents⟩)
    · rw [htaken]
      exact Or.inr (Or.inr ⟨cause, id, room, _, hroom, rfl,
        writtenTo_of_opened hopen _⟩)

end DriverAudit.FileStore
