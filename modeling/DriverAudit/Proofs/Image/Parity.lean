import DriverAudit.Proofs.Image.Extents

/-!
# Where hint/name entries are even

A hint/name entry should start at an even position, and the layout rounds the
position up behind each of them. The name of a module is not rounded up,
though, and the entries of the next module start right behind it. So the first
entry of a module may be odd; all its other entries are even.

Whether it is can be told from the modules before, one at a time: what counts
is the remainder of the position behind each (`residueBehind`). The entries of
an image are all even exactly if that remainder is zero wherever a module with
imports by name starts (`entriesEven_iff`), as it is when all modules have
names of odd length (`entriesEven_of_odd_names`). The two modules of
`twoModules` are a case where it is not.
-/

namespace DriverAudit

/-- Whether a thunk is an import by name. -/
def ThunkSpec.isByName : ThunkSpec → Bool
  | name _ => true
  | _ => false

namespace Blueprint

/-! ## Remainders -/

/-- The remainder of the position behind some hint/name entries that start at
a position with some remainder. -/
def residueBehindEntries (residue : Nat) (thunks : List ThunkSpec) : Nat :=
  if thunks.any ThunkSpec.isByName then 0 else residue

@[simp]
theorem residueBehindEntries_zero (thunks : List ThunkSpec) :
    residueBehindEntries 0 thunks = 0 := by
  unfold residueBehindEntries
  split <;> rfl

/-- The remainder of the position behind a module, whose name ends with a zero
byte. -/
def residueBehind (residue : Nat) (m : ModuleSpec) : Nat :=
  (residueBehindEntries residue m.thunks + m.name.utf8ByteSize + 1) % 2

/-- **The remainder of the position where the entries of a module start**, by
the number of the module. -/
def startResidue (b : Blueprint) (k : Nat) : Nat :=
  (b.modules.take k).foldl residueBehind 0

/-- Behind an entry the position is even. -/
theorem afterHintName_mod_two (position : Nat) (text : String) :
    afterHintName position text % 2 = 0 :=
  Nat.mod_eq_zero_of_dvd (dvd_alignUp _ 2 (by decide))

theorem placeHintNames_mod_two (position : Nat) (thunks : List ThunkSpec) :
    (placeHintNames position thunks).2 % 2
      = residueBehindEntries (position % 2) thunks := by
  induction thunks generalizing position with
  | nil => rfl
  | cons t rest ih =>
    cases t with
    | name text =>
      -- behind an entry the remainder is zero, with more entries or without
      have hrest := ih (afterHintName position text)
      rwa [afterHintName_mod_two, residueBehindEntries_zero] at hrest
    | ordinal _ | raw _ => exact ih position

/-- **An entry is even if another one precedes it**; the first one of a module
has the remainder of the position from which the module starts. -/
theorem hintName_mod_two {position place slot : Nat} {thunks : List ThunkSpec}
    (h : (placeHintNames position thunks).1[slot]? = some (some place)) :
    place % 2 = residueBehindEntries (position % 2) (thunks.take slot) := by
  induction thunks generalizing position slot with
  | nil => cases h
  | cons t rest ih =>
    cases t with
    | name text =>
      cases slot with
      | zero =>
        cases h
        rfl
      | succ slot =>
        have hrest := ih h
        rwa [afterHintName_mod_two, residueBehindEntries_zero] at hrest
    | ordinal _ | raw _ =>
      cases slot with
      | zero => cases h
      | succ slot => exact ih h

/-- Behind the names of a module the remainder is that of `residueBehind`. -/
theorem behindNames_mod_two (position : Nat) (m : ModuleSpec) :
    behindNames position m % 2 = residueBehind (position % 2) m := by
  have hentries := placeHintNames_mod_two position m.thunks
  unfold behindNames residueBehind
  omega

/-- The tables of all modules take up an even number of bytes. -/
theorem placeTables_mod_two (a : Architecture) (table : Nat)
    (ms : List ModuleSpec) :
    (placeTables a table ms).2 % 2 = table % 2 := by
  induction ms generalizing table with
  | nil => rfl
  | cons m rest ih =>
    have hrest := ih (table + 2 * thunkTableSize a m)
    rwa [Nat.add_mul_mod_self_left] at hrest

/-! ## The entries of a section -/

variable (b : Blueprint)

/-- The names start at an even position. -/
theorem namesStart_mod_two : b.namesStart % 2 = 0 := by
  rw [namesStart, placeTables_mod_two]
  unfold descriptorTableSize descriptorSize
  omega

/-- **The remainder where the entries of a module start** comes from the
modules before it. -/
theorem foldl_behindNames_mod_two (k : Nat) :
    (b.modules.take k).foldl behindNames b.namesStart % 2
      = b.startResidue k := by
  have hfold : (b.modules.take k).foldl residueBehind (b.namesStart % 2)
      = (b.modules.take k).foldl behindNames b.namesStart % 2 :=
    List.foldl_hom (· % 2) fun position m =>
      (behindNames_mod_two position m).symm
  rw [← hfold, b.namesStart_mod_two]
  rfl

/-- **The remainder of each entry**: zero behind another entry of the module,
and else that of the position where the module starts. -/
theorem entry_mod_two {k slot position : Nat} {x : ModuleSpec × ModuleLayout}
    (hx : (b.modules.zip b.layout.1)[k]? = some x)
    (hposition : x.2.hintNames[slot]? = some (some position)) :
    position % 2
      = residueBehindEntries (b.startResidue k) (x.1.thunks.take slot) := by
  rw [zip_layout] at hx
  have hplaces : (placeHintNames ((b.modules.take k).foldl behindNames
      b.namesStart) x.1.thunks).1 = x.2.hintNames :=
    congrArg Prod.fst (placeHintNames_of_getElem? hx)
  rw [← hplaces] at hposition
  rw [hintName_mod_two hposition]
  exact congrArg (residueBehindEntries · _) (b.foldl_behindNames_mod_two k)

/-- An address is even exactly if the position is. -/
theorem addressOf_mod_two (position : Nat) :
    addressOf position % 2 = position % 2 := by
  unfold addressOf sectionAddress UInt32.size
  omega

/-- **Both thunks of an import by name** are the address of its entry. -/
theorem hasAt_nameThunk {slot position : Nat} {text : String}
    {x : ModuleSpec × ModuleLayout} (hx : x ∈ b.modules.zip b.layout.1)
    (hthunk : x.1.thunks[slot]? = some (.name text))
    (hposition : x.2.hintNames[slot]? = some (some position)) :
    ∀ table ∈ [x.2.lookupTable, x.2.addressTable],
      HasAt b.build
        (sectionOffset + table + slot * b.architecture.thunkWidth)
        (wordBytes b.architecture.thunkWidth (addressOf position)) := by
  rw [zip_layout] at hx
  obtain ⟨hlookup, haddress⟩ := tables_of_mem b.hasAt_tables hx
  obtain ⟨hslot, hname⟩ := List.getElem?_eq_some_iff.1 hthunk
  have hbits : thunkBits b.architecture x.1.thunks[slot]
      (x.2.hintNames[slot]?.getD none) = addressOf position := by
    rw [hname, hposition]
    rfl
  have hlength := hintNames_length_of_mem hx
  intro table htable
  simp only [List.mem_cons, List.not_mem_nil, or_false] at htable
  rcases htable with rfl | rfl
  · exact hbits ▸ hasAt_thunk_of_table hlength hlookup hslot
  · exact hbits ▸ hasAt_thunk_of_table hlength haddress hslot

/-- **All hint/name entries are at even positions.** -/
def EntriesEven : Prop :=
  ∀ x ∈ b.modules.zip b.layout.1, ∀ position,
    some position ∈ x.2.hintNames → position % 2 = 0

/-- **All thunks of imports by name are even** in the image, in both tables. -/
def NameThunksEven : Prop :=
  ∀ x ∈ b.modules.zip b.layout.1, ∀ (slot : Nat) (text : String),
    x.1.thunks[slot]? = some (.name text) →
    ∀ table ∈ [x.2.lookupTable, x.2.addressTable],
      wordAt b.build (sectionOffset + table + slot * b.architecture.thunkWidth)
        b.architecture.thunkWidth % 2 = 0

/-- **Every module with an import by name starts at an even position.** -/
def StartsEven : Prop :=
  ∀ k m, b.modules[k]? = some m → m.thunks.any ThunkSpec.isByName = true →
    b.startResidue k = 0

/-- The thunk of an import by name is even exactly if its entry is. -/
theorem wordAt_nameThunk_mod_two {slot position : Nat} {text : String}
    {x : ModuleSpec × ModuleLayout} (hx : x ∈ b.modules.zip b.layout.1)
    (hthunk : x.1.thunks[slot]? = some (.name text))
    (hposition : x.2.hintNames[slot]? = some (some position)) {table : Nat}
    (htable : table ∈ [x.2.lookupTable, x.2.addressTable]) :
    wordAt b.build (sectionOffset + table + slot * b.architecture.thunkWidth)
      b.architecture.thunkWidth % 2 = position % 2 := by
  have hword := b.hasAt_nameThunk hx hthunk hposition table htable
  have heven : 2 ∣ 256 ^ b.architecture.thunkWidth := by
    cases b.architecture <;> decide
  rw [hword.wordAt_eq, Nat.mod_mod_of_dvd _ heven, addressOf_mod_two]

/-- The entries are even if and only if the thunks are. -/
theorem nameThunksEven_iff : b.NameThunksEven ↔ b.EntriesEven := by
  constructor
  · intro h x hx position hposition
    obtain ⟨slot, hslot⟩ := List.mem_iff_getElem?.1 hposition
    obtain ⟨text, htext⟩ := exists_name_of_entry (b.zip_layout ▸ hx) hslot
    rw [← b.wordAt_nameThunk_mod_two hx htext hslot List.mem_cons_self]
    exact h x hx slot text htext _ List.mem_cons_self
  · intro h x hx slot text htext table htable
    obtain ⟨position, hposition⟩ := b.isComplete.2 x hx slot text htext
    rw [b.wordAt_nameThunk_mod_two hx htext hposition htable]
    exact h x hx position (List.mem_iff_getElem?.2 ⟨slot, hposition⟩)

/-- Of the imports by name among some thunks there is a first one. -/
theorem exists_first_name {thunks : List ThunkSpec}
    (h : thunks.any ThunkSpec.isByName = true) :
    ∃ (slot : Nat) (text : String), thunks[slot]? = some (.name text)
      ∧ (thunks.take slot).any ThunkSpec.isByName = false := by
  induction thunks with
  | nil => cases h
  | cons t rest ih =>
    cases t with
    | name text => exact ⟨0, text, rfl, rfl⟩
    | ordinal _ | raw _ =>
      obtain ⟨slot, text, hslot, hbefore⟩ := ih h
      exact ⟨slot + 1, text, hslot, hbefore⟩

/-- A module starts where its first entry does. -/
theorem StartsEven.of_entriesEven {b : Blueprint} (h : b.EntriesEven) :
    b.StartsEven := by
  intro k m hm hany
  obtain ⟨slot, text, htext, hbefore⟩ := exists_first_name hany
  have hk : k < b.layout.1.length := by
    rw [b.isComplete.1]
    exact (List.getElem?_eq_some_iff.1 hm).1
  have hx : (b.modules.zip b.layout.1)[k]? = some (m, b.layout.1[k]) :=
    List.getElem?_zip_eq_some.2 ⟨hm, List.getElem?_eq_getElem hk⟩
  obtain ⟨position, hposition⟩ :=
    b.isComplete.2 _ (List.mem_of_getElem? hx) slot text htext
  have hresidue := b.entry_mod_two hx hposition
  have hstart : residueBehindEntries (b.startResidue k) (m.thunks.take slot)
      = b.startResidue k :=
    if_neg (by rw [hbefore]; decide)
  rw [← hstart, ← hresidue]
  exact h _ (List.mem_of_getElem? hx) position
    (List.mem_of_getElem? hposition)

/-- **The entries are even if and only if the modules start evenly.** -/
theorem entriesEven_iff : b.EntriesEven ↔ b.StartsEven := by
  refine ⟨StartsEven.of_entriesEven, fun h x hx position hposition => ?_⟩
  obtain ⟨k, hk⟩ := List.mem_iff_getElem?.1 hx
  obtain ⟨slot, hslot⟩ := List.mem_iff_getElem?.1 hposition
  obtain ⟨text, htext⟩ := exists_name_of_entry (b.zip_layout ▸ hx) hslot
  rw [b.entry_mod_two hk hslot]
  have hany : x.1.thunks.any ThunkSpec.isByName = true :=
    List.any_eq_true.2 ⟨_, List.mem_of_getElem? htext, rfl⟩
  rw [h k x.1 (List.getElem?_zip_eq_some.1 hk).1 hany]
  exact residueBehindEntries_zero _

/-- Names of odd length keep the remainder at zero. -/
theorem foldl_residueBehind_of_odd {ms : List ModuleSpec}
    (h : ∀ m ∈ ms, m.name.utf8ByteSize % 2 = 1) :
    ms.foldl residueBehind 0 = 0 := by
  induction ms with
  | nil => rfl
  | cons m rest ih =>
    have hname := h m List.mem_cons_self
    have hbehind : residueBehind 0 m = 0 := by
      rw [residueBehind, residueBehindEntries_zero]
      omega
    rw [List.foldl_cons, hbehind]
    exact ih fun m' hm' => h m' (List.mem_cons_of_mem m hm')

/-- **Names of odd length keep all entries even.** -/
theorem entriesEven_of_odd_names
    (h : ∀ m ∈ b.modules, m.name.utf8ByteSize % 2 = 1) : b.EntriesEven :=
  b.entriesEven_iff.2 fun _ _ _ _ =>
    foldl_residueBehind_of_odd fun m hm => h m (List.mem_of_mem_take hm)

/-- **When the entries and thunks of an image are even**: exactly if every
module with an import by name starts at an even position, and hence if all
modules have names of odd length. -/
theorem hintNames_even_iff :
    (b.EntriesEven ↔ b.StartsEven) ∧ (b.NameThunksEven ↔ b.StartsEven)
      ∧ ((∀ m ∈ b.modules, m.name.utf8ByteSize % 2 = 1) → b.EntriesEven) :=
  ⟨b.entriesEven_iff, b.nameThunksEven_iff.trans b.entriesEven_iff,
    b.entriesEven_of_odd_names⟩

/-- The second of two modules starts behind a name of three bytes. Its entry is
odd, and so is the thunk in its lookup table. -/
theorem not_entriesEven_twoModules :
    ¬ twoModules.EntriesEven ∧ ¬ twoModules.NameThunksEven
      ∧ u32At twoModules.build 612 = .ok 4223 := by
  have hmem : ∃ x ∈ twoModules.modules.zip twoModules.layout.1,
      some 127 ∈ x.2.hintNames := by decide
  have hodd : ¬ twoModules.EntriesEven := fun h =>
    let ⟨x, hx, hposition⟩ := hmem
    absurd (h x hx 127 hposition) (by decide)
  exact ⟨hodd, fun h => hodd (twoModules.nameThunksEven_iff.1 h),
    by decide +kernel⟩

end Blueprint

end DriverAudit
