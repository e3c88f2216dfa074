import DriverAudit.Image.Build
import DriverAudit.Proofs.Bytes.Pieces

/-!
# The pieces of a built image are where its layout says

The layout of a section and its bytes are computed apart from each other: the
one adds up sizes, the other puts pieces one behind the other. They agree
because each piece has the size that the layout gave it. This is shown module
by module: `placeModules` goes through the modules once, with the position of
the next tables and that of the next names, and both the layout and the bytes
can be read off it.

What comes of it is `PlacedAt`: of every module, the table that its descriptor
refers to, all hint/name entries and the name are in the image, at the
positions of its layout.
-/

namespace DriverAudit.Blueprint

/-! ## Sizes of pieces -/

@[simp]
theorem length_zeros (n : Nat) : (zeros n).length = n :=
  List.length_replicate

theorem length_padTo {size : Nat} {bytes : List UInt8}
    (h : bytes.length ≤ size) : (padTo size bytes).length = size := by
  unfold padTo
  rw [List.length_append, length_zeros]
  omega

@[simp]
theorem length_terminated (text : String) :
    (terminated text).length = text.utf8ByteSize + 1 := by
  unfold terminated
  rw [List.length_append]
  rfl

@[simp]
theorem length_descriptorBytes (m : ModuleSpec) (l : ModuleLayout) :
    (descriptorBytes m l).length = descriptorSize := by
  unfold descriptorBytes
  simp only [List.length_append, length_wordBytes, length_zeros]
  rfl

theorem le_alignUp (value : Nat) {alignment : Nat} (h : 0 < alignment) :
    value ≤ alignUp value alignment := by
  unfold alignUp
  rw [if_neg (by omega)]
  have hmod := Nat.div_add_mod (value + alignment - 1) alignment
  have hlt := Nat.mod_lt (value + alignment - 1) h
  rw [Nat.mul_comm] at hmod
  omega

/-- A hint/name entry has room for its hint and its terminated name. -/
theorem hintName_le_afterHintName (position : Nat) (text : String) :
    position + 2 + text.utf8ByteSize + 1 ≤ afterHintName position text :=
  le_alignUp _ (by decide)

/-- A hint/name entry fills the place up to the next one. -/
theorem length_hintNameBytes (slot : Nat) (text : String) (position : Nat) :
    position + (hintNameBytes slot text position).length
      = afterHintName position text := by
  have hroom := hintName_le_afterHintName position text
  unfold hintNameBytes
  rw [length_padTo]
  · omega
  · rw [List.length_append, length_wordBytes, length_terminated]
    omega

@[simp]
theorem length_placeHintNames (position : Nat) (thunks : List ThunkSpec) :
    (placeHintNames position thunks).1.length = thunks.length := by
  induction thunks generalizing position with
  | nil => rfl
  | cons t rest ih =>
    cases t <;> exact congrArg (· + 1) (ih _)

/-- The hint/name entries of a module fill the place up to its name. -/
theorem length_hintNamesBytes (position slot : Nat)
    (thunks : List ThunkSpec) :
    position + (hintNamesBytes slot thunks
        (placeHintNames position thunks).1).length
      = (placeHintNames position thunks).2 := by
  induction thunks generalizing position slot with
  | nil => rfl
  | cons t rest ih =>
    -- only an import by name has an entry, and moves the position on
    cases t with
    | name text =>
      have hrest := ih (afterHintName position text) (slot + 1)
      have hentry := length_hintNameBytes slot text position
      simp only [placeHintNames, hintNamesBytes, List.length_append]
      omega
    | ordinal number => exact ih position (slot + 1)
    | raw bits => exact ih position (slot + 1)

theorem length_thunkTableBytes {a : Architecture} {m : ModuleSpec}
    {l : ModuleLayout} (h : l.hintNames.length = m.thunks.length) :
    (thunkTableBytes a m l).length = thunkTableSize a m := by
  unfold thunkTableBytes thunkTableSize
  rw [List.length_append,
    HasAt.length_flatMap (fun v _ => length_wordBytes a.thunkWidth v),
    List.length_zipWith, h, Nat.min_self, length_zeros, Nat.succ_mul]

/-! ## Modules with their layouts -/

/-- **Modules with their layouts**, from the position of the first tables and
that of the first names on. -/
def placeModules (a : Architecture) :
    Nat → Nat → List ModuleSpec → List (ModuleSpec × ModuleLayout)
  | _, _, [] => []
  | table, name, m :: rest =>
    let hintNames := placeHintNames name m.thunks
    (m, { lookupTable := table
          addressTable := table + thunkTableSize a m
          hintNames := hintNames.1
          name := hintNames.2 })
      :: placeModules a (table + 2 * thunkTableSize a m)
        (hintNames.2 + m.name.utf8ByteSize + 1) rest

/-- Both tables of a module. -/
def tablesBytes (a : Architecture) (x : ModuleSpec × ModuleLayout) :
    List UInt8 :=
  thunkTableBytes a x.1 x.2 ++ thunkTableBytes a x.1 x.2

variable {a : Architecture}

theorem map_fst_placeModules (table name : Nat) (ms : List ModuleSpec) :
    (placeModules a table name ms).map Prod.fst = ms := by
  induction ms generalizing table name with
  | nil => rfl
  | cons m rest ih => exact congrArg (m :: ·) (ih _ _)

theorem length_tablesBytes (table name : Nat) (ms : List ModuleSpec) :
    table + ((placeModules a table name ms).flatMap (tablesBytes a)).length
      = (placeTables a table ms).2 := by
  induction ms generalizing table name with
  | nil => rfl
  | cons m rest ih =>
    rw [placeModules, List.flatMap_cons, List.length_append, tablesBytes,
      List.length_append, length_thunkTableBytes (length_placeHintNames _ _)]
    have hrest := ih (table + 2 * thunkTableSize a m)
      ((placeHintNames name m.thunks).2 + m.name.utf8ByteSize + 1)
    show table + (thunkTableSize a m + thunkTableSize a m + _)
      = (placeTables a (table + 2 * thunkTableSize a m) rest).2
    omega

theorem length_namesBytes (table name : Nat) (ms : List ModuleSpec) :
    name + ((placeModules a table name ms).flatMap
        fun x => namesBytes x.1 x.2).length
      = (placeNames name ms).2 := by
  induction ms generalizing table name with
  | nil => rfl
  | cons m rest ih =>
    rw [placeModules, List.flatMap_cons, List.length_append, namesBytes,
      List.length_append, length_terminated]
    have hhints := length_hintNamesBytes name 0 m.thunks
    have hrest := ih (table + 2 * thunkTableSize a m)
      ((placeHintNames name m.thunks).2 + m.name.utf8ByteSize + 1)
    show name + ((hintNamesBytes 0 m.thunks (placeHintNames name m.thunks).1).length
        + (m.name.utf8ByteSize + 1) + _)
      = (placeNames ((placeHintNames name m.thunks).2
        + m.name.utf8ByteSize + 1) rest).2
    omega

/-! ## Where the pieces are -/

variable {d : ByteArray} {start : Nat}

section Table

variable {m : ModuleSpec} {l : ModuleLayout} {offset : Nat}
  (hlength : l.hintNames.length = m.thunks.length)
  (h : HasAt d offset (thunkTableBytes a m l))

include hlength h

/-- **The thunks of a table** follow one another, wherever it is. -/
theorem hasAt_thunk_of_table {slot : Nat} (hslot : slot < m.thunks.length) :
    HasAt d (offset + slot * a.thunkWidth)
      (wordBytes a.thunkWidth
        (thunkBits a m.thunks[slot] (l.hintNames[slot]?.getD none))) := by
  unfold thunkTableBytes at h
  have hlt : slot < (List.zipWith (thunkBits a) m.thunks l.hintNames).length := by
    rwa [List.length_zipWith, hlength, Nat.min_self]
  have hword := HasAt.getElem_flatMap
    (fun v _ => length_wordBytes a.thunkWidth v)
    (HasAt.append_iff.1 h).1 hlt
  have hhint : slot < l.hintNames.length := by rwa [hlength]
  rwa [List.getElem_zipWith, ← Option.getD_some (a := l.hintNames[slot]) (b := none),
    ← List.getElem?_eq_getElem hhint] at hword

/-- **Behind the thunks of a table there are zeros**, wherever it is. -/
theorem hasAt_zeros_of_table :
    HasAt d (offset + m.thunks.length * a.thunkWidth)
      (zeros a.thunkWidth) := by
  unfold thunkTableBytes at h
  have hzeros := (HasAt.append_iff.1 h).2
  rwa [HasAt.length_flatMap (fun v _ => length_wordBytes a.thunkWidth v),
    List.length_zipWith, hlength, Nat.min_self] at hzeros

end Table

/-- The table that a descriptor refers to first. -/
def readTable (m : ModuleSpec) (l : ModuleLayout) : Nat :=
  if m.hasLookupTable then l.lookupTable else l.addressTable

/-- **The pieces of a module that can be reached from its descriptor are where
its layout says**, in a section that starts at some offset of the file. -/
structure PlacedAt (d : ByteArray) (start : Nat) (a : Architecture)
    (m : ModuleSpec) (l : ModuleLayout) : Prop where
  hintNames_length : l.hintNames.length = m.thunks.length
  table : HasAt d (start + readTable m l) (thunkTableBytes a m l)
  /-- A thunk for an import by name has its hint/name entry. -/
  hintName : ∀ slot text, m.thunks[slot]? = some (.name text) →
    ∃ position, l.hintNames[slot]? = some (some position)
      ∧ HasAt d (start + position) (wordBytes 2 slot ++ terminated text)
  name : HasAt d (start + l.name) (terminated m.name)

namespace PlacedAt

variable {m : ModuleSpec} {l : ModuleLayout}

/-- **The thunks of a table** follow one another, each with its own bits. -/
theorem hasAt_thunk (h : PlacedAt d start a m l) {slot : Nat}
    (hslot : slot < m.thunks.length) :
    HasAt d (start + readTable m l + slot * a.thunkWidth)
      (wordBytes a.thunkWidth
        (thunkBits a m.thunks[slot] (l.hintNames[slot]?.getD none))) :=
  hasAt_thunk_of_table h.hintNames_length h.table hslot

/-- **Behind the thunks of a table there are zeros.** -/
theorem hasAt_endMark (h : PlacedAt d start a m l) :
    HasAt d (start + readTable m l + m.thunks.length * a.thunkWidth)
      (zeros a.thunkWidth) :=
  hasAt_zeros_of_table h.hintNames_length h.table

end PlacedAt

/-- The position behind the hint/name entries of a module and its name. -/
def behindNames (position : Nat) (m : ModuleSpec) : Nat :=
  (placeHintNames position m.thunks).2 + m.name.utf8ByteSize + 1

/-- **The hint/name entries of each module** are placed behind the names of the
modules before it, and its own name behind them. -/
theorem placeHintNames_of_getElem? {table name k : Nat} {ms : List ModuleSpec}
    {x : ModuleSpec × ModuleLayout}
    (hx : (placeModules a table name ms)[k]? = some x) :
    placeHintNames ((ms.take k).foldl behindNames name) x.1.thunks
      = (x.2.hintNames, x.2.name) := by
  induction ms generalizing table name k with
  | nil => cases hx
  | cons m rest ih =>
    cases k with
    | zero =>
      cases hx
      rfl
    | succ k => exact ih hx

theorem exists_placeHintNames_of_mem {table name : Nat} {ms : List ModuleSpec}
    {x : ModuleSpec × ModuleLayout} (hx : x ∈ placeModules a table name ms) :
    ∃ position, placeHintNames position x.1.thunks
      = (x.2.hintNames, x.2.name) :=
  let ⟨_, hk⟩ := List.mem_iff_getElem?.1 hx
  ⟨_, placeHintNames_of_getElem? hk⟩

theorem hintNames_length_of_mem {table name : Nat} {ms : List ModuleSpec}
    {x : ModuleSpec × ModuleLayout} (hx : x ∈ placeModules a table name ms) :
    x.2.hintNames.length = x.1.thunks.length := by
  obtain ⟨position, hplaces⟩ := exists_placeHintNames_of_mem hx
  rw [← length_placeHintNames position, hplaces]

/-- Only an import by name has a hint/name entry. -/
theorem exists_name_of_hintName {position place slot : Nat}
    {thunks : List ThunkSpec}
    (h : (placeHintNames position thunks).1[slot]? = some (some place)) :
    ∃ text, thunks[slot]? = some (.name text) := by
  induction thunks generalizing position slot with
  | nil => cases h
  | cons t rest ih =>
    cases slot with
    | zero =>
      cases t with
      | name text => exact ⟨text, rfl⟩
      | ordinal _ | raw _ => cases h
    | succ slot => cases t <;> exact ih h

/-- The same of the entries of a module that was placed. -/
theorem exists_name_of_entry {table name : Nat} {ms : List ModuleSpec}
    {x : ModuleSpec × ModuleLayout} (hx : x ∈ placeModules a table name ms)
    {slot place : Nat} (h : x.2.hintNames[slot]? = some (some place)) :
    ∃ text, x.1.thunks[slot]? = some (.name text) := by
  obtain ⟨position, hplaces⟩ := exists_placeHintNames_of_mem hx
  have hentries : (placeHintNames position x.1.thunks).1 = x.2.hintNames :=
    congrArg Prod.fst hplaces
  exact exists_name_of_hintName (hentries ▸ h)

/-- **Both tables of each module** are at their positions. -/
theorem tables_of_mem {table name : Nat} {ms : List ModuleSpec}
    (h : HasAt d (start + table)
      ((placeModules a table name ms).flatMap (tablesBytes a)))
    {x : ModuleSpec × ModuleLayout} (hx : x ∈ placeModules a table name ms) :
    HasAt d (start + x.2.lookupTable) (thunkTableBytes a x.1 x.2)
      ∧ HasAt d (start + x.2.addressTable) (thunkTableBytes a x.1 x.2) := by
  induction ms generalizing table name with
  | nil => cases hx
  | cons m rest ih =>
    rw [placeModules, List.flatMap_cons, HasAt.append_iff, tablesBytes,
      HasAt.append_iff, List.length_append,
      length_thunkTableBytes (length_placeHintNames name m.thunks),
      Nat.add_assoc, Nat.add_assoc, ← Nat.two_mul] at h
    obtain ⟨⟨hlookup, haddress⟩, hbehind⟩ := h
    -- the next tables start behind both tables of the module
    rcases List.mem_cons.1 hx with rfl | hrest
    · exact ⟨hlookup, haddress⟩
    · exact ih hbehind hrest

/-- The hint/name entries of a module are at their positions. -/
theorem hintName_of_getElem? {position slot : Nat} {thunks : List ThunkSpec}
    (h : HasAt d (start + position) (hintNamesBytes slot thunks
      (placeHintNames position thunks).1))
    {i : Nat} {text : String} (hi : thunks[i]? = some (.name text)) :
    ∃ place, (placeHintNames position thunks).1[i]? = some (some place)
      ∧ HasAt d (start + place) (wordBytes 2 (slot + i) ++ terminated text) := by
  induction thunks generalizing position slot i with
  | nil => cases hi
  | cons t rest ih =>
    cases t with
    | name t =>
      simp only [placeHintNames, hintNamesBytes] at h ⊢
      obtain ⟨hfirst, hbehind⟩ := HasAt.append_iff.1 h
      cases i with
      | zero =>
        cases hi
        exact ⟨position, rfl, (HasAt.append_iff.1 hfirst).1⟩
      | succ i =>
        rw [Nat.add_assoc, length_hintNameBytes] at hbehind
        rw [← Nat.add_assoc, Nat.add_right_comm]
        exact ih hbehind hi
    | ordinal number =>
      cases i with
      | zero => cases hi
      | succ i =>
        rw [← Nat.add_assoc, Nat.add_right_comm]
        exact ih h hi
    | raw bits =>
      cases i with
      | zero => cases hi
      | succ i =>
        rw [← Nat.add_assoc, Nat.add_right_comm]
        exact ih h hi

/-- **The hint/name entries and the name of each module** are at their
positions. -/
theorem names_of_mem {table name : Nat} {ms : List ModuleSpec}
    (h : HasAt d (start + name)
      ((placeModules a table name ms).flatMap fun x => namesBytes x.1 x.2))
    {x : ModuleSpec × ModuleLayout} (hx : x ∈ placeModules a table name ms) :
    (∀ slot text, x.1.thunks[slot]? = some (.name text) →
      ∃ position, x.2.hintNames[slot]? = some (some position)
        ∧ HasAt d (start + position) (wordBytes 2 slot ++ terminated text))
      ∧ HasAt d (start + x.2.name) (terminated x.1.name) := by
  induction ms generalizing table name with
  | nil => cases hx
  | cons m rest ih =>
    rw [placeModules, List.flatMap_cons, HasAt.append_iff, namesBytes,
      HasAt.append_iff, List.length_append, length_terminated, ← Nat.add_assoc,
      Nat.add_assoc start name, length_hintNamesBytes] at h
    obtain ⟨⟨hhints, hname⟩, hbehind⟩ := h
    -- the next entries start behind the name of the module
    rcases List.mem_cons.1 hx with rfl | hrest
    · refine ⟨fun slot text hslot => ?_, hname⟩
      have hentry := hintName_of_getElem? hhints hslot
      rwa [Nat.zero_add] at hentry
    · rw [Nat.add_assoc start] at hbehind
      exact ih hbehind hrest

end DriverAudit.Blueprint
