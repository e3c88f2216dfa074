import DriverAudit.Proofs.Image.Shown
import DriverAudit.Proofs.Imports.Thunks
import DriverAudit.Proofs.Imports.Views

/-!
# What the import table of a built image shows, level by level

A blueprint says what an image imports, and this module follows the walk of
data that show the blueprint, from the inside out: what a thunk comes to, where
its table ends, what a descriptor shows, and how many descriptors there are.
All of it can be said from the blueprint alone (`Blueprint.visibleTable`), for
any limits: a name that is too long is not read, a name with the character zero
ends early, and the budget may be used up anywhere.

What this takes is that the blueprint is `Tidy`. It may tell a thunk or a
descriptor to hold any value in place of the right address, and if that value
led into the section, the walk would read there whatever it finds.
-/

namespace DriverAudit

/-! ## What can be seen of a blueprint -/

/-- The value of bits that are written into a thunk. -/
def Architecture.written (a : Architecture) (bits : UInt64) : Nat :=
  bits.toNat % 256 ^ a.thunkWidth

namespace ThunkSpec

/-- Whether a thunk was written without a meaning. -/
def isRaw : ThunkSpec → Bool
  | .raw _ => true
  | _ => false

/-- Whether a thunk ends its table. -/
def isEndMark (a : Architecture) : ThunkSpec → Bool
  | .raw bits => a.written bits == 0
  | _ => false

/-- **What the thunk in a slot comes to**, under some limits. The hint of a name
is the slot. -/
def visible? (a : Architecture) (limits : ParseLimits) (slot : Nat) :
    ThunkSpec → Option ImportEntry
  | .name text =>
    (textBelow limits.nameLength text).map (.byName (UInt16.ofNat slot))
  | .ordinal number => some (.byOrdinal number)
  | .raw bits =>
    if a.IsFlagged (a.written bits) then
      some (.byOrdinal (UInt16.ofNat (a.written bits)))
    else none

end ThunkSpec

namespace ModuleSpec

/-- Whether the name of a module can be found. -/
def isNamed (m : ModuleSpec) : Bool := m.nameAddress.isNone

/-- The thunks of a module up to the first one that ends their table. -/
def visibleThunks (a : Architecture) (m : ModuleSpec) : List ThunkSpec :=
  m.thunks.takeWhile fun t => !t.isEndMark a

/-- **What the descriptor of a module shows**, if the name of the module can be
read. -/
def view? (a : Architecture) (limits : ParseLimits) (m : ModuleSpec) :
    Option View :=
  if m.isNamed then
    (textBelow limits.moduleNameLength m.name).map fun name =>
      { name
        found := (m.visibleThunks a).zipIdx.map fun x =>
          x.1.visible? a limits x.2
        ending := .terminator }
  else none

end ModuleSpec

namespace Blueprint

/-- The modules that the descriptors describe, the copies of the first one
counted. -/
def describedModules (b : Blueprint) : List ModuleSpec :=
  shareFirst b.sharedDescriptors b.modules

/-- **The import table that can be seen of a blueprint** under some limits. -/
def visibleTable (b : Blueprint) (limits : ParseLimits) : ImportTable :=
  if b.hasImportDirectory then
    View.tableWithin limits.imports
      (b.describedModules.map (·.view? b.architecture limits))
  else .empty

/-- **A blueprint with nothing that leads astray**: its section is low, its
directory leads to its descriptors, and what it gives in place of an address
does not lead into the section. -/
structure Tidy (b : Blueprint) : Prop where
  low : b.IsLow
  directory : b.importDirectoryAddress = none
  rawThunks : ∀ m ∈ b.modules, ∀ bits, .raw bits ∈ m.thunks →
    ¬ b.Covers (b.architecture.written bits)
  nameAddresses : ∀ m ∈ b.modules, ∀ address ∈ m.nameAddress,
    ¬ b.Covers address.toNat

/-- What a walk looks at, in data that have the headers of a blueprint. -/
def source (b : Blueprint) (d : ByteArray) (limits : ParseLimits) :
    ImportSource :=
  b.headers.importSource d limits

variable {b : Blueprint} {d : ByteArray} {limits : ParseLimits}

/-! ## Thunks -/

/-- The low bits of a flagged number are the number. -/
theorem toUInt16_or_ordinalFlag (a : Architecture) (number : UInt16) :
    (a.ordinalFlag ||| number.toUInt64).toUInt16 = number := by
  have hflag : a.ordinalFlag.toNat % 2 ^ 16 = 0 := by cases a <;> rfl
  rw [← UInt16.toNat_inj, UInt64.toNat_toUInt16, UInt64.toNat_or,
    Nat.or_mod_two_pow, hflag, Nat.zero_or, UInt16.toNat_toUInt64]
  exact Nat.mod_eq_of_lt number.toNat_lt

/-- A flagged number fits the width of a thunk. -/
theorem or_ordinalFlag_lt (a : Architecture) (number : UInt16) :
    (a.ordinalFlag ||| number.toUInt64).toNat < 256 ^ a.thunkWidth := by
  have hflag : a.ordinalFlag.toNat < 2 ^ (8 * a.thunkWidth) := by
    cases a <;> decide
  have hnumber : number.toUInt64.toNat < 2 ^ (8 * a.thunkWidth) := by
    rw [UInt16.toNat_toUInt64]
    refine Nat.lt_of_lt_of_le number.toNat_lt ?_
    cases a <;> decide
  rw [UInt64.toNat_or, show 256 = 2 ^ 8 from rfl, ← Nat.pow_mul]
  exact Nat.or_lt_two_pow hflag hnumber

theorem isFlagged_or_ordinalFlag (a : Architecture) (number : UInt16) :
    a.IsFlagged (a.ordinalFlag ||| number.toUInt64).toNat := by
  unfold Architecture.IsFlagged
  rw [UInt64.toNat_or, Nat.testBit_or, a.toNat_ordinalFlag,
    Nat.testBit_two_pow_self, Bool.true_or]

/-- An address of a low section is not flagged. -/
theorem not_isFlagged_of_lt {a : Architecture} {thunk : Nat}
    (h : thunk < 2 ^ 31) : ¬ a.IsFlagged thunk := by
  unfold Architecture.IsFlagged
  have hlow : thunk < 2 ^ (8 * a.thunkWidth - 1) := by
    refine Nat.lt_of_lt_of_le h ?_
    cases a <;> decide
  rw [Nat.testBit_lt_two_pow hlow]
  exact Bool.false_ne_true

/-- **What is read of a thunk**: it does not end its table, and it comes to
something or to nothing. -/
structure ReadsAs (s : ImportSource) (offset : Nat)
    (found : Option ImportEntry) : Prop where
  inside : Inside s.data offset s.architecture.thunkWidth
  value_ne_zero : thunkValue s.data s.architecture offset ≠ 0
  found?_eq : (s.resolutionAt offset).found? = found

theorem toNat_thunkAt_source (offset : Nat) :
    ((b.source d limits).thunkAt offset).toNat
      = thunkValue d b.architecture offset :=
  ImportSource.toNat_thunkAt _ offset

/-- The thunk of an import by name leads to its hint and its name. -/
theorem readsAs_name (hlow : b.IsLow) (hsize : d.size = b.build.size)
    {offset position slot : Nat} {text : String}
    (hthunk : HasAt d offset
      (wordBytes b.architecture.thunkWidth (addressOf position)))
    (hentry : HasAt d (sectionOffset + position)
      (wordBytes 2 slot ++ terminated text)) :
    ReadsAs (b.source d limits) offset
      ((textBelow limits.nameLength text).map
        (.byName (UInt16.ofNat slot))) := by
  have hposition : position < b.sectionSize := by
    refine lt_sectionSize hsize hentry ?_
    rw [List.length_append, length_wordBytes]
    omega
  have hend := hlow
  unfold IsLow at hend
  have hlt : sectionAddress + position < 2 ^ 31 := by omega
  -- a low address fits both widths of a thunk
  have hvalue : thunkValue d b.architecture offset
      = sectionAddress + position := by
    unfold thunkValue
    rw [hthunk.wordAt_eq, hlow.addressOf_eq hposition]
    refine Nat.mod_eq_of_lt (Nat.lt_of_lt_of_le hlt ?_)
    cases b.architecture <;> decide
  have haddress : ((b.source d limits).thunkAt offset).toUInt32
      = UInt32.ofNat (addressOf position) := by
    rw [← UInt32.toNat_inj, UInt64.toNat_toUInt32, toNat_thunkAt_source, hvalue,
      hlow.addressOf_eq hposition]
    rfl
  refine ⟨hthunk.inside_word b.architecture.thunkWidth_pos, ?_, ?_⟩
  · show thunkValue d b.architecture offset ≠ 0
    rw [hvalue]
    exact Nat.ne_of_gt (Nat.lt_of_lt_of_le (by decide) (Nat.le_add_right _ _))
  obtain ⟨hhint, hname⟩ := HasAt.append_iff.1 hentry
  rw [length_wordBytes] at hname
  rw [← hname.toOption_stringAt]
  refine ImportSource.found?_resolutionAt_of_mapped ?_ ?_ ?_ hhint.u16At_eq
  · rw [toNat_thunkAt_source, hvalue]
    exact not_isFlagged_of_lt hlt
  · rw [toNat_thunkAt_source, hvalue]
    omega
  · rw [haddress]
    exact hlow.fileOffset_addressOf hposition

/-- The thunk of an import by number has the number. -/
theorem readsAs_ordinal {offset : Nat} {number : UInt16}
    (hthunk : HasAt d offset (wordBytes b.architecture.thunkWidth
      (b.architecture.ordinalFlag ||| number.toUInt64).toNat)) :
    ReadsAs (b.source d limits) offset (some (.byOrdinal number)) := by
  have hvalue : thunkValue d b.architecture offset
      = (b.architecture.ordinalFlag ||| number.toUInt64).toNat := by
    unfold thunkValue
    rw [hthunk.wordAt_eq, Nat.mod_eq_of_lt (or_ordinalFlag_lt _ number)]
  have hflagged := isFlagged_or_ordinalFlag b.architecture number
  have hthunkAt : (b.source d limits).thunkAt offset
      = b.architecture.ordinalFlag ||| number.toUInt64 := by
    rw [← UInt64.toNat_inj, toNat_thunkAt_source, hvalue]
  refine ⟨hthunk.inside_word b.architecture.thunkWidth_pos, fun hzero => ?_, ?_⟩
  · rw [← hvalue] at hflagged
    exact not_isFlagged_of_lt (by decide) (hzero ▸ hflagged)
  · rw [← hthunkAt] at hflagged
    rw [ImportSource.found?_resolutionAt_of_isFlagged hflagged, hthunkAt,
      toUInt16_or_ordinalFlag]

/-- Bits that lead nowhere are passed over unless they are flagged. -/
theorem readsAs_raw (hlow : b.IsLow) {offset slot : Nat} {bits : UInt64}
    (hthunk : HasAt d offset
      (wordBytes b.architecture.thunkWidth bits.toNat))
    (hcovers : ¬ b.Covers (b.architecture.written bits))
    (hmark : b.architecture.written bits ≠ 0) :
    ReadsAs (b.source d limits) offset
      ((ThunkSpec.raw bits).visible? b.architecture limits slot) := by
  have hvalue : ((b.source d limits).thunkAt offset).toNat
      = b.architecture.written bits :=
    (toNat_thunkAt_source offset).trans hthunk.wordAt_eq
  refine ⟨hthunk.inside_word b.architecture.thunkWidth_pos, ?_, ?_⟩
  · rwa [← hvalue, toNat_thunkAt_source] at hmark
  rw [ThunkSpec.visible?, ← hvalue]
  split
  case isTrue hflag =>
    rw [ImportSource.found?_resolutionAt_of_isFlagged hflag,
      UInt16.ofNat_uInt64ToNat]
  case isFalse hflag =>
    refine ImportSource.found?_resolutionAt_of_unmapped hflag (fun hsmall => ?_)
    refine ⟨_, hlow.fileOffset_of_not_covers ?_⟩
    rwa [UInt64.toNat_toUInt32, Nat.mod_eq_of_lt hsmall, hvalue]

/-! ## Tables of thunks -/

variable {m : ModuleSpec} {l : ModuleLayout} {offset : Nat}

theorem not_isEndMark_of_mem {a : Architecture} {t : ThunkSpec}
    (h : t ∈ m.visibleThunks a) : t.isEndMark a = false := by
  have hmark := List.mem_takeWhile_imp h
  rwa [Bool.not_eq_true'] at hmark

/-- All thunks can be seen when none of them ends the table. -/
theorem visibleThunks_eq_thunks {a : Architecture}
    (h : ∀ t ∈ m.thunks, t.isEndMark a = false) :
    m.visibleThunks a = m.thunks := by
  refine List.takeWhile_eq_self_iff.2 (fun t ht => ?_)
  rw [h t ht]
  rfl

/-- **A table ends behind its thunks or with one that is an end mark.** -/
theorem getElem?_visibleThunks_length (a : Architecture) (m : ModuleSpec) :
    (m.visibleThunks a).length = m.thunks.length
      ∨ ∃ t, m.thunks[(m.visibleThunks a).length]? = some t
        ∧ t.isEndMark a = true := by
  have hsplit : m.visibleThunks a
      ++ m.thunks.dropWhile (fun t => !t.isEndMark a) = m.thunks :=
    List.takeWhile_append_dropWhile
  have hnot := List.head?_dropWhile_not (fun t => !t.isEndMark a) m.thunks
  cases hrest : m.thunks.dropWhile fun t => !t.isEndMark a with
  | nil =>
    rw [hrest, List.append_nil] at hsplit
    exact Or.inl (congrArg List.length hsplit)
  | cons t rest =>
    rw [hrest] at hsplit hnot
    refine Or.inr ⟨t, ?_, by simpa using hnot⟩
    conv_lhs => rw [← hsplit]
    rw [List.getElem?_append_right (Nat.le_refl _), Nat.sub_self]
    rfl

/-- What ends the thunks that can be seen is a word of zeros. -/
theorem blank_visibleThunks
    (hplaced : PlacedAt d sectionOffset b.architecture m l) :
    RecordArray.Blank d b.architecture.thunkWidth (sectionOffset + readTable m l)
      (m.visibleThunks b.architecture).length := by
  obtain hall | ⟨t, ht, hmark⟩ :=
    getElem?_visibleThunks_length b.architecture m
  · have hzeros := hplaced.hasAt_endMark
    rw [← hall] at hzeros
    have hpos := b.architecture.thunkWidth_pos
    have hinside := hzeros.inside (by rwa [length_zeros])
    rw [length_zeros] at hinside
    exact ⟨hinside, fun j hj => hzeros.byteAt_of_replicate hj⟩
  · obtain ⟨hlt, rfl⟩ := List.getElem?_eq_some_iff.1 ht
    have hthunk := hplaced.hasAt_thunk hlt
    refine RecordArray.blank_of_wordAt_eq_zero
      (hthunk.inside_word b.architecture.thunkWidth_pos) ?_
    refine hthunk.wordAt_eq.trans ?_
    -- only bits that are written as they are can be an end mark
    cases hraw : m.thunks[(m.visibleThunks b.architecture).length] with
    | name text => rw [hraw] at hmark; cases hmark
    | ordinal number => rw [hraw] at hmark; cases hmark
    | raw bits =>
      rw [hraw] at hmark
      exact eq_of_beq hmark

section Table

variable (hb : b.Tidy) (hm : m ∈ b.modules) (hsize : d.size = b.build.size)
  (hplaced : PlacedAt d sectionOffset b.architecture m l)
include hb hm hsize hplaced

/-- **Each thunk of a table comes to what can be seen of it.** -/
theorem readsAs_thunk {slot : Nat}
    (hslot : slot < (m.visibleThunks b.architecture).length) :
    ReadsAs (b.source d limits)
      (RecordArray.recordOffset b.architecture.thunkWidth
        (sectionOffset + readTable m l) slot)
      ((m.visibleThunks b.architecture)[slot].visible? b.architecture limits
        slot) := by
  have hfront : m.visibleThunks b.architecture <+: m.thunks :=
    List.takeWhile_prefix _
  have hlt : slot < m.thunks.length :=
    Nat.lt_of_lt_of_le hslot hfront.length_le
  have hmark := not_isEndMark_of_mem (List.getElem_mem hslot)
  rw [hfront.getElem] at hmark ⊢
  have hthunk := hplaced.hasAt_thunk hlt
  have hfound : m.thunks[slot]? = some m.thunks[slot] :=
    List.getElem?_eq_getElem hlt
  have hmem : m.thunks[slot] ∈ m.thunks := List.getElem_mem hlt
  cases ht : m.thunks[slot] with
  | name text =>
    rw [ht] at hfound hthunk
    obtain ⟨position, hposition, hentry⟩ := hplaced.hintName slot text hfound
    rw [hposition] at hthunk
    exact readsAs_name hb.low hsize hthunk hentry
  | ordinal number =>
    rw [ht] at hthunk
    exact readsAs_ordinal hthunk
  | raw bits =>
    rw [ht] at hthunk hmark hmem
    exact readsAs_raw hb.low hthunk (hb.rawThunks m hm bits hmem)
      (by simpa [ThunkSpec.isEndMark] using hmark)

/-- **A table of thunks reaches as far as its thunks can be seen.** -/
theorem thunkArray_source :
    (b.source d limits).thunkArray (sectionOffset + readTable m l)
      = ⟨(m.visibleThunks b.architecture).length, .terminator⟩ := by
  refine (RecordArray.measure_eq_iff b.architecture.thunkWidth_pos).2
    ⟨fun slot hslot => ?_, fun _ => ?_, fun he => ?_⟩
  · have hreads : ReadsAs (b.source d limits) _ _ :=
      readsAs_thunk hb hm hsize hplaced hslot
    exact RecordArray.live_of_wordAt_ne_zero hreads.inside hreads.value_ne_zero
  · exact blank_visibleThunks hplaced
  · cases he

/-- **What the table of a module shows.** -/
theorem view_source (name : String) :
    (b.source d limits).view ⟨name, some (sectionOffset + readTable m l)⟩
      = { name
          found := (m.visibleThunks b.architecture).zipIdx.map fun x =>
            x.1.visible? b.architecture limits x.2
          ending := .terminator } := by
  have harray : (b.source d limits).thunkArray _ = _ :=
    thunkArray_source hb hm hsize hplaced
  unfold ImportSource.view ImportSource.leadThunks ImportSource.leadArray
  dsimp only
  rw [harray]
  congr 1
  refine RecordArray.map_offsets ?_ (fun slot hslot => ?_)
  · exact List.length_zipIdx.symm
  · rw [List.length_zipIdx] at hslot
    rw [List.getElem_zipIdx, Nat.zero_add]
    exact (readsAs_thunk hb hm hsize hplaced hslot).found?_eq

end Table

/-! ## Descriptors -/

theorem thunkTableBytes_pos :
    0 < (thunkTableBytes b.architecture m l).length := by
  unfold thunkTableBytes
  rw [List.length_append, length_zeros]
  exact Nat.add_pos_right _ b.architecture.thunkWidth_pos

section Descriptor

variable (hb : b.Tidy) (hsize : d.size = b.build.size)
  (hplaced : PlacedAt d sectionOffset b.architecture m l)
  (hdescribed : DescribedAt d offset m l)
include hb hsize hplaced hdescribed

/-- **A descriptor refers to the table that is read.** -/
theorem thunkAddress_source :
    (Descriptor.atOffset d offset).thunkAddress
      = UInt32.ofNat (addressOf (readTable m l)) := by
  have hposition : readTable m l < b.sectionSize :=
    lt_sectionSize hsize hplaced.table thunkTableBytes_pos
  have hfirst : (Descriptor.atOffset d offset).lookupTable = _ :=
    hdescribed.lookupTable.ofNat_wordAt_eq
  unfold Descriptor.thunkAddress
  rw [hfirst]
  unfold readTable at hposition ⊢
  by_cases htable : m.hasLookupTable = true
  · simp only [if_pos htable] at hposition ⊢
    exact if_pos (hb.low.ofNat_addressOf_ne_zero hposition)
  · -- without a lookup table its field is zero, and the other one is read
    simp only [if_neg htable]
    refine (if_neg (not_not_intro rfl)).trans ?_
    exact (hdescribed.addressTable (Bool.not_eq_true _ ▸ htable)).ofNat_wordAt_eq

/-- The table that is read is in the section. -/
theorem fileOffset_thunkAddress :
    (Descriptor.atOffset d offset).thunkAddress ≠ 0
      ∧ b.headers.sections.fileOffset
          (Descriptor.atOffset d offset).thunkAddress
        = .ok (sectionOffset + readTable m l) := by
  have hposition : readTable m l < b.sectionSize :=
    lt_sectionSize hsize hplaced.table thunkTableBytes_pos
  rw [thunkAddress_source hb hsize hplaced hdescribed]
  exact ⟨hb.low.ofNat_addressOf_ne_zero hposition,
    hb.low.fileOffset_addressOf hposition⟩

/-- **A descriptor that refers to a table does not end the descriptors.** -/
theorem live_descriptor {start i : Nat}
    (hoffset : offset = RecordArray.recordOffset Descriptor.byteSize start i) :
    RecordArray.Live d Descriptor.byteSize start i := by
  subst hoffset
  refine ⟨hdescribed.inside, ?_⟩
  have hne := (fileOffset_thunkAddress hb hsize hplaced hdescribed).1
  -- were all bytes zero, so would be both fields that can refer to a table
  by_contra hall
  have hzero : ∀ j < Descriptor.byteSize, byteAt d
      (RecordArray.recordOffset Descriptor.byteSize start i + j) = 0 := by
    intro j hj
    by_contra hbyte
    exact hall ⟨j, hj, hbyte⟩
  have hfirst : (Descriptor.atOffset d
      (RecordArray.recordOffset Descriptor.byteSize start i)).lookupTable = 0 :=
    congrArg UInt32.ofNat (wordAt_eq_zero_iff.2
      (fun j hj => hzero j (Nat.lt_of_lt_of_le hj (by decide))))
  have hlast : (Descriptor.atOffset d
      (RecordArray.recordOffset Descriptor.byteSize start i)).addressTable = 0 := by
    refine congrArg UInt32.ofNat (wordAt_eq_zero_iff.2 (fun j hj => ?_))
    rw [Nat.add_assoc]
    exact hzero (16 + j) (Nat.add_lt_add_left hj 16)
  unfold Descriptor.thunkAddress at hne
  rw [hfirst, hlast] at hne
  exact hne (ite_self 0)

/-- **A descriptor shows what can be seen of its module.** -/
theorem viewAt?_source (hm : m ∈ b.modules) :
    (b.source d limits).viewAt? offset = m.view? b.architecture limits := by
  have hfield : (Descriptor.atOffset d offset).moduleName
      = UInt32.ofNat (nameField m l) := hdescribed.name.ofNat_wordAt_eq
  unfold nameField at hfield
  unfold ModuleSpec.view? ModuleSpec.isNamed
  cases hname : m.nameAddress with
  | some address =>
    -- the address given in place of the right one leads nowhere
    rw [hname] at hfield
    have hunmapped := hb.low.fileOffset_of_not_covers
      (hb.nameAddresses m hm address hname)
    rw [← UInt32.ofNat_toNat (x := address), ← hfield] at hunmapped
    exact congrArg (Option.map _)
      (ImportSource.toOption_lead_of_unmapped (s := b.source d limits) hunmapped)
  | none =>
    rw [hname] at hfield
    have hposition : l.name < b.sectionSize := by
      refine lt_sectionSize hsize hplaced.name ?_
      rw [length_terminated]
      exact Nat.succ_pos _
    have hmapped := hb.low.fileOffset_addressOf hposition
    rw [← hfield] at hmapped
    obtain ⟨hne, htable⟩ := fileOffset_thunkAddress hb hsize hplaced hdescribed
    have hlead : ((b.source d limits).leadAt offset).toOption
        = (textBelow limits.moduleNameLength m.name).map fun name =>
            ⟨name, some (sectionOffset + readTable m l)⟩ := by
      rw [← hplaced.name.toOption_stringAt]
      exact ImportSource.toOption_lead_of_mapped (s := b.source d limits)
        hmapped hne htable
    rw [ImportSource.viewAt?, hlead, Option.map_map]
    refine congrArg (fun show? => Option.map show? _) (funext fun name => ?_)
    exact view_source hb hm hsize hplaced name

end Descriptor

/-! ## The table -/

variable (hb : b.Tidy) (hshows : b.Shows d)
include hb hshows

/-- **There are as many descriptors as described modules.** -/
theorem descriptorArray_source :
    (b.source d limits).descriptorArray sectionOffset
      = ⟨b.described.length, .terminator⟩ := by
  refine (RecordArray.measure_eq_iff (by decide)).2
    ⟨fun i hi => ?_, fun _ => ?_, fun he => ?_⟩
  · exact live_descriptor hb hshows.size_eq (hshows.placedAt_described hi)
      (hshows.described i hi) rfl
  · have hzeros := hshows.endMark
    exact ⟨hzeros.inside (by decide), fun j hj => hzeros.byteAt_of_replicate hj⟩
  · cases he

/-- **The table in the section is the one that can be seen.** -/
theorem tableAt_source :
    ((b.source d limits).tableAt sectionOffset).value
      = .ok (View.tableWithin limits.imports
          (b.describedModules.map (·.view? b.architecture limits))) := by
  have harray : (b.source d limits).descriptorArray sectionOffset = _ :=
    descriptorArray_source hb hshows
  have hdescribed : b.described.map Prod.fst = b.describedModules :=
    b.map_fst_described
  refine ImportSource.tableAt_of_views (by rw [harray]) ?_
  rw [← hdescribed, List.map_map]
  refine RecordArray.map_offsets (by rw [harray]) (fun i hi => ?_)
  exact viewAt?_source hb hshows.size_eq (hshows.placedAt_described hi)
    (hshows.described i hi) (mem_modules_described hi)

/-- **The walk of data that show a tidy blueprint** finds the import table that
can be seen of it. -/
theorem walk_of_shows :
    ((b.source d limits).walk b.headers.optional.imports).value
      = .ok (b.visibleTable limits) := by
  unfold visibleTable
  by_cases hdirectory : b.hasImportDirectory = true
  · have himports : b.headers.optional.imports
        = ⟨UInt32.ofNat sectionAddress, UInt32.ofNat b.descriptorTableSize⟩ := by
      show b.importDirectory = _
      unfold importDirectory tableAddress
      rw [if_pos hdirectory, hb.directory]
    have hpos : 0 < b.sectionSize :=
      Nat.lt_of_lt_of_le (by decide) (Nat.le_max_right _ fileAlignment)
    have hmapped := hb.low.fileOffset_addressOf hpos
    have hne : UInt32.ofNat sectionAddress ≠ 0 := by decide
    rw [if_pos hdirectory, himports,
      ImportSource.walk_value_of_mapped hne hmapped]
    exact tableAt_source hb hshows
  · have himports : b.headers.optional.imports = .absent := by
      show b.importDirectory = _
      unfold importDirectory
      rw [if_neg hdirectory]
    rw [if_neg hdirectory, himports]
    exact ImportSource.walk_value_of_absent rfl

/-- **The import table of data that show a tidy blueprint** is the one that can
be seen of it. -/
theorem importTableOf_of_shows (limits : ParseLimits) :
    importTableOf d limits = .ok (b.visibleTable limits) :=
  bind_eq_ok_iff.2
    ⟨b.headers, hshows.hasHeaders.read_eq, walk_of_shows hb hshows⟩

end Blueprint

end DriverAudit
