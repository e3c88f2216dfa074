import DriverAudit.Proofs.Bytes.Overwriting
import DriverAudit.Proofs.Image.Order
import DriverAudit.Proofs.Scan.BuiltImages

/-!
# Binding an image does not change what it imports

An image can be bound ahead of time: the address tables of its modules are
overwritten with the addresses of the routines themselves, and some fields of
the descriptors say when, and where the table is. A module with a lookup table
still has its imports there.

Here any values at all may be written over these bytes: a word of zeros, which
would end a table, a number, or an address that leads anywhere. None of them is
ever looked at, since each piece of the image that a walk does look at lies
outside the bytes that binding may overwrite. So the image still shows its
blueprint (`Shows.of_overwritten`), and has the import table that it had.
-/

namespace DriverAudit.Blueprint

/-- **The bytes that binding may overwrite**, by their place in the file. -/
inductive Bindable (b : Blueprint) (n : Nat) : Prop where
  /-- The address table of a module that has a lookup table. -/
  | table (x : ModuleSpec × ModuleLayout) (hx : x ∈ b.placed)
      (hlookup : x.1.hasLookupTable = true)
      (hle : sectionOffset + x.2.addressTable ≤ n)
      (hlt : n < sectionOffset + x.2.addressTable
        + thunkTableSize b.architecture x.1)
  /-- The time stamp, the forwarder chain and the address of the address table,
  in the descriptor of such a module or in a copy of it. -/
  | field (k i : Nat) (hk : k < b.described.length)
      (hlookup : b.described[k].1.hasLookupTable = true)
      (hi : 4 ≤ i ∧ i < 12 ∨ 16 ≤ i ∧ i < 20)
      (hn : n = sectionOffset + k * descriptorSize + i)

variable {b : Blueprint} {n : Nat}

/-! ## What lies outside -/

/-- Nothing in front of the section is overwritten. -/
theorem not_bindable_of_lt (h : n < sectionOffset) : ¬ b.Bindable n := by
  rintro (⟨x, hx, hlookup, hle, hlt⟩ | ⟨k, i, hk, hlookup, hi, hn⟩) <;> omega

/-- **What is overwritten in a descriptor** are three of its fields, if its
module has a lookup table. -/
theorem Bindable.of_descriptor {k i : Nat} (hk : k ≤ b.described.length)
    (hi : i < descriptorSize)
    (h : b.Bindable (sectionOffset + k * descriptorSize + i)) :
    ∃ hk : k < b.described.length, b.described[k].1.hasLookupTable = true
      ∧ (4 ≤ i ∧ i < 12 ∨ 16 ≤ i ∧ i < 20) := by
  have hsize := b.descriptorTableSize_eq
  unfold descriptorSize at *
  rcases h with ⟨x, hx, hlookup, hle, hlt⟩ | ⟨k', i', hk', hlookup, hi', hn⟩
  · -- the tables are behind all descriptors
    have hfirst := (liesWithin_of_mem_placed hx).first_le
    have htable := (liesWithin_of_mem_placed hx).addressTable_eq
    omega
  · unfold descriptorSize at hn
    obtain rfl : k = k' := by omega
    obtain rfl : i = i' := by omega
    exact ⟨hk', hlookup, hi'⟩

/-- The table that is read of a module is not overwritten. -/
theorem not_bindable_readTable {x : ModuleSpec × ModuleLayout}
    (hx : x ∈ b.placed) {i : Nat} (hi : i < thunkTableSize b.architecture x.1) :
    ¬ b.Bindable (sectionOffset + readTable x.1 x.2 + i) := by
  have hlies := liesWithin_of_mem_placed hx
  have hfirst := hlies.first_le
  have htable := hlies.addressTable_eq
  unfold readTable
  rintro (⟨y, hy, hlookup, hle, hlt⟩ | ⟨k, i', hk, _, hi', hn⟩)
  · have htable' := (liesWithin_of_mem_placed hy).addressTable_eq
    by_cases heq : x = y
    · -- of the module itself the other table is overwritten
      subst heq
      rw [if_pos hlookup] at hle
      omega
    · rcases tablesBefore_or_of_ne hx hy heq with hbefore | hbefore
      · unfold TablesBefore at hbefore
        split at hle <;> omega
      · unfold TablesBefore at hbefore
        split at hlt <;> omega
  · have hsize := b.descriptorTableSize_eq
    unfold descriptorSize at *
    split at hn <;> omega

/-- The names, and what comes behind them, are not overwritten. -/
theorem not_bindable_of_namesStart_le {position : Nat}
    (h : b.namesStart ≤ position) (i : Nat) :
    ¬ b.Bindable (sectionOffset + position + i) := by
  have htables := le_placeTables b.architecture b.descriptorTableSize b.modules
  rintro (⟨x, hx, hlookup, hle, hlt⟩ | ⟨k, i', hk, _, hi', hn⟩)
  · have hlast := (liesWithin_of_mem_placed hx).le_last
    omega
  · have hsize := b.descriptorTableSize_eq
    unfold descriptorSize at *
    unfold namesStart at h
    omega

/-! ## What is left -/

variable {d e : ByteArray}

/-- **Overwritten data show what they showed.** -/
theorem Shows.of_overwritten (h : b.Shows d)
    (he : OverwrittenIn b.Bindable d e) : b.Shows e where
  size_eq := he.size_eq.trans h.size_eq
  headers := he.hasAt h.headers fun i hi => by
    have hlength := b.length_headerBytes
    exact not_bindable_of_lt (by omega)
  described k hk := by
    have hfields := h.described k hk
    -- a field stays unless it is one of those that are overwritten
    have hfield : ∀ {i v : Nat}, i + 4 ≤ descriptorSize →
        (b.described[k].1.hasLookupTable = true →
          i + 4 ≤ 4 ∨ 12 ≤ i ∧ i + 4 ≤ 16) →
        HasAt d (sectionOffset + k * descriptorSize + i) (wordBytes 4 v) →
        HasAt e (sectionOffset + k * descriptorSize + i) (wordBytes 4 v) := by
      intro i v hi hkept hword
      refine he.hasAt hword (fun j hj hbindable => ?_)
      rw [length_wordBytes] at hj
      rw [Nat.add_assoc] at hbindable
      obtain ⟨_, hlookup, hwhere⟩ :=
        hbindable.of_descriptor (Nat.le_of_lt hk) (by omega)
      have hplace := hkept hlookup
      omega
    refine ⟨?_, ?_, ?_, fun hlookup => ?_⟩
    · have hinside := hfields.inside
      unfold Inside at hinside ⊢
      rwa [he.size_eq]
    · exact hfield (i := 0) (by decide) (fun _ => Or.inl (Nat.le_refl _))
        hfields.lookupTable
    · exact hfield (by decide) (fun _ => Or.inr ⟨Nat.le_refl _, Nat.le_refl _⟩)
        hfields.name
    · refine hfield (by decide) (fun htrue => ?_) (hfields.addressTable hlookup)
      rw [hlookup] at htrue
      cases htrue
  endMark := he.hasAt h.endMark fun i hi hbindable => by
    rw [length_zeros] at hi
    obtain ⟨hlt, _⟩ := hbindable.of_descriptor (Nat.le_refl _) hi
    exact absurd hlt (Nat.lt_irrefl _)
  placed x hx := by
    have hpieces := h.placed x hx
    have hlies := liesWithin_of_mem_placed hx
    refine ⟨hpieces.hintNames_length, ?_, fun slot text hslot => ?_, ?_⟩
    · refine he.hasAt hpieces.table (fun i hi => ?_)
      rw [length_thunkTableBytes hpieces.hintNames_length] at hi
      exact not_bindable_readTable hx hi
    · obtain ⟨position, hposition, hentry⟩ := hpieces.hintName slot text hslot
      refine ⟨position, hposition, he.hasAt hentry (fun i _ => ?_)⟩
      refine not_bindable_of_namesStart_le (hlies.hintNames_ge position ?_) i
      exact List.mem_of_getElem? hposition
    · exact he.hasAt hpieces.name
        (fun i _ => not_bindable_of_namesStart_le hlies.name_ge i)

/-- **Binding an image does not change what it imports.** Of every tidy
blueprint, whatever is written over the address tables of modules that have a
lookup table, and over the time stamps, the forwarder chains and the addresses
of these tables in their descriptors and the copies of them, the import table
stays the same under any limits. -/
theorem importTableOf_of_overwritten (hb : b.Tidy) (limits : ParseLimits)
    (he : OverwrittenIn b.Bindable b.build e) :
    ∃ t, importTableOf b.build limits = .ok t ∧ importTableOf e limits = .ok t :=
  have hshows := b.shows_build
  ⟨b.visibleTable limits, importTableOf_of_shows hb hshows limits,
    importTableOf_of_shows hb (hshows.of_overwritten he) limits⟩

/-- The sample with another byte at the start of its first address table. -/
theorem importTableOf_of_overwritten_sample :
    sample.Tidy
      ∧ OverwrittenIn sample.Bindable sample.build
        (overwrite sample.build 608 0xAB)
      ∧ ∃ t, importTableOf sample.build .default = .ok t
        ∧ importTableOf (overwrite sample.build 608 0xAB) .default = .ok t := by
  have htidy : sample.Tidy := readable_sample.tidy
  have hbindable : sample.Bindable 608 :=
    .table (sample.placed.get ⟨0, by decide⟩) (List.get_mem _ _) (by decide)
      (by decide) (by decide)
  have hover := overwrittenIn_overwrite hbindable sample.build 0xAB
  exact ⟨htidy, hover, importTableOf_of_overwritten htidy .default hover⟩

end DriverAudit.Blueprint
