import DriverAudit.Proofs.Image.BuiltHeaders

/-!
# Data that show a blueprint

A walk of an image does not look at all of its bytes. Of a built image it looks
at the headers; of each descriptor at the address of the name and at that of
the table to read; of each module at that table, at the hint/name entries and
at the name; and at the end mark of the descriptors. Of the two tables of a
module it looks at one.

Data of the same size that have all of these at their places *show* the
blueprint, whatever their other bytes are (`Shows`). A built image shows its
own blueprint, and everything that is known of walks of built images is known
because of that. So it holds as well of an image in which other bytes have been
overwritten.
-/

namespace DriverAudit.Blueprint

variable {d : ByteArray} {offset : Nat} {m : ModuleSpec} {l : ModuleLayout}

/-- The address that a descriptor gives for the name. -/
def nameField (m : ModuleSpec) (l : ModuleLayout) : Nat :=
  match m.nameAddress with
  | some address => address.toNat
  | none => addressOf l.name

/-- **The fields of a descriptor that a walk goes by.** Where there is a lookup
table, the address table is not one of them. -/
structure DescribedAt (d : ByteArray) (offset : Nat) (m : ModuleSpec)
    (l : ModuleLayout) : Prop where
  inside : Inside d offset descriptorSize
  lookupTable : HasAt d offset
    (wordBytes 4 (if m.hasLookupTable then addressOf l.lookupTable else 0))
  name : HasAt d (offset + 12) (wordBytes 4 (nameField m l))
  addressTable : m.hasLookupTable = false →
    HasAt d (offset + 16) (wordBytes 4 (addressOf l.addressTable))

/-- A descriptor that was written has all its fields. -/
theorem describedAt_of_hasAt (h : HasAt d offset (descriptorBytes m l)) :
    DescribedAt d offset m l := by
  have hinside := h.inside (by rw [length_descriptorBytes]; decide)
  rw [length_descriptorBytes] at hinside
  unfold descriptorBytes at h
  simp only [HasAt.append_iff, List.length_append, length_wordBytes,
    length_zeros] at h
  obtain ⟨⟨⟨hlookup, _⟩, hname⟩, haddress⟩ := h
  exact ⟨hinside, hlookup, hname, fun _ => haddress⟩

/-- **Data that show a blueprint.** -/
structure Shows (b : Blueprint) (d : ByteArray) : Prop where
  size_eq : d.size = b.build.size
  headers : HasAt d 0 b.headerBytes
  described : ∀ i (hi : i < b.described.length),
    DescribedAt d (sectionOffset + i * descriptorSize)
      b.described[i].1 b.described[i].2
  endMark : HasAt d (sectionOffset + b.described.length * descriptorSize)
    (zeros descriptorSize)
  placed : ∀ x ∈ b.placed,
    PlacedAt d sectionOffset b.architecture x.1 x.2

/-- **A built image shows its blueprint.** -/
theorem shows_build (b : Blueprint) : b.Shows b.build where
  size_eq := rfl
  headers := b.hasAt_headers
  described _ hi := describedAt_of_hasAt (b.hasAt_descriptor hi)
  endMark := b.hasAt_sentinel
  placed _ hx := b.placedAt_of_mem hx

variable {b : Blueprint}

/-- Data that show a blueprint start with its headers. -/
theorem Shows.hasHeaders (h : b.Shows d) : b.HasHeaders d where
  size_le := h.size_eq ▸ b.hasHeaders_build.size_le
  hasAt := h.headers

/-- The pieces of a described module are in the data. -/
theorem Shows.placedAt_described (h : b.Shows d) {i : Nat}
    (hi : i < b.described.length) :
    PlacedAt d sectionOffset b.architecture b.described[i].1
      b.described[i].2 :=
  h.placed _ (mem_of_mem_shareFirst (List.getElem_mem hi))

theorem mem_modules_described {i : Nat} (hi : i < b.described.length) :
    b.described[i].1 ∈ b.modules := by
  rw [← map_fst_placed]
  exact List.mem_map_of_mem (mem_of_mem_shareFirst (List.getElem_mem hi))

end DriverAudit.Blueprint
