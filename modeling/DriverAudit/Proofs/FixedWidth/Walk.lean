import DriverAudit.Proofs.FixedWidth.Headers
import DriverAudit.Proofs.FixedWidth.Thunks

/-!
# The walk in words

The walk goes from one descriptor to the next as long as they are inside the
data, and counts what it has passed over. As many descriptors as the data have
bytes cannot take a counter to its last word, and the imports that are found
have been paid for from a budget that is a word. So the walk in words is the
walk without, whatever the file, the sections and the limits.
-/

namespace DriverAudit.FixedWidth

namespace Source

/-! ## One descriptor -/

/-- The words of a descriptor. -/
def readDescriptor (raw : ByteArray) : Attempt ImageError Descriptor := do
  let lookupTable ← u32At raw 0
  let timestamp ← u32At raw 4
  let forwarderChain ← u32At raw 8
  let moduleName ← u32At raw 12
  let addressTable ← u32At raw 16
  return { lookupTable, timestamp, forwarderChain, moduleName, addressTable }

/-- Where a descriptor leads: the name of its module, and where its table of
thunks starts, if it has one. -/
def readLead (s : Source) (x : Descriptor) :
    Attempt ImageError (String × Option UInt64) := do
  let nameOffset ← fileOffset s.sections x.moduleName
  let name ← stringAt s.data nameOffset s.limits.moduleNameLength
  if x.thunkAddress = 0 then return (name, none)
  else
    let offset ← fileOffset s.sections x.thunkAddress
    return (name, some offset)

/-- **The module of a descriptor**: its name and its thunks, and whether the
budget ended them. -/
def readModule (s : Source) (budget : UInt64) (x : Descriptor) :
    Attempt ImageError (String × Thunks × Bool) := do
  match ← s.readLead x with
  | (name, none) => return (name, .start budget, false)
  | (name, some offset) =>
    let (p, limited) ← s.thunks name offset (.start budget)
    return (name, p, limited)

/-- **A walk under way**, with its counters in words. -/
structure Progress where
  budget : UInt64
  modules : Array ImportModule
  skippedModules : UInt64
  limitedModules : UInt64
  events : Array Event

/-- A walk under way that knows no words. -/
def Progress.unbounded (p : Progress) : ImportSource.Progress :=
  ⟨p.budget.toNat, p.modules, p.skippedModules.toNat, p.limitedModules.toNat,
    p.events⟩

/-- A counter, with one more if there is one more. -/
def countIf (p : Bool) (n : UInt64) : Watched UInt64 :=
  if p then plus n 1 else return n

/-- **One descriptor further.** -/
def advance (s : Source) (p : Progress) (offset : UInt64) (x : Descriptor) :
    Watched Progress := do
  if p.budget = 0 then
    let limitedModules ← plus p.limitedModules 1
    return { p with limitedModules }
  else
    let budget ← minus p.budget 1
    match ← (s.readModule budget x).run with
    | .ok (name, q, limited) =>
      let limitedModules ← countIf limited p.limitedModules
      return { p with
        budget := q.budget
        modules := p.modules.push ⟨name, q.entries, q.skipped.toNat⟩
        limitedModules
        events := p.events ++ q.events }
    | .error e =>
      let skippedModules ← plus p.skippedModules 1
      return { p with
        budget
        skippedModules
        events := p.events.push
          (.descriptorSkipped offset.toNat x.moduleName x.thunkAddress e) }

/-! ## The table -/

/-- **The loop over descriptors**, with what it has found in the end. -/
def descriptors (s : Source) (offset : UInt64) (p : Progress) :
    Watched (Except ImageError Unit × Progress) := do
  match bytesAt s.data offset 20 with
  | .error _ => return (.error (.importTableTruncated offset.toNat), p)
  | .ok raw =>
    match ← (readDescriptor raw).run with
    | .error e => return (.error e, p)
    | .ok x =>
      if x.isSentinel then return (.ok (), p)
      else
        let q ← s.advance p offset x
        match _ : checkedPlus offset 20 with
        | some next => s.descriptors next q
        | none =>
          Watched.note .noSuccessor
          return (.error (.importTableTruncated offset.toNat), q)
termination_by 2 ^ 64 - offset.toNat
decreasing_by
  have hnext : next.toNat = offset.toNat + 20 :=
    toNat_of_checkedPlus ‹checkedPlus offset 20 = some next›
  have hlt := next.toNat_lt
  omega

/-- The number of imports of some modules, from `n` on. -/
def countFrom (n : UInt64) : List ImportModule → Watched UInt64
  | [] => return n
  | m :: rest => do
    let more ← plus n (UInt64.ofNat m.entries.length)
    countFrom more rest

/-- What a walk has found, with an event where the budget has ended it. -/
def report (s : Source) (p : Progress) :
    Watched (Traced (Except ImageError ImportTable)) := do
  let table := p.unbounded.table
  if 0 < p.limitedModules then
    let resolved ← countFrom 0 table.modules
    return ⟨.ok table, p.events.toList ++
      [.importLimitReached s.limits.imports.toNat table.limitedModules
        resolved.toNat]⟩
  else return ⟨.ok table, p.events.toList⟩

/-- **The import table** that a directory locates. -/
def walk (s : Source) (directory : DataDirectory) :
    Watched (Traced (Except ImageError ImportTable)) := do
  if directory.isPresent then
    match ← (fileOffset s.sections directory.address).run with
    | .error _ =>
      return ⟨.error (.importDirectoryUnmapped directory.address), []⟩
    | .ok offset =>
      match ← s.descriptors offset ⟨s.limits.imports, #[], 0, 0, #[]⟩ with
      | (.error e, p) => return ⟨.error e, p.events.toList⟩
      | (.ok (), p) => s.report p
  else return ⟨.ok .empty, []⟩

/-! ## One descriptor is exact -/

/-- **A descriptor is read exactly from its bytes.** -/
theorem exact_readDescriptor {raw : ByteArray} (hraw : raw.size < 2 ^ 63) :
    Exact (readDescriptor raw).run (Descriptor.read raw) := by
  refine Exact.attempt (exact_u32At hraw 0) (fun _ _ => ?_)
  refine Exact.attempt (exact_u32At hraw 4) (fun _ _ => ?_)
  refine Exact.attempt (exact_u32At hraw 8) (fun _ _ => ?_)
  refine Exact.attempt (exact_u32At hraw 12) (fun _ _ => ?_)
  refine Exact.attempt (exact_u32At hraw 16) (fun _ _ => ?_)
  exact Exact.pure _

/-- The bytes of a descriptor hold each of its fields, so reading it from them
does not fail. -/
theorem read_extract {d : ByteArray} {place : Nat}
    (hin : Inside d place Descriptor.byteSize) :
    Descriptor.read (d.extract place (place + Descriptor.byteSize))
      = .ok (Descriptor.atOffset d place) := by
  have hfield : ∀ i, i + 4 ≤ Descriptor.byteSize →
      ofRead (DriverAudit.u32At
          (d.extract place (place + Descriptor.byteSize)) i)
        = .ok (UInt32.ofNat (wordAt d (place + i) 4)) := by
    intro i hi
    have hinside : Inside (d.extract place (place + Descriptor.byteSize)) i 4
        := by
      unfold Inside
      rw [size_extract hin]
      exact hi
    rw [DriverAudit.u32At, checked_eq_ok_iff.2 ⟨hinside, rfl⟩,
      wordAt_extract hin hi]
    rfl
  unfold Descriptor.read
  rw [hfield 0 (by decide), hfield 4 (by decide), hfield 8 (by decide),
    hfield 12 (by decide), hfield 16 (by decide)]
  rfl

variable {s : Source} (hd : s.data.size < 2 ^ 63)
include hd

/-- **A descriptor is followed exactly**, and it leads to thunks far below the
largest word. -/
theorem exact_readLead (x : Descriptor) :
    ∃ y, Exact (s.readLead x).run y
      ∧ s.unbounded.lead x
        = y.map (fun l => ⟨l.1, l.2.map UInt64.toNat⟩)
      ∧ ∀ name offset, y = .ok (name, some offset) →
        offset.toNat < 2 ^ 33 := by
  have hlead : s.unbounded.lead x = (do
      let nameOffset ← s.sections.fileOffset x.moduleName
      let name ← ofRead (DriverAudit.stringAt s.data nameOffset
        s.limits.moduleNameLength.toNat)
      if x.thunkAddress = 0 then return ⟨name, none⟩
      else
        let offset ← s.sections.fileOffset x.thunkAddress
        return ⟨name, some offset⟩) := rfl
  rw [hlead]
  cases hname : s.sections.fileOffset x.moduleName with
  | error e =>
    exact ⟨.error e, Exact.failed (exact_fileOffset_of_error hname), rfl,
      nofun⟩
  | ok _ =>
    obtain ⟨nameOffset, rfl, -, hlookup⟩ := exact_fileOffset_of_ok hname
    have hstring := exact_stringAt hd nameOffset s.limits.moduleNameLength
    show ∃ y, _ ∧ (ofRead _ >>= _) = _ ∧ _
    cases hread : ofRead (DriverAudit.stringAt s.data nameOffset.toNat
        s.limits.moduleNameLength.toNat) with
    | error e =>
      rw [hread] at hstring
      exact ⟨.error e, Exact.andThen hlookup (Exact.failed hstring), rfl,
        nofun⟩
    | ok name =>
      rw [hread] at hstring
      show ∃ y, _ ∧ (if x.thunkAddress = 0 then _ else _) = _ ∧ _
      by_cases hzero : x.thunkAddress = 0
      · refine ⟨.ok (name, none),
          Exact.andThen hlookup (Exact.andThen hstring ?_), if_pos hzero,
          nofun⟩
        rw [if_pos hzero]
        exact Exact.pure _
      rw [if_neg hzero]
      cases htable : s.sections.fileOffset x.thunkAddress with
      | error e =>
        refine ⟨.error e, Exact.andThen hlookup (Exact.andThen hstring ?_),
          rfl, nofun⟩
        rw [if_neg hzero]
        exact Exact.failed (exact_fileOffset_of_error htable)
      | ok _ =>
        obtain ⟨offset, rfl, hlt, htable'⟩ := exact_fileOffset_of_ok htable
        refine ⟨.ok (name, some offset),
          Exact.andThen hlookup (Exact.andThen hstring ?_), rfl, ?_⟩
        · rw [if_neg hzero]
          exact Exact.andThen htable' (Exact.pure _)
        · rintro _ _ ⟨⟩
          exact hlt

theorem exact_readModule_of_error {x : Descriptor} {e : ImageError}
    (h : s.unbounded.lead x = .error e) (budget : UInt64) :
    Exact (s.readModule budget x).run (.error e) := by
  obtain ⟨y, hexact, hlead, -⟩ := exact_readLead hd x
  cases y with
  | error e' =>
    obtain rfl := Except.error.inj (h.symm.trans hlead)
    exact Exact.failed hexact
  | ok _ => cases h.symm.trans hlead

/-- **A module is read exactly** from where its descriptor leads. -/
theorem exact_readModule_of_lead {x : Descriptor} {l : ImportSource.Lead}
    (h : s.unbounded.lead x = .ok l) (budget : UInt64)
    {c : ImportSource.Contribution}
    (hc : s.unbounded.contribution budget.toNat l = c) :
    ∃ q, Exact (s.readModule budget x).run (.ok (l.name, q, c.limited))
      ∧ (Thunks.start budget).Grows c.module.entries c.module.skippedEntries
          c.spent c.events q := by
  obtain ⟨y, hexact, hlead, hlt⟩ := exact_readLead hd x
  cases y with
  | error _ => cases h.symm.trans hlead
  | ok found =>
    obtain ⟨name, table⟩ := found
    obtain rfl := Except.ok.inj (h.symm.trans hlead)
    cases table with
    | none =>
      subst hc
      exact ⟨_, Exact.andThen hexact (Exact.pure _), Thunks.Grows.refl _⟩
    | some offset =>
      have hoffset := hlt name offset rfl
      obtain ⟨q, hthunks, hgrows⟩ := exact_thunks hd name offset
        (Thunks.start budget) (by omega) (Nat.zero_le _) hc
      exact ⟨q, Exact.andThen hexact (Exact.lift hthunks (Exact.pure _)),
        hgrows⟩

omit hd in
/-- A descriptor is paid for from a budget that is not spent. -/
theorem exact_pay {p : Progress} {budget : Nat}
    (h : p.unbounded.budget = budget + 1) :
    ∃ paid : UInt64, paid.toNat = budget ∧ p.budget ≠ 0
      ∧ Exact (minus p.budget 1) paid := by
  have hbudget : p.budget.toNat = budget + 1 := h
  have h1 : (1 : UInt64).toNat = 1 := rfl
  obtain ⟨paid, hpaid, hminus⟩ := exact_minus
    (a := p.budget) (b := 1) (by omega)
  refine ⟨paid, by omega, fun hzero => ?_, hminus⟩
  rw [hzero] at hbudget
  cases hbudget

omit hd in
/-- A counter that has room for one more, where there is one more. -/
theorem exact_countIf (p : Bool) {n : UInt64} (hn : n.toNat < 2 ^ 63) :
    ∃ more : UInt64, more.toNat = n.toNat + (if p then 1 else 0)
      ∧ Exact (countIf p n) more := by
  have h1 : (1 : UInt64).toNat = 1 := rfl
  cases p with
  | true =>
    obtain ⟨more, hmore, hplus⟩ := exact_plus (a := n) (b := 1)
      (by rw [h1]; omega)
    exact ⟨more, hmore, hplus⟩
  | false => exact ⟨n, rfl, Exact.pure n⟩

/-- **One descriptor is followed exactly** while there is room for one more in
the counters. -/
theorem exact_advance {p : Progress} (hskipped : p.skippedModules.toNat < 2 ^ 63)
    (hlimited : p.limitedModules.toNat < 2 ^ 63) (offset : UInt64) :
    ∃ q, Exact (s.advance p offset
          (Descriptor.atOffset s.data offset.toNat)) q
      ∧ q.unbounded = s.unbounded.advance p.unbounded offset.toNat := by
  have h1 : (1 : UInt64).toNat = 1 := rfl
  obtain ⟨limitedModules, hmore, hlimit⟩ := exact_plus
    (a := p.limitedModules) (b := 1) (by omega)
  obtain ⟨hbudget, ha⟩ | ⟨budget, e, hbudget, hlead, ha⟩
      | ⟨budget, l, hbudget, hlead, ha⟩ :=
    ImportSource.advance_cases s.unbounded p.unbounded offset.toNat
  · have hzero : p.budget = 0 := UInt64.toNat_inj.1 hbudget
    refine ⟨{ p with limitedModules }, ?_, ?_⟩
    · rw [advance, if_pos hzero]
      exact Exact.bind hlimit (Exact.pure _)
    · rw [ha]
      simp only [Progress.unbounded, hmore, h1]
  · obtain ⟨paid, hpaid, hne, hminus⟩ := exact_pay hbudget
    obtain ⟨skippedModules, hcount, hplus⟩ := exact_plus
      (a := p.skippedModules) (b := 1) (by omega)
    refine ⟨{ p with
      budget := paid
      skippedModules
      events := p.events.push (.descriptorSkipped offset.toNat
        (Descriptor.atOffset s.data offset.toNat).moduleName
        (Descriptor.atOffset s.data offset.toNat).thunkAddress e) }, ?_, ?_⟩
    · rw [advance, if_neg hne]
      refine Exact.bind hminus
        (Exact.bind (exact_readModule_of_error hd hlead paid) ?_)
      exact Exact.bind hplus (Exact.pure _)
    · rw [ha]
      simp only [Progress.unbounded, ImportSource.Progress.passOver, hpaid,
        hcount, h1]
      rfl
  · obtain ⟨paid, hpaid, hne, hminus⟩ := exact_pay hbudget
    obtain ⟨q, hmodule, hgrows⟩ := exact_readModule_of_lead hd hlead paid rfl
    rw [hpaid] at hmodule hgrows
    obtain ⟨w, hcount, hplus⟩ := exact_countIf
      (s.unbounded.contribution budget l).limited hlimited
    refine ⟨{ p with
      budget := q.budget
      modules := p.modules.push ⟨l.name, q.entries, q.skipped.toNat⟩
      limitedModules := w
      events := p.events ++ q.events }, ?_, ?_⟩
    · rw [advance, if_neg hne]
      refine Exact.bind hminus (Exact.bind hmodule ?_)
      exact Exact.bind hplus (Exact.pure _)
    · have hmodule' : (s.unbounded.contribution budget l).module
          = ⟨l.name, q.entries, q.skipped.toNat⟩ := by
        refine ImportModule.ext (ImportSource.contribution_name ..) ?_ ?_
        · exact hgrows.entries.symm
        · exact (hgrows.skipped.trans (Nat.zero_add _)).symm
      have hevents : q.events = (s.unbounded.contribution budget l).events :=
        hgrows.events
      have hbudget' : q.budget.toNat
          = budget - (s.unbounded.contribution budget l).spent := by
        have hspent : q.budget.toNat
            + (s.unbounded.contribution budget l).spent = paid.toNat :=
          hgrows.budget
        omega
      rw [ha]
      simp only [Progress.unbounded, ImportSource.Progress.add, hmodule',
        hevents, hbudget', hcount]

/-! ## All descriptors are exact -/

/-- **The loop over descriptors is exact.** A descriptor inside the data leaves
room for the next offset, and no counter goes further than the walk. -/
theorem exact_descriptors {limit : Nat} (offset : UInt64) (p : Progress)
    (hoffset : offset.toNat < 2 ^ 63)
    (hp : p.unbounded.Within limit offset.toNat) :
    ∃ q, Exact (s.descriptors offset p)
        ((s.unbounded.runFrom offset.toNat p.unbounded).1, q)
      ∧ q.unbounded = (s.unbounded.runFrom offset.toNat p.unbounded).2
      ∧ q.unbounded.table.count ≤ limit := by
  have hskipped : p.skippedModules.toNat ≤ offset.toNat := hp.skipped
  have hlimited : p.limitedModules.toNat ≤ offset.toNat := hp.limited
  have hbytes := bytesAt_eq hd offset 20
  unfold descriptors
  by_cases hin : Inside s.data offset.toNat Descriptor.byteSize
  case neg =>
    have hraw : bytesAt s.data offset 20
        = .error (.unreadable (.outOfBounds offset.toNat 20 s.data.size)) :=
      hbytes.trans (congrArg ofRead (checked_of_not_inside _ hin))
    rw [ImportSource.runFrom_of_outside hin, hraw]
    exact ⟨p, Exact.pure _, rfl, Nat.le_trans (Nat.le_add_right _ _) hp.found⟩
  have hraw : bytesAt s.data offset 20 = .ok (s.data.extract offset.toNat
      (offset.toNat + Descriptor.byteSize)) :=
    hbytes.trans (congrArg ofRead (checked_eq_ok_iff.2 ⟨hin, rfl⟩))
  have hsize : (s.data.extract offset.toNat
      (offset.toNat + Descriptor.byteSize)).size = 20 := size_extract hin
  have hread : Exact (readDescriptor (s.data.extract offset.toNat
      (offset.toNat + Descriptor.byteSize))).run _ :=
    exact_readDescriptor (by omega)
  rw [read_extract hin] at hread
  rw [hraw]
  by_cases hsentinel :
    (Descriptor.atOffset s.data offset.toNat).isSentinel = true
  case pos =>
    rw [ImportSource.runFrom_of_isSentinel (s := s.unbounded) hin
      hsentinel]
    refine ⟨p, Exact.bind hread ?_, rfl,
      Nat.le_trans (Nat.le_add_right _ _) hp.found⟩
    dsimp only
    rw [if_pos hsentinel]
    exact Exact.pure _
  -- the descriptor is followed, and the next offset is a word
  obtain ⟨q, hadvance, hq⟩ := exact_advance hd (p := p) (by omega) (by omega)
    offset
  have hend : offset.toNat + 20 ≤ s.data.size := hin
  have h20 : (20 : UInt64).toNat = 20 := rfl
  obtain ⟨next, hnext, hchecked⟩ := checkedPlus_eq_some
    (a := offset) (b := 20) (by omega)
  have hcloser : s.data.size - next.toNat < s.data.size - offset.toNat := by
    omega
  have hwithin : q.unbounded.Within limit next.toNat := by
    rw [hq]
    exact hp.advance (by omega)
  obtain ⟨r, hloop, hr⟩ := exact_descriptors next q (by omega) hwithin
  have hplace : next.toNat = offset.toNat + Descriptor.byteSize := hnext
  rw [hplace, hq, ← ImportSource.runFrom_of_not_isSentinel
    (s := s.unbounded) hin hsentinel]
    at hloop hr
  refine ⟨r, Exact.bind hread ?_, hr⟩
  dsimp only
  rw [if_neg hsentinel]
  refine Exact.bind hadvance ?_
  split
  case h_1 next' h =>
    obtain rfl := Option.some.inj (hchecked.symm.trans h)
    exact hloop
  case h_2 h => cases hchecked.symm.trans h
termination_by s.data.size - offset.toNat

omit hd in
/-- The imports of some modules are counted exactly where their number is a
word. -/
theorem exact_countFrom (modules : List ImportModule) (n : UInt64)
    (h : n.toNat + (ImportTable.mk modules 0 0).count < 2 ^ 64) :
    ∃ total : UInt64,
      total.toNat = n.toNat + (ImportTable.mk modules 0 0).count
        ∧ Exact (countFrom n modules) total := by
  induction modules generalizing n with
  | nil => exact ⟨n, rfl, Exact.pure n⟩
  | cons m rest ih =>
    have hcount : (ImportTable.mk (m :: rest) 0 0).count
        = m.entries.length + (ImportTable.mk rest 0 0).count := rfl
    have hentries : (UInt64.ofNat m.entries.length).toNat = m.entries.length :=
      UInt64.toNat_ofNat_of_lt' (by show _ < 2 ^ 64; omega)
    obtain ⟨more, hmore, hplus⟩ := exact_plus
      (a := n) (b := UInt64.ofNat m.entries.length) (by omega)
    obtain ⟨total, htotal, hrest⟩ := ih more (by omega)
    exact ⟨total, by omega, Exact.bind hplus hrest⟩

omit hd in
/-- **A limited walk reports the imports that it has found**, which have been
paid for from the limit. -/
theorem exact_report {p : Progress}
    (h : p.unbounded.table.count ≤ s.limits.imports.toNat) :
    Exact (s.report p) ⟨.ok p.unbounded.table, p.unbounded.events.toList
      ++ if p.unbounded.table.isLimited then
          [Event.importLimitReached s.unbounded.limits.imports
            p.unbounded.table.limitedModules p.unbounded.table.count]
        else []⟩ := by
  have hlimit : s.limits.imports.toNat < 2 ^ 64 := s.limits.imports.toNat_lt
  have hzero : (0 : UInt64).toNat = 0 := rfl
  have hlimited : p.unbounded.table.isLimited = true
      ↔ 0 < p.limitedModules := by
    rw [ImportTable.isLimited, decide_eq_true_iff, UInt64.lt_iff_toNat_lt]
    exact Iff.rfl
  have hcount : (ImportTable.mk p.unbounded.table.modules 0 0).count
      = p.unbounded.table.count := rfl
  unfold report
  by_cases hl : 0 < p.limitedModules
  · obtain ⟨total, htotal, hsum⟩ := exact_countFrom
      p.unbounded.table.modules 0 (by omega)
    have htotal : total.toNat = p.unbounded.table.count := by omega
    rw [if_pos hl, if_pos (hlimited.2 hl), ← htotal]
    exact Exact.bind hsum (Exact.pure _)
  · rw [if_neg hl, if_neg (mt hlimited.1 hl), List.append_nil]
    exact Exact.pure _

/-- **The walk in words is the walk**, and nothing is noted on the way. -/
theorem exact_walk (directory : DataDirectory) :
    Exact (s.walk directory) (s.unbounded.walk directory) := by
  unfold walk ImportSource.walk
  by_cases hpresent : directory.isPresent = true
  case neg =>
    rw [if_neg hpresent, if_neg hpresent]
    exact Exact.pure _
  rw [if_pos hpresent, if_pos hpresent]
  have hsections : s.unbounded.sections = s.sections := rfl
  rw [hsections]
  cases hmapped : s.sections.fileOffset directory.address with
  | error e =>
    exact Exact.bind (exact_fileOffset_of_error hmapped) (Exact.pure _)
  | ok _ =>
    obtain ⟨offset, rfl, hlt, hlookup⟩ := exact_fileOffset_of_ok hmapped
    obtain ⟨p, hloop, hp, hcount⟩ := exact_descriptors hd offset
      ⟨s.limits.imports, #[], 0, 0, #[]⟩ (by omega)
      (ImportSource.Progress.within_start s.limits.imports.toNat _)
    have hstart : (⟨s.limits.imports, #[], 0, 0, #[]⟩ : Progress).unbounded
        = .start s.unbounded.limits.imports := rfl
    rw [hstart] at hloop hp
    refine Exact.bind hlookup (Exact.bind hloop ?_)
    show Exact _ (s.unbounded.tableAt offset.toNat)
    rw [ImportSource.tableAt_eq_runFrom]
    generalize s.unbounded.runFrom offset.toNat
      (.start s.unbounded.limits.imports) = found at hp ⊢
    obtain ⟨outcome, t⟩ := found
    subst hp
    cases outcome with
    | error e => exact Exact.pure _
    | ok _ => exact exact_report hcount

end Source

/-! ## All parts -/

/-- **Data on which nothing goes wrong in words.** Each part of the parser
comes to what it comes to without words, at every offset that a word can be,
and notes no incident: no sum or product is too large, no difference is below
zero, no part is out of range, no next offset is missing and no offset is cut
down. -/
structure Faultless (d : ByteArray) : Prop where
  bytes : ∀ offset width : UInt64,
    (bytesAt d offset width).map (·.data.toList)
      = ofRead (DriverAudit.bytesAt d offset.toNat width.toNat)
  word16 : ∀ offset : UInt64,
    Exact (u16At d offset).run (ofRead (DriverAudit.u16At d offset.toNat))
  word32 : ∀ offset : UInt64,
    Exact (u32At d offset).run (ofRead (DriverAudit.u32At d offset.toNat))
  word64 : ∀ offset : UInt64,
    Exact (u64At d offset).run (ofRead (DriverAudit.u64At d offset.toNat))
  string : ∀ offset ceiling : UInt64,
    Exact (stringAt d offset ceiling).run
      (ofRead (DriverAudit.stringAt d offset.toNat ceiling.toNat))
  stub : Exact (readStub d).run (StubHeader.read d)
  file : ∀ offset : UInt64,
    Exact (readFile d offset).run (FileHeader.read d offset.toNat)
  optional : ∀ (offset : UInt64) (size : UInt16),
    Exact (readOptional d offset size).run
      (OptionalHeader.read d offset.toNat size)
  sections : ∀ (offset : UInt64) (count : UInt16),
    Exact (readSections d offset count).run
      (SectionTable.headersAt d offset.toNat count.toNat)
  headers : Exact (readHeaders d).run (Headers.read d)
  contains : ∀ (x : Section) (address : UInt32),
    Exact (FixedWidth.contains x address) (x.contains address)
  fileOffset : ∀ (t : SectionTable) (address : UInt32),
    Exact (do return (← FixedWidth.fileOffset t address).toNat
        : Attempt ImageError Nat).run
      (t.fileOffset address)
  walk : ∀ (s : Source) (directory : DataDirectory), s.data = d →
    Exact (s.walk directory) (s.unbounded.walk directory)

/-- **No arithmetic goes wrong** on data of less than 2⁶³ bytes, whatever the
bytes, the sections and the limits are. -/
theorem faultless_of_size_le {d : ByteArray} (h : d.size ≤ 2 ^ 63 - 1) :
    Faultless d := by
  have hd : d.size < 2 ^ 63 := by omega
  refine {
    bytes := fun offset width => ?_
    word16 := exact_u16At hd
    word32 := exact_u32At hd
    word64 := exact_u64At hd
    string := exact_stringAt hd
    stub := exact_readStub hd
    file := exact_readFile hd
    optional := exact_readOptional hd
    sections := exact_readSections hd
    headers := exact_readHeaders hd
    contains := exact_contains
    fileOffset := fun t address => ?_
    walk := fun s directory hs => ?_ }
  · rw [bytesAt_eq hd]
    unfold DriverAudit.bytesAt DriverAudit.checked
    split <;> rfl
  · cases hoffset : t.fileOffset address with
    | error e => exact Exact.failed (exact_fileOffset_of_error hoffset)
    | ok _ =>
      obtain ⟨offset, rfl, -, hlookup⟩ := exact_fileOffset_of_ok hoffset
      exact Exact.andThen hlookup (Exact.pure _)
  · subst hs
    exact Source.exact_walk hd directory

/-- At the last word, and in a walk without a budget. -/
theorem faultless_truncated :
    ImportSource.truncated.data.size ≤ 2 ^ 63 - 1
      ∧ (readSections ImportSource.truncated.data 0xFFFFFFFFFFFFFFFF 2).run
        = pure (.error (.unreadable (.outOfBounds 0xFFFFFFFFFFFFFFFF 40 30)))
      ∧ ((Source.mk ImportSource.truncated.data ImportSource.truncated.sections
          .pe32 ⟨0xFFFFFFFFFFFFFFFF, 0, 0⟩).walk ⟨0x1000, 0⟩).incidents
        = [] := by
  have hsize : ImportSource.truncated.data.size ≤ 2 ^ 63 - 1 := by decide
  have h := faultless_of_size_le hsize
  exact ⟨hsize, Exact.iff_eq_pure.1 (h.sections 0xFFFFFFFFFFFFFFFF 2),
    (h.walk _ _ rfl).incidents⟩

end DriverAudit.FixedWidth
