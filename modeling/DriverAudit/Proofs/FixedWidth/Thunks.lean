import DriverAudit.Proofs.FixedWidth.Reads
import DriverAudit.Proofs.Imports.Loops

/-!
# Addresses and thunks in words

An address is one of 32 bits and so is everything that a section says, so the
file offset of an address is far below the largest word, wherever the section
lies. That is where the loop over the thunks of a module starts. It goes on
only from a thunk inside the data, so it never comes to the largest word, and
the thunks it has passed over are fewer than the bytes.
-/

namespace DriverAudit.FixedWidth

/-! ## Addresses -/

/-- Whether an address lies in a section. -/
def contains (x : Section) (address : UInt32) : Watched Bool := do
  let last ← plus x.virtualAddress.toUInt64 x.mappedSize.toUInt64
  return x.virtualAddress.toUInt64 ≤ address.toUInt64
    && address.toUInt64 < last

/-- The section that decides where an address lies. -/
def covering? (address : UInt32) : SectionTable → Watched (Option Section)
  | [] => return none
  | x :: rest => do
    if ← contains x address then return some x else covering? address rest

/-- **The file offset of an address.** -/
def fileOffset (t : SectionTable) (address : UInt32) :
    Attempt ImageError UInt64 := do
  match ← covering? address t with
  | none => throw (.unmapped address.toUInt64)
  | some x =>
    let distance ← minus32 address x.virtualAddress
    unsaturatedPlus x.rawOffset.toUInt64 distance.toUInt64

/-- **Whether an address lies in a section is decided exactly.** -/
theorem exact_contains (x : Section) (address : UInt32) :
    Exact (contains x address) (x.contains address) := by
  have hstart : x.virtualAddress.toUInt64.toNat = x.virtualAddress.toNat :=
    UInt32.toNat_toUInt64 _
  have hsize : x.mappedSize.toUInt64.toNat = x.mappedSize.toNat :=
    UInt32.toNat_toUInt64 _
  have hlt : x.virtualAddress.toNat < 2 ^ 32 := x.virtualAddress.toNat_lt
  have hlt' : x.mappedSize.toNat < 2 ^ 32 := x.mappedSize.toNat_lt
  obtain ⟨last, hlast, hplus⟩ := exact_plus
    (a := x.virtualAddress.toUInt64) (b := x.mappedSize.toUInt64) (by omega)
  refine Exact.bind hplus ?_
  unfold Section.contains
  simp only [UInt64.le_iff_toNat_le, UInt64.lt_iff_toNat_lt, hlast, hstart,
    hsize, UInt32.toNat_toUInt64]
  exact Exact.pure _

theorem exact_covering? (t : SectionTable) (address : UInt32) :
    Exact (covering? address t) (t.covering? address) := by
  induction t with
  | nil => exact Exact.pure _
  | cons x rest ih =>
    refine Exact.bind (exact_contains x address) ?_
    unfold SectionTable.covering?
    rw [List.find?_cons]
    cases x.contains address with
    | true => exact Exact.pure _
    | false => exact ih

/-- File offsets are far below the largest word. -/
theorem fileOffset_lt {t : SectionTable} {address : UInt32} {offset : Nat}
    (h : t.fileOffset address = .ok offset) : offset < 2 ^ 33 := by
  obtain ⟨x, _, rfl⟩ := SectionTable.fileOffset_eq_ok_iff.1 h
  have hraw : x.rawOffset.toNat < 2 ^ 32 := x.rawOffset.toNat_lt
  have haddress : address.toNat < 2 ^ 32 := address.toNat_lt
  unfold Section.offsetOf
  omega

/-- **Every address is mapped exactly.** The section covers the address, so the
distance is not below zero. -/
theorem exact_fileOffset (t : SectionTable) (address : UInt32) :
    Exact (fileOffset t address).run
      ((t.fileOffset address).map UInt64.ofNat) := by
  refine Exact.lift (exact_covering? t address) ?_
  unfold SectionTable.fileOffset
  cases hx : t.covering? address with
  | none => exact Exact.pure _
  | some x =>
    obtain ⟨_, hstart, _⟩ := SectionTable.mem_of_covering?_eq_some hx
    obtain ⟨distance, hdistance, hminus⟩ := exact_minus32 hstart
    have hraw : x.rawOffset.toUInt64.toNat = x.rawOffset.toNat :=
      UInt32.toNat_toUInt64 _
    have hwide : distance.toUInt64.toNat = distance.toNat :=
      UInt32.toNat_toUInt64 _
    have hlt : x.rawOffset.toNat < 2 ^ 32 := x.rawOffset.toNat_lt
    have hlt' : distance.toNat < 2 ^ 32 := distance.toNat_lt
    obtain ⟨offset, hoffset, hplus⟩ := exact_unsaturatedPlus
      (a := x.rawOffset.toUInt64) (b := distance.toUInt64) (by omega)
    have hsum : offset = UInt64.ofNat (x.offsetOf address) := by
      unfold Section.offsetOf
      rw [← UInt64.toNat_inj, UInt64.toNat_ofNat_of_lt' (by
        show _ < 2 ^ 64
        omega)]
      omega
    show Exact _ (Except.ok (UInt64.ofNat (x.offsetOf address)))
    rw [← hsum]
    exact Exact.lift hminus (Exact.lifted hplus)

/-- A look-up that answers does so with a word far below the largest one. -/
theorem exact_fileOffset_of_ok {t : SectionTable} {address : UInt32}
    {offset : Nat} (h : t.fileOffset address = .ok offset) :
    ∃ place : UInt64, place.toNat = offset ∧ place.toNat < 2 ^ 33
      ∧ Exact (fileOffset t address).run (.ok place) := by
  have hlt := fileOffset_lt h
  have hword : (UInt64.ofNat offset).toNat = offset :=
    UInt64.toNat_ofNat_of_lt' (by show _ < 2 ^ 64; omega)
  have hlookup := exact_fileOffset t address
  rw [h] at hlookup
  exact ⟨UInt64.ofNat offset, hword, hword.symm ▸ hlt, hlookup⟩

theorem exact_fileOffset_of_error {t : SectionTable} {address : UInt32}
    {e : ImageError} (h : t.fileOffset address = .error e) :
    Exact (fileOffset t address).run (.error e) := by
  have hlookup := exact_fileOffset t address
  rw [h] at hlookup
  exact hlookup

/-! ## Thunks -/

/-- How far a walk goes, in words. -/
structure WordLimits where
  nameLength : UInt64
  moduleNameLength : UInt64
  imports : UInt64

/-- **What a walk looks at**, with its limits in words. -/
structure Source where
  data : ByteArray
  sections : SectionTable
  architecture : Architecture
  limits : WordLimits

namespace Source

/-- What the walk that knows no words looks at. -/
def unbounded (s : Source) : ImportSource where
  data := s.data
  sections := s.sections
  architecture := s.architecture
  limits := ⟨s.limits.nameLength.toNat, s.limits.moduleNameLength.toNat,
    s.limits.imports.toNat⟩

/-- The width of a thunk. -/
def thunkWidth (s : Source) : UInt64 := UInt64.ofNat s.architecture.thunkWidth

theorem toNat_thunkWidth (s : Source) :
    s.thunkWidth.toNat = s.architecture.thunkWidth := by
  unfold thunkWidth
  cases s.architecture <;> rfl

/-- The thunk at an offset. -/
def readThunk (s : Source) (offset : UInt64) : Attempt ImageError UInt64 :=
  match s.architecture with
  | .pe32 => do return (← u32At s.data offset).toUInt64
  | .pe32Plus => u64At s.data offset

/-- **What a thunk stands for.** -/
def resolve (s : Source) (thunk : UInt64) : Attempt ImageError ImportEntry :=
  if thunk &&& s.architecture.ordinalFlag ≠ 0 then
    return .byOrdinal thunk.toUInt16
  else if thunk.toNat < UInt32.size then do
    let offset ← fileOffset s.sections thunk.toUInt32
    let hint ← u16At s.data offset
    let place ← unsaturatedPlus offset 2
    let name ← stringAt s.data place s.limits.nameLength
    return .byName hint name
  else throw (.unmapped thunk)

/-- **The thunks of a module under way**: what is left of the budget, and what
has been found so far. -/
structure Thunks where
  budget : UInt64
  entries : List ImportEntry
  skipped : UInt64
  events : List Event

/-- Before the first thunk, nothing has been found. -/
def Thunks.start (budget : UInt64) : Thunks := ⟨budget, [], 0, []⟩

/-- One thunk is paid for and resolved. -/
def follow (s : Source) (name : String) (offset thunk : UInt64) (p : Thunks) :
    Watched Thunks := do
  let budget ← minus p.budget 1
  match ← (s.resolve thunk).run with
  | .ok e => return { p with budget, entries := p.entries ++ [e] }
  | .error e =>
    let skipped ← plus p.skipped 1
    return { p with
      budget
      skipped
      events := p.events ++ [.thunkSkipped name offset.toNat thunk e] }

/-- **The loop over the thunks** of a module. The answer says whether the
budget ended it. -/
def thunks (s : Source) (name : String) (offset : UInt64) (p : Thunks) :
    Watched (Thunks × Bool) := do
  match ← (s.readThunk offset).run with
  | .error e =>
    let skipped ← plus p.skipped 1
    return ({ p with
      skipped
      events := p.events ++ [.thunksCutOff name offset.toNat e] }, false)
  | .ok thunk =>
    if thunk = 0 then return (p, false)
    else if p.budget = 0 then return (p, true)
    else
      let q ← s.follow name offset thunk p
      match _ : checkedPlus offset s.thunkWidth with
      | some next => s.thunks name next q
      | none =>
        Watched.note .noSuccessor
        let skipped ← plus q.skipped 1
        return ({ q with skipped }, false)
termination_by 2 ^ 64 - offset.toNat
decreasing_by
  have hnext := toNat_of_checkedPlus
    ‹checkedPlus offset s.thunkWidth = some next›
  have hlt := next.toNat_lt
  have hpos := s.architecture.thunkWidth_pos
  rw [toNat_thunkWidth] at hnext
  omega

/-! ## Their exactness -/

variable {s : Source} (hd : s.data.size < 2 ^ 63)
include hd

/-- **A thunk is read exactly at every offset.** -/
theorem exact_readThunk (offset : UInt64) :
    Exact (s.readThunk offset).run
      (ofRead (checked s.data offset.toNat s.architecture.thunkWidth
        (s.unbounded.thunkAt offset.toNat))) := by
  unfold readThunk ImportSource.thunkAt unbounded
  cases s.architecture with
  | pe32 =>
    have hwide : ∀ place, (UInt32.ofNat (wordAt s.data place 4)).toUInt64
        = UInt64.ofNat (wordAt s.data place 4) := by
      intro place
      have hlt : wordAt s.data place 4 < 2 ^ 32 := wordAt_lt s.data place 4
      rw [← UInt64.toNat_inj, UInt32.toNat_toUInt64,
        UInt32.toNat_ofNat_of_lt' hlt, UInt64.toNat_ofNat_of_lt' (by
          show _ < 2 ^ 64
          omega)]
    have hread : ofRead (checked s.data offset.toNat 4
          (UInt64.ofNat (wordAt s.data offset.toNat 4)))
        = ofRead (DriverAudit.u32At s.data offset.toNat) >>= fun word =>
            .ok word.toUInt64 := by
      unfold DriverAudit.u32At
      by_cases hin : Inside s.data offset.toNat 4
      · rw [checked_eq_ok_iff.2 ⟨hin, rfl⟩, checked_eq_ok_iff.2 ⟨hin, rfl⟩,
          ← hwide]
        rfl
      · rw [checked_of_not_inside _ hin, checked_of_not_inside _ hin]
        rfl
    show Exact _ (ofRead (checked s.data offset.toNat 4
      (UInt64.ofNat (wordAt s.data offset.toNat 4))))
    rw [hread]
    exact Exact.attempt (exact_u32At hd offset) (fun _ _ => Exact.pure _)
  | pe32Plus => exact exact_u64At hd offset

/-- **Every thunk is resolved exactly.** The hint stands at an offset far below
the largest word, so the name behind it does not need to be cut down. -/
theorem exact_resolve (thunk : UInt64) :
    Exact (s.resolve thunk).run (s.unbounded.resolve thunk) := by
  have harchitecture : s.unbounded.architecture = s.architecture := rfl
  unfold resolve ImportSource.resolve
  rw [harchitecture]
  by_cases hflag : thunk &&& s.architecture.ordinalFlag ≠ 0
  · rw [if_pos hflag, if_pos hflag]
    exact Exact.pure _
  · rw [if_neg hflag, if_neg hflag]
    by_cases hsmall : thunk.toNat < UInt32.size
    · rw [if_pos hsmall, if_pos hsmall]
      show Exact _ (s.sections.fileOffset thunk.toUInt32 >>= _)
      cases hmapped : s.sections.fileOffset thunk.toUInt32 with
      | error e => exact Exact.failed (exact_fileOffset_of_error hmapped)
      | ok _ =>
        obtain ⟨offset, rfl, hlt, hlookup⟩ := exact_fileOffset_of_ok hmapped
        have h2 : (2 : UInt64).toNat = 2 := rfl
        obtain ⟨place, hplace, hplus⟩ := exact_unsaturatedPlus
          (a := offset) (b := 2) (by omega)
        refine Exact.andThen hlookup ?_
        refine Exact.attempt (exact_u16At hd offset) (fun _ _ => ?_)
        refine Exact.lift hplus ?_
        exact Exact.attempt (hplace ▸ exact_stringAt hd place _)
          (fun _ _ => Exact.pure _)
    · rw [if_neg hsmall, if_neg hsmall]
      exact Exact.pure _

omit hd in
/-- **What a module has found after some more thunks.** -/
structure Thunks.Grows (p : Thunks) (entries : List ImportEntry)
    (skipped spent : Nat) (events : List Event) (q : Thunks) : Prop where
  budget : q.budget.toNat + spent = p.budget.toNat
  entries : q.entries = p.entries ++ entries
  skipped : q.skipped.toNat = p.skipped.toNat + skipped
  events : q.events = p.events ++ events

/-- **One thunk is followed exactly** when there is a budget. -/
theorem exact_follow {p : Thunks} (hbudget : p.budget ≠ 0)
    (hskipped : p.skipped.toNat < 2 ^ 63) (name : String)
    (offset thunk : UInt64) :
    let r : ImportSource.Resolution :=
      ⟨offset.toNat, thunk, s.unbounded.resolve thunk⟩
    ∃ q, Exact (s.follow name offset thunk p) q
      ∧ p.Grows r.found?.toList (r.event? name).toList.length 1
          (r.event? name).toList q := by
  intro r
  have h1 : (1 : UInt64).toNat = 1 := rfl
  have hpos : 1 ≤ p.budget.toNat :=
    Nat.one_le_iff_ne_zero.2 (fun h => hbudget (UInt64.toNat_inj.1 h))
  obtain ⟨budget, hspent, hminus⟩ := exact_minus
    (a := p.budget) (b := 1) hpos
  cases hr : s.unbounded.resolve thunk with
  | ok e =>
    refine ⟨{ p with budget, entries := p.entries ++ [e] }, ?_, ?_⟩
    · refine Exact.bind hminus (Exact.bind (exact_resolve hd thunk) ?_)
      rw [hr]
      exact Exact.pure _
    · have hfound : r.found? = some e := congrArg Except.toOption hr
      have hevent : r.event? name = none := by
        simp only [ImportSource.Resolution.event?, r, hr]
      rw [hfound, hevent]
      exact ⟨by rw [hspent]; omega, rfl, rfl, (List.append_nil _).symm⟩
  | error e =>
    obtain ⟨skipped, hcount, hplus⟩ := exact_plus
      (a := p.skipped) (b := 1) (by omega)
    refine ⟨{ p with
      budget
      skipped
      events := p.events ++ [.thunkSkipped name offset.toNat thunk e] },
      ?_, ?_⟩
    · refine Exact.bind hminus (Exact.bind (exact_resolve hd thunk) ?_)
      rw [hr]
      exact Exact.bind hplus (Exact.pure _)
    · have hfound : r.found? = none := congrArg Except.toOption hr
      have hevent : r.event? name
          = some (.thunkSkipped name offset.toNat thunk e) := by
        simp only [ImportSource.Resolution.event?, r, hr]
      rw [hfound, hevent]
      exact ⟨by rw [hspent]; omega, (List.append_nil _).symm, hcount, rfl⟩

omit hd in
theorem Thunks.Grows.trans {p q r : Thunks} {entries more : List ImportEntry}
    {skipped skipped' spent spent' : Nat} {events events' : List Event}
    (h : p.Grows entries skipped spent events q)
    (h' : q.Grows more skipped' spent' events' r) :
    p.Grows (entries ++ more) (skipped + skipped') (spent' + spent)
      (events ++ events') r where
  budget := by rw [← Nat.add_assoc, h'.budget, h.budget]
  entries := by rw [h'.entries, h.entries, List.append_assoc]
  skipped := by rw [h'.skipped, h.skipped, Nat.add_assoc]
  events := by rw [h'.events, h.events, List.append_assoc]

omit hd in
/-- Nothing has been found where nothing was read. -/
theorem Thunks.Grows.refl (p : Thunks) : p.Grows [] 0 0 [] p :=
  ⟨rfl, (List.append_nil _).symm, rfl, (List.append_nil _).symm⟩

/-- **The loop over thunks is exact.** A thunk inside the data leaves room for
the next offset, and each one passed over is as wide as a thunk. -/
theorem exact_thunks (name : String) (offset : UInt64) (p : Thunks)
    (hoffset : offset.toNat < 2 ^ 63)
    (hskipped : p.skipped.toNat ≤ offset.toNat) {c : ImportSource.Contribution}
    (hc : s.unbounded.moduleAt p.budget.toNat name offset.toNat = c) :
    ∃ q, Exact (s.thunks name offset p) (q, c.limited)
      ∧ p.Grows c.module.entries c.module.skippedEntries c.spent c.events
          q := by
  have hthunk := exact_readThunk hd offset
  unfold thunks
  by_cases hin : Inside s.data offset.toNat s.architecture.thunkWidth
  case neg =>
    rw [checked_of_not_inside _ hin] at hthunk
    rw [ImportSource.moduleAt_of_outside hin] at hc
    have h1 : (1 : UInt64).toNat = 1 := rfl
    obtain ⟨skipped, hcount, hplus⟩ := exact_plus
      (a := p.skipped) (b := 1) (by omega)
    subst hc
    exact ⟨_, Exact.bind hthunk (Exact.bind hplus (Exact.pure _)),
      rfl, (List.append_nil _).symm, hcount, rfl⟩
  rw [checked_eq_ok_iff.2 ⟨hin, rfl⟩] at hthunk
  by_cases hzero : s.unbounded.thunkAt offset.toNat = 0
  case pos =>
    rw [ImportSource.moduleAt_of_zero hin hzero] at hc
    subst hc
    refine ⟨p, Exact.bind hthunk ?_, Thunks.Grows.refl p⟩
    dsimp only [ofRead]
    rw [if_pos hzero]
    exact Exact.pure _
  by_cases hbudget : p.budget = 0
  case pos =>
    rw [hbudget, UInt64.toNat_zero,
      ImportSource.moduleAt_of_spent hin hzero] at hc
    subst hc
    refine ⟨p, Exact.bind hthunk ?_, Thunks.Grows.refl p⟩
    dsimp only [ofRead]
    rw [if_neg hzero, if_pos hbudget]
    exact Exact.pure _
  -- the thunk is paid for, and the next offset is a word
  obtain ⟨q, hfollow, hgrows⟩ := exact_follow hd hbudget (by omega) name offset
    (s.unbounded.thunkAt offset.toNat)
  have hwidth := s.toNat_thunkWidth
  have hpos := s.architecture.thunkWidth_pos
  have hend : offset.toNat + s.architecture.thunkWidth ≤ s.data.size := hin
  obtain ⟨next, hnext, hchecked⟩ := checkedPlus_eq_some
    (a := offset) (b := s.thunkWidth) (by omega)
  rw [hwidth] at hnext
  have hskipped' : q.skipped.toNat ≤ next.toNat := by
    have hone := Option.length_toList_le (o := ImportSource.Resolution.event?
      name ⟨offset.toNat, s.unbounded.thunkAt offset.toNat,
        s.unbounded.resolve (s.unbounded.thunkAt offset.toNat)⟩)
    rw [hgrows.skipped]
    omega
  have hcloser : s.data.size - next.toNat < s.data.size - offset.toNat := by
    omega
  obtain ⟨r, hloop, hgrows'⟩ :=
    exact_thunks name next q (by omega) hskipped' rfl
  rw [← hgrows.budget, ImportSource.moduleAt_of_ne_zero hin hzero] at hc
  subst hc
  rw [hnext] at hloop hgrows'
  refine ⟨r, Exact.bind hthunk ?_, hgrows.trans hgrows'⟩
  dsimp only [ofRead]
  rw [if_neg hzero, if_neg hbudget]
  refine Exact.bind hfollow ?_
  split
  case h_1 next' h =>
    obtain rfl := Option.some.inj (hchecked.symm.trans h)
    exact hloop
  case h_2 h => cases hchecked.symm.trans h
termination_by s.data.size - offset.toNat

end Source

end DriverAudit.FixedWidth
