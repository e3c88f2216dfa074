import Mathlib.Algebra.Ring.Nat
import Mathlib.Tactic.SplitIfs

/-!
# Arithmetic in words, watched

Offsets, widths and counters are numbers without bound here, and they are words
of 64 bits on a machine. A word sum that does not fit is not the sum, and what
a machine does then – stop, go on with what is left of it, take another branch
– is never what was meant. So a computation in words is right if it never comes
to that.

A *watched* computation is done in words, with every operation as it is done on
a machine, and it notes each operation that does not have the exact answer
(`Incident`). It is *exact* when nothing is noted and the value is the one that
is expected (`Exact`). Exactness of a long computation comes from that of its
steps, and a step may rely on those before it: a sum fits because the read
before it was inside the data.
-/

namespace DriverAudit.FixedWidth

/-! ## Watched computations -/

/-- **What can go wrong in words.** -/
inductive Incident where
  /-- A sum or product that does not fit. -/
  | overflow
  /-- A difference below zero. -/
  | underflow
  /-- A part taken of bytes that do not have it. -/
  | outOfRange
  /-- A checked sum that has no answer where one is counted on. -/
  | noSuccessor
  /-- A sum that was cut down to the largest word. -/
  | saturated
  deriving DecidableEq, Repr

/-- **A value computed in words**, with what went wrong on the way. -/
structure Watched (α : Type) where
  value : α
  incidents : List Incident

namespace Watched

variable {α β : Type}

/-- A value that needs no computation. -/
protected def pure (value : α) : Watched α := ⟨value, []⟩

/-- First one computation, then another that may use its value. -/
protected def bind (x : Watched α) (f : α → Watched β) : Watched β :=
  ⟨(f x.value).value, x.incidents ++ (f x.value).incidents⟩

instance : Monad Watched where
  pure := Watched.pure
  bind := Watched.bind

/-- Note that something went wrong. -/
def note (i : Incident) : Watched Unit := ⟨(), [i]⟩

/-- A value under a condition that is counted on, with a note if it does not
hold. -/
def expect (p : Prop) [Decidable p] (i : Incident) (value : α) : Watched α :=
  ⟨value, if p then [] else [i]⟩

end Watched

/-- **A computation that may fail**, watched. -/
abbrev Attempt (ε α : Type) := ExceptT ε Watched α

/-! ## Operations -/

/-- Whether the sum of two words is a word. -/
def Fits (a b : UInt64) : Prop := a.toNat + b.toNat < 2 ^ 64

instance (a b : UInt64) : Decidable (Fits a b) :=
  inferInstanceAs (Decidable (_ < _))

/-- A sum, which must fit. -/
def plus (a b : UInt64) : Watched UInt64 :=
  .expect (Fits a b) .overflow (a + b)

/-- A product, which must fit. -/
def times (a b : UInt64) : Watched UInt64 :=
  .expect (a.toNat * b.toNat < 2 ^ 64) .overflow (a * b)

/-- A difference, which must not be below zero. -/
def minus (a b : UInt64) : Watched UInt64 :=
  .expect (b.toNat ≤ a.toNat) .underflow (a - b)

/-- A difference of words of 32 bits, which must not be below zero. -/
def minus32 (a b : UInt32) : Watched UInt32 :=
  .expect (b.toNat ≤ a.toNat) .underflow (a - b)

/-- A sum if it fits. -/
def checkedPlus (a b : UInt64) : Option UInt64 :=
  if Fits a b then some (a + b) else none

/-- A sum, or the largest word if it does not fit. -/
def saturatingPlus (a b : UInt64) : UInt64 :=
  if Fits a b then a + b else UInt64.ofNat (2 ^ 64 - 1)

/-- A sum that is not to be cut down. -/
def unsaturatedPlus (a b : UInt64) : Watched UInt64 :=
  .expect (Fits a b) .saturated (saturatingPlus a b)

/-- The number of bytes of some data. -/
def sizeOf (d : ByteArray) : UInt64 := UInt64.ofNat d.size

/-- The part of some data from one offset up to another, if they have it. -/
def part? (d : ByteArray) (first last : UInt64) : Option ByteArray :=
  if first ≤ last ∧ last ≤ sizeOf d then
    some (d.extract first.toNat last.toNat)
  else none

/-- The part of some data from one offset up to another, which they must
have. -/
def part (d : ByteArray) (first last : UInt64) : Watched ByteArray :=
  .expect (first ≤ last ∧ last ≤ sizeOf d) .outOfRange
    (d.extract first.toNat last.toNat)

/-- A copy of bytes, which must be as many as there is room for. -/
def copied (room : Nat) (d : ByteArray) : Watched ByteArray :=
  .expect (d.size = room) .outOfRange d

/-! ## Exactness -/

/-- **A computation with the expected value and without incident.** -/
structure Exact {α : Type} (x : Watched α) (value : α) : Prop where
  incidents : x.incidents = []
  value : x.value = value

namespace Exact

variable {ε α β : Type}

/-- A computation is exact when it comes to the value without more ado. -/
theorem iff_eq_pure {x : Watched α} {a : α} : Exact x a ↔ x = pure a := by
  constructor
  · rintro ⟨hincidents, hvalue⟩
    cases x
    cases hincidents
    cases hvalue
    rfl
  · rintro rfl
    exact ⟨rfl, rfl⟩

protected theorem pure (a : α) : Exact (pure a) a := ⟨rfl, rfl⟩

/-- **One exact computation after the other is exact.** -/
theorem bind {x : Watched α} {f : α → Watched β} {a : α} {b : β}
    (hx : Exact x a) (hf : Exact (f a) b) : Exact (x >>= f) b := by
  obtain rfl := iff_eq_pure.1 hx
  exact hf

/-- Under a condition that holds, nothing is noted. -/
theorem expect {p : Prop} [Decidable p] {i : Incident} (hp : p) (a : α) :
    Exact (.expect p i a) a :=
  ⟨if_pos hp, rfl⟩

/-- **A computation that fails or goes on** as another one does that is not
watched: the steps behind an exact one may rely on its answer. -/
theorem attempt {x : Attempt ε α} {y : Except ε α}
    {f : α → Attempt ε β} {g : α → Except ε β} (hx : Exact x.run y)
    (hf : ∀ a, y = .ok a → Exact (f a).run (g a)) :
    Exact (x >>= f).run (y >>= g) := by
  have hrun : x = ExceptT.mk (pure y) := iff_eq_pure.1 hx
  rw [hrun]
  cases y with
  | error e => exact Exact.pure _
  | ok a => exact hf a rfl

/-- What follows an exact computation that answers. -/
theorem andThen {x : Attempt ε α} {a : α} {f : α → Attempt ε β}
    {y : Except ε β} (hx : Exact x.run (.ok a)) (hf : Exact (f a).run y) :
    Exact (x >>= f).run y := by
  have hrun : x = ExceptT.mk (pure (.ok a)) := iff_eq_pure.1 hx
  rw [hrun]
  exact hf

/-- Nothing follows an exact computation that fails. -/
theorem failed {x : Attempt ε α} {e : ε} {f : α → Attempt ε β}
    (hx : Exact x.run (.error e)) : Exact (x >>= f).run (.error e) := by
  have hrun : x = ExceptT.mk (pure (.error e)) := iff_eq_pure.1 hx
  rw [hrun]
  exact Exact.pure _

/-- **A computation that cannot fail**, as a step of one that can. -/
theorem lift {x : Watched α} {a : α} {f : α → Attempt ε β} {y : Except ε β}
    (hx : Exact x a) (hf : Exact (f a).run y) :
    Exact ((liftM x : Attempt ε α) >>= f).run y := by
  obtain rfl := iff_eq_pure.1 hx
  exact hf

/-- A computation that cannot fail, as one that could. -/
theorem lifted {x : Watched α} {a : α} (hx : Exact x a) :
    Exact (liftM x : Attempt ε α).run (.ok a) := by
  obtain rfl := iff_eq_pure.1 hx
  exact Exact.pure _

/-- An answer that is there already. -/
theorem answer (y : Except ε α) : Exact (liftM y : Attempt ε α).run y := by
  cases y <;> exact Exact.pure _

end Exact

/-! ## Exact operations -/

variable {a b : UInt64}

theorem toNat_add (h : a.toNat + b.toNat < 2 ^ 64) :
    (a + b).toNat = a.toNat + b.toNat := by
  rw [UInt64.toNat_add, Nat.mod_eq_of_lt h]

/-- **A sum that fits is exact.** -/
theorem exact_plus (h : a.toNat + b.toNat < 2 ^ 64) :
    ∃ c : UInt64, c.toNat = a.toNat + b.toNat ∧ Exact (plus a b) c :=
  ⟨a + b, toNat_add h, Exact.expect h _⟩

theorem exact_times (h : a.toNat * b.toNat < 2 ^ 64) :
    ∃ c : UInt64, c.toNat = a.toNat * b.toNat ∧ Exact (times a b) c := by
  refine ⟨a * b, ?_, Exact.expect h _⟩
  rw [UInt64.toNat_mul, Nat.mod_eq_of_lt h]

theorem exact_minus (h : b.toNat ≤ a.toNat) :
    ∃ c : UInt64, c.toNat = a.toNat - b.toNat ∧ Exact (minus a b) c :=
  ⟨a - b, UInt64.toNat_sub_of_le a b (UInt64.le_iff_toNat_le.2 h),
    Exact.expect h _⟩

theorem exact_minus32 {a b : UInt32} (h : b.toNat ≤ a.toNat) :
    ∃ c : UInt32, c.toNat = a.toNat - b.toNat ∧ Exact (minus32 a b) c :=
  ⟨a - b, UInt32.toNat_sub_of_le a b (UInt32.le_iff_toNat_le.2 h),
    Exact.expect h _⟩

theorem toNat_min (a b : UInt64) :
    (min a b).toNat = min a.toNat b.toNat := by
  rw [Nat.min_def, show min a b = if a ≤ b then a else b from rfl]
  simp only [UInt64.le_iff_toNat_le]
  split <;> rfl

theorem toNat_saturatingPlus (a b : UInt64) :
    (saturatingPlus a b).toNat = min (a.toNat + b.toNat) (2 ^ 64 - 1) := by
  unfold saturatingPlus
  split
  case isTrue h =>
    have hfits : a.toNat + b.toNat < 2 ^ 64 := h
    rw [toNat_add hfits]
    omega
  case isFalse h =>
    have hover : ¬ a.toNat + b.toNat < 2 ^ 64 := h
    rw [UInt64.toNat_ofNat_of_lt' (by decide)]
    omega

theorem exact_unsaturatedPlus (h : a.toNat + b.toNat < 2 ^ 64) :
    ∃ c : UInt64, c.toNat = a.toNat + b.toNat
      ∧ Exact (unsaturatedPlus a b) c := by
  refine ⟨saturatingPlus a b, ?_, Exact.expect h _⟩
  rw [toNat_saturatingPlus]
  omega

/-- **A checked sum has its answer when it fits.** -/
theorem checkedPlus_eq_some (h : a.toNat + b.toNat < 2 ^ 64) :
    ∃ c : UInt64, c.toNat = a.toNat + b.toNat ∧ checkedPlus a b = some c :=
  ⟨a + b, toNat_add h, if_pos h⟩

/-- The answer of a checked sum is the sum. -/
theorem toNat_of_checkedPlus {c : UInt64} (h : checkedPlus a b = some c) :
    c.toNat = a.toNat + b.toNat := by
  unfold checkedPlus at h
  split_ifs at h with hfits
  rw [← Option.some.inj h, toNat_add hfits]

theorem checkedPlus_eq_none (h : ¬ a.toNat + b.toNat < 2 ^ 64) :
    checkedPlus a b = none := if_neg h

theorem toNat_sizeOf {d : ByteArray} (h : d.size < 2 ^ 63) :
    (sizeOf d).toNat = d.size :=
  UInt64.toNat_ofNat_of_lt' (Nat.lt_trans h (by decide))

end DriverAudit.FixedWidth
