import DriverAudit.Proofs.Text.Lossless
import Mathlib.Data.List.Basic

/-!
# Cutting bytes of text where an ASCII character stands

A line feed, a slash or a quote is one byte in UTF-8, and no other character
has that byte among its own. So it does not matter whether text is cut at such
a character before it is decoded or after: the pieces of the bytes are the
bytes of the pieces (`splitOn_flatMap`). And bytes are text if the pieces to
both sides of the cut are, so that something that is no text stays inside its
piece (`isText_append_cons_iff`).
-/

namespace DriverAudit

/-! ## Pieces of coded letters -/

section Pieces

variable {α β : Type} [DecidableEq α] [DecidableEq β]

omit [DecidableEq α] in
/-- Letters other than the one to split at belong to the first piece. -/
theorem splitOn_append_of_notMem {b : β} {front : List β} (h : b ∉ front)
    (l : List β) :
    (front ++ l).splitOn b = (l.splitOn b).modifyHead (front ++ ·) := by
  induction front with
  | nil =>
    rw [List.nil_append]
    cases l.splitOn b <;> rfl
  | cons c front ih =>
    have hc : ¬ (c == b) = true := fun hcb =>
      h (beq_iff_eq.1 hcb ▸ List.mem_cons_self)
    rw [List.cons_append, List.splitOn_cons_eq_if_modifyHead, if_neg hc,
      ih fun hmem => h (List.mem_cons_of_mem c hmem)]
    cases l.splitOn b <;> rfl

/-- **The pieces of a code are the codes of the pieces**, where a letter that
is coded by itself is in no other word. -/
theorem splitOn_flatMap {word : α → List β} {a : α} {b : β}
    (hword : word a = [b]) (hapart : ∀ x, x ≠ a → b ∉ word x) (p : List α) :
    (p.flatMap word).splitOn b = (p.splitOn a).map (·.flatMap word) := by
  induction p with
  | nil => simp
  | cons x p ih =>
    rw [List.flatMap_cons, List.splitOn_cons_eq_if_modifyHead]
    split
    case isTrue hx =>
      rw [beq_iff_eq] at hx
      rw [hx, hword, List.cons_append, List.nil_append,
        List.splitOn_cons_eq_if_modifyHead, if_pos (beq_self_eq_true _), ih]
      rfl
    case isFalse hx =>
      rw [beq_iff_eq] at hx
      rw [splitOn_append_of_notMem (hapart x hx), ih]
      cases p.splitOn a <;> rfl

omit [DecidableEq β] in
/-- **Where a letter stands in a code, there stands what it codes.** -/
theorem exists_of_flatMap_eq_append_cons {word : α → List β} {a : α} {b : β}
    (hword : word a = [b]) (hapart : ∀ x, x ≠ a → b ∉ word x) {p : List α}
    {l r : List β} (h : p.flatMap word = l ++ b :: r) :
    ∃ q s, p = q ++ a :: s ∧ q.flatMap word = l ∧ s.flatMap word = r := by
  induction p generalizing l with
  | nil => simp at h
  | cons x p ih =>
    rw [List.flatMap_cons] at h
    obtain ⟨l', rfl, hrest⟩ | ⟨m, hm, hrest⟩ := List.append_eq_append_iff.1 h
    · obtain ⟨q, s, rfl, rfl, hs⟩ := ih hrest
      exact ⟨x :: q, s, rfl, List.flatMap_cons, hs⟩
    · cases m with
      | nil =>
        -- the word ends in front of the letter
        rw [List.append_nil] at hm
        rw [List.nil_append] at hrest
        obtain ⟨q, s, rfl, hq, hs⟩ := ih (l := []) hrest.symm
        refine ⟨x :: q, s, rfl, ?_, hs⟩
        rw [List.flatMap_cons, hq, hm, List.append_nil]
      | cons y m =>
        obtain ⟨rfl, hr⟩ := List.cons.inj hrest
        by_cases hx : x = a
        · subst hx
          rw [hword] at hm
          obtain ⟨rfl, hm⟩ | ⟨-, hnil⟩ := List.append_eq_singleton_iff.1 hm.symm
          · obtain rfl := (List.cons.inj hm).2
            exact ⟨[], p, rfl, rfl, hr.symm⟩
          · cases hnil
        · exact absurd (hm ▸ List.mem_append_right l List.mem_cons_self)
            (hapart x hx)

end Pieces

namespace Utf8

/-! ## The bytes of a character -/

/-- A byte of a character is above the range of ASCII or is the character. -/
theorem toNat_of_mem_utf8EncodeChar {c : Char} {b : UInt8}
    (h : b ∈ String.utf8EncodeChar c) :
    0x80 ≤ b.toNat ∨ b.toNat = c.val.toNat := by
  have hvalid := Utf8.toNat_valid c
  have hbyte : ∀ n < 256, 0x80 ≤ n → 0x80 ≤ (UInt8.ofNat n).toNat := by
    intro n hn hlow
    rwa [show (UInt8.ofNat n).toNat = n from Nat.mod_eq_of_lt hn]
  unfold String.utf8EncodeChar at h
  simp only at h
  split at h
  · obtain rfl := List.mem_singleton.1 h
    exact Or.inr (Nat.mod_eq_of_lt (by omega))
  refine Or.inl ?_
  split at h
  · simp only [List.mem_cons, List.not_mem_nil, or_false] at h
    obtain rfl | rfl := h <;> exact hbyte _ (by omega) (by omega)
  split at h
  · simp only [List.mem_cons, List.not_mem_nil, or_false] at h
    obtain rfl | rfl | rfl := h <;> exact hbyte _ (by omega) (by omega)
  · simp only [List.mem_cons, List.not_mem_nil, or_false] at h
    obtain rfl | rfl | rfl | rfl := h <;> exact hbyte _ (by omega) (by omega)

/-- **An ASCII byte is in no character but its own.** -/
theorem notMem_utf8EncodeChar {c c' : Char} {b : UInt8} (hb : b.toNat < 0x80)
    (hc : b.toNat = c.val.toNat) (hne : c' ≠ c) :
    b ∉ String.utf8EncodeChar c' := by
  intro h
  obtain hbig | heq := toNat_of_mem_utf8EncodeChar h
  · exact absurd hb (Nat.not_lt_of_le hbig)
  · exact hne (Char.toNat_inj.1 (heq.symm.trans hc))

/-! ## Bytes that are text -/

/-- **Bytes that are text** in UTF-8. -/
def IsText (bytes : List UInt8) : Prop :=
  ∃ chars : List Char, chars.flatMap String.utf8EncodeChar = bytes

theorem isValidUTF8_iff_isText (d : ByteArray) :
    d.IsValidUTF8 ↔ IsText d.data.toList := by
  constructor
  · rintro ⟨chars, rfl⟩
    exact ⟨chars, by rw [List.utf8Encode, List.toList_data_toByteArray]⟩
  · rintro ⟨chars, hchars⟩
    refine ⟨chars, ByteArray.ext (Array.toList_inj.1 ?_)⟩
    rw [← hchars, List.utf8Encode, List.toList_data_toByteArray]

theorem isText_nil : IsText [] := ⟨[], rfl⟩

theorem IsText.append {l r : List UInt8} (hl : IsText l) (hr : IsText r) :
    IsText (l ++ r) := by
  obtain ⟨cs, rfl⟩ := hl
  obtain ⟨ds, rfl⟩ := hr
  exact ⟨cs ++ ds, List.flatMap_append⟩

/-- Different texts have different bytes. -/
theorem flatMap_utf8EncodeChar_inj {p q : List Char}
    (h : p.flatMap String.utf8EncodeChar = q.flatMap String.utf8EncodeChar) :
    p = q := by
  rw [← characters_flatMap p, h, characters_flatMap]

/-- An ASCII character is coded by its own byte. -/
theorem utf8EncodeChar_eq_singleton {c : Char} {b : UInt8}
    (hb : b.toNat < 0x80) (hc : b.toNat = c.val.toNat) :
    String.utf8EncodeChar c = [b] := by
  unfold String.utf8EncodeChar
  simp only
  rw [if_pos (by omega), ← hc]
  exact congrArg ([·]) (UInt8.ofNat_toNat)

/-- **Text can be cut where an ASCII byte stands**, and both sides are text. -/
theorem isText_append_cons_iff {c : Char} {b : UInt8} (hb : b.toNat < 0x80)
    (hc : b.toNat = c.val.toNat) {l r : List UInt8} :
    IsText (l ++ b :: r) ↔ IsText l ∧ IsText r := by
  have hword := utf8EncodeChar_eq_singleton hb hc
  constructor
  · rintro ⟨chars, h⟩
    obtain ⟨q, s, -, hq, hs⟩ := exists_of_flatMap_eq_append_cons hword
      (fun _ => notMem_utf8EncodeChar hb hc) h
    exact ⟨⟨q, hq⟩, ⟨s, hs⟩⟩
  · rintro ⟨hl, hr⟩
    have hletter : IsText [b] := ⟨[c], by rw [List.flatMap_singleton, hword]⟩
    exact hl.append (hletter.append hr)

end Utf8

end DriverAudit
