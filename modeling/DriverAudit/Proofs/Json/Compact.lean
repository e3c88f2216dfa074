import DriverAudit.Json.Writer
import DriverAudit.Proofs.Json.Documents
import Mathlib.Tactic.SplitIfs

/-!
# Documents on one line

The shortest way to write a document is to write its tokens one behind the
other, each of them as the writer of reports writes it (`compact`). A document
may hold tokens that nobody can write, such as a number whose digits are none.
The documents that this library makes hold none: they are built from natural
numbers, truth values and texts of characters by lists and records, and each
of these steps keeps them `Writable`. What is written for a writable document
is one of the ways to write it (`written_compact`), so it is read back.
-/

namespace DriverAudit.Json

/-! ## Texts of characters -/

/-- The digits of an escape in a text: control characters need two of them. -/
theorem toList_unitEscape {n : Nat} (hn : n < 0x20) :
    (unitEscape n).toList
      = ['\\', 'u', '0', '0', Nat.digitChar (n / 16),
          Nat.digitChar (n % 16)] := by
  have h : ∀ m : Fin 0x20, (unitEscape m).toList
      = ['\\', 'u', '0', '0', Nat.digitChar (m / 16),
          Nat.digitChar (m % 16)] := by decide
  exact h ⟨n, hn⟩

theorem isHexDigit_digitChar {v : Nat} (hv : v < 16) :
    IsHexDigit (Nat.digitChar v) v := by
  have h : ∀ w : Fin 16, (w.val < 10 ∧ (Nat.digitChar w).toNat = 48 + w.val)
      ∨ (10 ≤ w.val ∧ (Nat.digitChar w).toNat = 87 + w.val) := by decide
  exact (h ⟨v, hv⟩).imp_right fun ⟨hten, hcode⟩ => ⟨hten, hv, .inl hcode⟩

/-- The escape of a control character. -/
theorem isUnitEscape_unitEscape {n : Nat} (hn : n < 0x20) :
    IsUnitEscape (unitEscape n).toList n := by
  have hvalue : 0 * 4096 + 0 * 256 + n / 16 * 16 + n % 16 = n := by omega
  have h := IsUnitEscape.mk (isHexDigit_digitChar (v := 0) (by decide))
    (isHexDigit_digitChar (v := 0) (by decide))
    (isHexDigit_digitChar (v := n / 16) (by omega))
    (isHexDigit_digitChar (v := n % 16) (by omega))
  rw [hvalue] at h
  rw [toList_unitEscape hn]
  exact h

/-- **What is written for a character spells it.** -/
theorem spelled_escapedChar (c : Char) {t : Text} {cs : List Char}
    (h : t.Spelled cs) :
    Text.Spelled (.char c :: t) ((escapedChar c).toList ++ cs) := by
  unfold escapedChar
  split_ifs with hquote hslash hback hfeed hline hreturn htab hcontrol
  · subst hquote; exact .short (by decide) h
  · subst hslash; exact .short (by decide) h
  · subst hback; exact .short (by decide) h
  · subst hfeed; exact .short (by decide) h
  · subst hline; exact .short (by decide) h
  · subst hreturn; exact .short (by decide) h
  · subst htab; exact .short (by decide) h
  · have hunit := Text.Spelled.unit (isUnitEscape_unitEscape hcontrol)
      (fun hhigh => by have := hhigh.1; omega)
      (fun hlow => by have := hlow.1; omega) h
    rwa [Char.ofNat_toNat] at hunit
  · have hplain := Text.Spelled.plain (Nat.not_lt.1 hcontrol) hquote hslash h
    simpa using hplain

theorem spelled_escaped (l : List Char) :
    Text.Spelled (l.map Piece.char)
      (String.join (l.map fun c => (Piece.char c).escaped)).toList := by
  induction l with
  | nil => exact .nil
  | cons c l ih =>
    rw [List.map_cons, List.map_cons, String.join_cons, String.toList_append]
    exact spelled_escapedChar c ih

/-- **A text of characters is written as one of its spellings.** -/
theorem spelled_quoted (s : String) :
    Token.Spelled (.string (.ofString s)) (Text.ofString s).quoted.toList := by
  have h := Token.Spelled.string (spelled_escaped s.toList)
  simpa [Text.quoted, Text.ofString, Function.comp_def] using h

/-! ## Natural numbers -/

/-- A decimal digit of a document is one of the standard library, which knows
that the digits of a number are such. -/
theorem isDigit_eq (c : Char) : isDigit c = c.isDigit := by
  unfold isDigit Char.isDigit
  rfl

theorem isDigit_of_mem_toDigits {n : Nat} {c : Char}
    (hc : c ∈ Nat.toDigits 10 n) : isDigit c = true := by
  rw [isDigit_eq]
  exact Nat.isDigit_of_mem_toDigits (by decide) (by decide) hc

/-- The decimal digits of a positive number do not start with a zero. -/
theorem head?_toDigits_ne_zero {n : Nat} (hn : n ≠ 0) :
    (Nat.toDigits 10 n).head? ≠ some '0' := by
  induction n using Nat.strongRecOn with
  | _ n ih =>
    by_cases hlt : n < 10
    · rw [Nat.toDigits_of_lt_base hlt]
      intro hzero
      exact hn (Nat.digitChar_eq_zero.1 (Option.some.inj hzero))
    · have hrest := ih (n / 10) (by omega) (by omega)
      obtain ⟨c, cs, hcs⟩ :=
        List.exists_cons_of_ne_nil (Nat.toDigits_ne_nil (b := 10) (n := n / 10))
      rw [Nat.toDigits_of_base_le (by decide) (Nat.not_lt.1 hlt)]
      rw [hcs] at hrest ⊢
      exact hrest

/-- **The decimal digits of a number are a numeral.** -/
theorem isNumeral_toDigits (n : Nat) : IsNumeral (Nat.toDigits 10 n) := by
  have hwhole : IsWhole (Nat.toDigits 10 n) := by
    by_cases hn : n = 0
    · subst hn; exact .zero
    · exact .digits ⟨Nat.toDigits_ne_nil, fun c => isDigit_of_mem_toDigits⟩
        (head?_toDigits_ne_zero hn)
  have h := IsUnsigned.mk hwhole .none .none
  rw [List.append_nil, List.append_nil] at h
  exact .positive h

/-! ## Tokens and documents -/

/-- **How a token is written.** -/
def Token.text : Token → String
  | .openObject => "\x7b"
  | .closeObject => "\x7d"
  | .openArray => "["
  | .closeArray => "]"
  | .colon => ":"
  | .comma => ","
  | .null => "null"
  | .bool true => "true"
  | .bool false => "false"
  | .number literal => literal
  | .string text => text.quoted

/-- **A document on one line**, with no blanks. -/
def compact (j : Json) : String := String.join ((tokens j).map Token.text)

/-- **Documents that can be written**: each of their tokens can. -/
def Writable (j : Json) : Prop := ∀ k ∈ tokens j, k.Spelled k.text.toList

/-- A token in front of others, with no blanks between them. -/
theorem Spells.token_append {k : Token} {ks : List Token} {cs rest : List Char}
    (h : k.Spelled cs) (hrest : Spells ks rest) :
    Spells (k :: ks) (cs ++ rest) :=
  @Spells.cons k ks [] cs rest nofun h hrest

/-- Tokens that can be written may be written one behind the other. -/
theorem spells_join {ks : List Token}
    (h : ∀ k ∈ ks, k.Spelled k.text.toList) :
    Spells ks (String.join (ks.map Token.text)).toList := by
  induction ks with
  | nil => exact .nil nofun
  | cons k ks ih =>
    rw [List.map_cons, String.join_cons, String.toList_append]
    exact .token_append (h k List.mem_cons_self)
      (ih fun l hl => h l (List.mem_cons_of_mem k hl))

/-- **What is written for a writable document is a way to write it.** -/
theorem written_compact {j : Json} (h : Writable j) : Written j (compact j) :=
  spells_join h

example : compact (.record [("a\n", .array [.nat 10]), ("b", .str "\x01")])
    = "\x7b\"a\\n\":[10],\"b\":\"\\u0001\"\x7d" := by decide

@[simp]
theorem writable_bool (b : Bool) : Writable (.bool b) := by
  intro k hk
  obtain rfl := List.mem_singleton.1 hk
  cases b
  · exact .no
  · exact .yes

@[simp]
theorem writable_nat (n : Nat) : Writable (.nat n) := by
  intro k hk
  obtain rfl := List.mem_singleton.1 hk
  rw [Nat.toString_eq_ofList_toDigits]
  have h := Token.Spelled.number (isNumeral_toDigits n)
  simpa [Token.text] using h

@[simp]
theorem writable_str (s : String) : Writable (.str s) := by
  intro k hk
  obtain rfl := List.mem_singleton.1 hk
  exact spelled_quoted s

theorem writable_moreItems {items : List Json}
    (h : ∀ item ∈ items, Writable item) :
    ∀ k ∈ moreItems items, k.Spelled k.text.toList := by
  induction items with
  | nil => exact List.forall_mem_singleton.2 .closeArray
  | cons item rest ih =>
    obtain ⟨hitem, hrest⟩ := List.forall_mem_cons.1 h
    rw [moreItems, List.forall_mem_cons, List.forall_mem_append]
    exact ⟨.comma, hitem, ih hrest⟩

/-- A list of writable documents is writable. -/
@[simp]
theorem writable_array {items : List Json}
    (h : ∀ item ∈ items, Writable item) : Writable (.array items) := by
  cases items with
  | nil =>
    exact List.forall_mem_cons.2 ⟨.openArray, writable_moreItems h⟩
  | cons item rest =>
    obtain ⟨hitem, hrest⟩ := List.forall_mem_cons.1 h
    unfold Writable
    rw [tokens, List.forall_mem_cons, List.forall_mem_append]
    exact ⟨.openArray, hitem, writable_moreItems hrest⟩

@[simp]
theorem writable_strs (l : List String) : Writable (.strs l) := by
  refine writable_array fun item hitem => ?_
  obtain ⟨s, -, rfl⟩ := List.mem_map.1 hitem
  exact writable_str s

theorem writable_moreMembers {fields : List (String × Json)}
    (h : ∀ field ∈ fields, Writable field.2) :
    ∀ k ∈ moreMembers (fields.map fun (key, value) => (.ofString key, value)),
      k.Spelled k.text.toList := by
  induction fields with
  | nil => exact List.forall_mem_singleton.2 .closeObject
  | cons field rest ih =>
    obtain ⟨hfield, hrest⟩ := List.forall_mem_cons.1 h
    rw [List.map_cons, moreMembers, List.forall_mem_cons, List.forall_mem_cons,
      List.forall_mem_cons, List.forall_mem_append]
    exact ⟨.comma, spelled_quoted field.1, .colon, hfield, ih hrest⟩

/-- A record of writable documents is writable. -/
@[simp]
theorem writable_record {fields : List (String × Json)}
    (h : ∀ field ∈ fields, Writable field.2) : Writable (.record fields) := by
  cases fields with
  | nil =>
    exact List.forall_mem_cons.2 ⟨.openObject, writable_moreMembers h⟩
  | cons field rest =>
    obtain ⟨hfield, hrest⟩ := List.forall_mem_cons.1 h
    unfold Writable record
    rw [List.map_cons, tokens, List.forall_mem_cons, List.forall_mem_cons,
      List.forall_mem_cons, List.forall_mem_append]
    exact ⟨.openObject, spelled_quoted field.1, .colon, hfield,
      writable_moreMembers hrest⟩

end DriverAudit.Json
