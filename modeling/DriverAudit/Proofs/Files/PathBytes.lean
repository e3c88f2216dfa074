import DriverAudit.Proofs.Files.PathOrder
import DriverAudit.Proofs.Text.AsciiCuts
import Mathlib.Data.String.Basic

/-!
# Paths of bytes

To a Unix system a path is a sequence of bytes, and nobody promises that it is
text. What decides the order of two paths is little: where the slashes are,
which pieces consist of dots, and how the names between them compare. All this
can be said over any alphabet with a slash and a dot (`orderOver`), so there is
an order of paths of bytes as well as one of texts.

Going from one alphabet to another keeps the order when each letter is replaced
by a word, as long as slash and dot stay letters, no other word has the slash
in it, and the words compare as the letters do (`Code`). UTF-8 is such a code:
the order of texts as paths is that of their bytes (`byteOrder_toUTF8`). And
taking each byte for the character with its number is one: whatever the bytes
of a path are, there is a text that takes its place in every comparison
(`order_ofBytes`). So nothing that is said of the order of paths is lost on
paths that are not text.
-/

namespace DriverAudit.Path

/-! ## Paths over an alphabet -/

section Alphabet

variable {α : Type} [DecidableEq α]

/-- **What a component is compared by**: its kind, and its letters if it is a
name. -/
abbrev Key (α : Type) := Nat × List α

/-- The key of a piece that does not lead its path. -/
def keyOfPiece? (dot : α) (piece : List α) : Option (Key α) :=
  if piece = [] ∨ piece = [dot] then none
  else if piece = [dot, dot] then some (2, [])
  else some (3, piece)

/-- **The keys of the components of a path** over an alphabet with a slash and
a dot. -/
def keys (slash dot : α) (path : List α) : List (Key α) :=
  let inner := (path.splitOn slash).filterMap (keyOfPiece? dot)
  if path.head? = some slash then (0, []) :: inner
  else if (path.splitOn slash).head? = some [dot] then (1, []) :: inner
  else inner

variable [Ord α]

/-- Keys compare by kind, and names letter by letter. -/
def Key.order : Key α → Key α → Ordering :=
  compareLex (compareOn Prod.fst) (compareOn Prod.snd)

/-- **The order of paths over an alphabet.** -/
def orderOver (slash dot : α) (p q : List α) : Ordering :=
  List.compareLex Key.order (keys slash dot p) (keys slash dot q)

end Alphabet

theorem compareLex_map {α β : Type} {cmp : α → α → Ordering}
    {cmp' : β → β → Ordering} {f : α → β}
    (h : ∀ x y, cmp' (f x) (f y) = cmp x y) (l l' : List α) :
    List.compareLex cmp' (l.map f) (l'.map f) = List.compareLex cmp l l' := by
  induction l generalizing l' with
  | nil => cases l' <;> rfl
  | cons x l ih =>
    cases l' with
    | nil => rfl
    | cons y l' =>
      rw [List.map_cons, List.map_cons, List.compareLex_cons_cons,
        List.compareLex_cons_cons, h, ih]

/-! ## Texts -/

theorem compare_eq_lt_iff {l l' : List Char} :
    compare l l' = .lt ↔ l < l' := by
  induction l generalizing l' with
  | nil =>
    cases l' with
    | nil => exact iff_of_false (by decide) (List.lt_irrefl [])
    | cons d l' => exact iff_of_true rfl (List.nil_lt_cons d l')
  | cons c l ih =>
    cases l' with
    | nil => exact iff_of_false (fun h => by cases h) (List.not_lt_nil _)
    | cons d l' =>
      rw [List.compare_cons_cons, Ordering.then_eq_lt, List.cons_lt_cons_iff,
        ih, Std.compare_eq_iff_eq]
      exact or_congr_left compareOfLessAndEq_eq_lt

/-- Texts compare as their characters. -/
theorem compare_toList (s t : String) :
    compare s.toList t.toList = compare s t := by
  have hlt : ∀ s t : String,
      compare s.toList t.toList = .lt ↔ compare s t = .lt := by
    intro s t
    rw [compare_eq_lt_iff, ← String.lt_iff]
    exact compareOfLessAndEq_eq_lt.symm
  cases hst : compare s t with
  | lt => exact (hlt s t).2 hst
  | eq =>
    obtain rfl := Std.compare_eq_iff_eq.1 hst
    exact Std.compare_self
  | gt =>
    rw [Std.OrientedOrd.eq_swap, (hlt t s).2 (Std.OrientedCmp.lt_of_gt hst)]
    rfl

/-- The key of a component. -/
def Component.key (c : Component) : Key Char := (c.rank, c.text.toList)

theorem Component.order_key (x y : Component) :
    Key.order x.key y.key = Component.order x y := by
  unfold Key.order Component.order compareLex compareOn
  rw [← compare_toList]
  rfl

theorem map_key_ofPiece? (piece : List Char) :
    (Component.ofPiece? (String.ofList piece)).map Component.key
      = keyOfPiece? '.' piece := by
  have hempty : String.ofList piece = "" ↔ piece = [] := String.ofList_eq
  have hdot : String.ofList piece = "." ↔ piece = ['.'] := String.ofList_eq
  have hdots : String.ofList piece = ".." ↔ piece = ['.', '.'] :=
    String.ofList_eq
  unfold Component.ofPiece? keyOfPiece?
  simp only [hempty, hdot, hdots]
  split
  · rfl
  · split
    · rfl
    · show some (3, (String.ofList piece).toList) = _
      rw [String.toList_ofList]

theorem map_key_components (path : String) :
    (components path).map Component.key = keys '/' '.' path.toList := by
  have hinner : ((pieces path).filterMap Component.ofPiece?).map Component.key
      = (path.toList.splitOn '/').filterMap (keyOfPiece? '.') := by
    rw [pieces, List.filterMap_map, List.map_filterMap]
    exact congrArg (List.filterMap · _) (funext map_key_ofPiece?)
  have hhead : (pieces path).head? = some "."
      ↔ (path.toList.splitOn '/').head? = some ['.'] := by
    rw [pieces, List.head?_map]
    cases (path.toList.splitOn '/').head? <;> simp [String.ofList_eq]
  unfold components keys isAbsolute
  simp only [hhead, decide_eq_true_eq, ← hinner]
  split
  · rfl
  · split <;> rfl

/-- **The order of texts as paths** is the one over the alphabet of
characters. -/
theorem orderOver_toList (p q : String) :
    orderOver '/' '.' p.toList q.toList = order p q := by
  unfold orderOver order
  rw [← map_key_components, ← map_key_components]
  exact compareLex_map Component.order_key _ _

/-! ## Codes -/

/-- **Words of which the first is smaller** at the place where they differ. -/
def Ascends {β : Type} [Ord β] (l l' : List β) : Prop :=
  ∃ front u v rest rest', l = front ++ u :: rest ∧ l' = front ++ v :: rest'
    ∧ compare u v = .lt

/-- **A code that keeps the order of paths.** Each letter has a word in another
alphabet. Slash and dot have words of one letter, the slash is in no other
word, and the words ascend as the letters do. -/
structure Code {α β : Type} [Ord α] [Ord β] (word : α → List β)
    (slash dot : α) (slash' dot' : β) : Prop where
  word_slash : word slash = [slash']
  word_dot : word dot = [dot']
  apart : ∀ x, x ≠ slash → slash' ∉ word x
  nonempty : ∀ x, word x ≠ []
  ascends : ∀ x y, compare x y = .lt → Ascends (word x) (word y)

theorem compare_append_left {β : Type} [Ord β] [Std.ReflOrd β]
    (front l l' : List β) :
    compare (front ++ l) (front ++ l') = compare l l' := by
  induction front with
  | nil => rfl
  | cons b front ih =>
    rw [List.cons_append, List.cons_append, List.compare_cons_cons,
      Std.compare_self, ih]
    rfl

namespace Code

variable {α β : Type} [Ord α] [Ord β] {word : α → List β} {slash dot : α}
  {slash' dot' : β}

section Order

variable [Std.LawfulEqOrd β]

theorem compare_word_append (h : Code word slash dot slash' dot') {x y : α}
    (hlt : compare x y = .lt) (l l' : List β) :
    compare (word x ++ l) (word y ++ l') = .lt := by
  obtain ⟨front, u, v, rest, rest', hx, hy, huv⟩ := h.ascends x y hlt
  rw [hx, hy, List.append_assoc, List.append_assoc, compare_append_left,
    List.cons_append, List.cons_append, List.compare_cons_cons, huv]
  rfl

variable [Std.LawfulEqOrd α] [Std.OrientedOrd α] [Std.OrientedOrd β]

/-- **Sequences of letters compare as their codes.** -/
theorem compare_flatMap (h : Code word slash dot slash' dot') (p q : List α) :
    compare (p.flatMap word) (q.flatMap word) = compare p q := by
  induction p generalizing q with
  | nil =>
    cases q with
    | nil => rfl
    | cons y q =>
      obtain ⟨b, rest, hb⟩ := List.exists_cons_of_ne_nil (h.nonempty y)
      rw [List.flatMap_cons, hb]
      rfl
  | cons x p ih =>
    cases q with
    | nil =>
      obtain ⟨b, rest, hb⟩ := List.exists_cons_of_ne_nil (h.nonempty x)
      rw [List.flatMap_cons, hb]
      rfl
    | cons y q =>
      rw [List.flatMap_cons, List.flatMap_cons, List.compare_cons_cons]
      cases hxy : compare x y with
      | lt => rw [h.compare_word_append hxy]; rfl
      | eq =>
        obtain rfl := Std.compare_eq_iff_eq.1 hxy
        rw [compare_append_left, ih]
        rfl
      | gt =>
        rw [Std.OrientedOrd.eq_swap,
          h.compare_word_append (Std.OrientedCmp.lt_of_gt hxy)]
        rfl

/-- Different sequences have different codes. -/
theorem flatMap_eq_iff (h : Code word slash dot slash' dot') {p q : List α} :
    p.flatMap word = q.flatMap word ↔ p = q := by
  rw [← Std.compare_eq_iff_eq, h.compare_flatMap, Std.compare_eq_iff_eq]

end Order

variable [DecidableEq α] [DecidableEq β]

/-- **The pieces of a code are the codes of the pieces.** -/
theorem splitOn_flatMap (h : Code word slash dot slash' dot') (p : List α) :
    (p.flatMap word).splitOn slash'
      = (p.splitOn slash).map (·.flatMap word) :=
  DriverAudit.splitOn_flatMap h.word_slash h.apart p

omit [DecidableEq β] in
/-- A code starts with a slash when what it stands for does. -/
theorem head?_flatMap_eq_slash_iff (h : Code word slash dot slash' dot')
    (p : List α) :
    (p.flatMap word).head? = some slash' ↔ p.head? = some slash := by
  cases p with
  | nil => exact iff_of_false (fun h => by cases h) (fun h => by cases h)
  | cons x p =>
    obtain ⟨b, rest, hb⟩ := List.exists_cons_of_ne_nil (h.nonempty x)
    rw [List.flatMap_cons, hb, List.cons_append, List.head?_cons,
      List.head?_cons, Option.some_inj, Option.some_inj]
    constructor
    · rintro rfl
      by_contra hne
      exact h.apart x hne (hb ▸ List.mem_cons_self)
    · rintro rfl
      exact (List.cons.inj (hb.symm.trans h.word_slash)).1

variable [Std.LawfulEqOrd α] [Std.OrientedOrd α] [Std.LawfulEqOrd β]
  [Std.OrientedOrd β]

/-- The key of the code of a component. -/
def key (word : α → List β) (k : Key α) : Key β := (k.1, k.2.flatMap word)

theorem keyOfPiece?_flatMap (h : Code word slash dot slash' dot')
    (piece : List α) :
    keyOfPiece? dot' (piece.flatMap word)
      = (keyOfPiece? dot piece).map (key word) := by
  have hempty : piece.flatMap word = [] ↔ piece = [] :=
    h.flatMap_eq_iff (q := [])
  have hdot : piece.flatMap word = [dot'] ↔ piece = [dot] := by
    rw [← h.flatMap_eq_iff, List.flatMap_singleton, h.word_dot]
  have hdots : piece.flatMap word = [dot', dot'] ↔ piece = [dot, dot] := by
    rw [← h.flatMap_eq_iff, List.flatMap_cons, List.flatMap_singleton,
      h.word_dot, List.singleton_append]
  unfold keyOfPiece?
  simp only [hempty, hdot, hdots]
  split
  · rfl
  · split <;> rfl

/-- **The components of a code are the codes of the components.** -/
theorem keys_flatMap (h : Code word slash dot slash' dot') (p : List α) :
    keys slash' dot' (p.flatMap word)
      = (keys slash dot p).map (key word) := by
  have hinner : ((p.splitOn slash).map (·.flatMap word)).filterMap
        (keyOfPiece? dot')
      = ((p.splitOn slash).filterMap (keyOfPiece? dot)).map (key word) := by
    rw [List.filterMap_map, List.map_filterMap]
    exact congrArg (List.filterMap · _) (funext h.keyOfPiece?_flatMap)
  have hhead : ((p.splitOn slash).map (·.flatMap word)).head? = some [dot']
      ↔ (p.splitOn slash).head? = some [dot] := by
    have hdot : [dot].flatMap word = [dot'] := by
      rw [List.flatMap_singleton, h.word_dot]
    rw [List.head?_map, ← hdot]
    cases (p.splitOn slash).head? with
    | none => exact iff_of_false nofun nofun
    | some piece =>
      rw [Option.map_some, Option.some_inj, Option.some_inj, h.flatMap_eq_iff]
  unfold keys
  simp only [h.splitOn_flatMap, h.head?_flatMap_eq_slash_iff, hhead, hinner]
  split
  · rfl
  · split <;> rfl

/-- **Paths compare as their codes.** -/
theorem orderOver_flatMap (h : Code word slash dot slash' dot')
    (p q : List α) :
    orderOver slash' dot' (p.flatMap word) (q.flatMap word)
      = orderOver slash dot p q := by
  unfold orderOver
  rw [h.keys_flatMap, h.keys_flatMap]
  refine compareLex_map (fun x y => ?_) _ _
  unfold Key.order compareLex compareOn key
  rw [h.compare_flatMap]

end Code

/-! ## Bytes -/

/-- **The order of paths of bytes**, as a Unix system has them. -/
def byteOrder (p q : List UInt8) : Ordering := orderOver 0x2F 0x2E p q

/-- The text whose characters have the numbers of some bytes. -/
def ofBytes (p : List UInt8) : String :=
  String.ofList (p.flatMap fun b => [Char.ofNat b.toNat])

section Forms

variable {a b : Nat} {l l' : List UInt8}

theorem ascends_of_lt (h : a < b) (hb : b < 256) (l l' : List UInt8) :
    Ascends (UInt8.ofNat a :: l) (UInt8.ofNat b :: l') := by
  have ha' : (UInt8.ofNat a).toNat = a := Nat.mod_eq_of_lt (h.trans hb)
  have hb' : (UInt8.ofNat b).toNat = b := Nat.mod_eq_of_lt hb
  have hlt : UInt8.ofNat a < UInt8.ofNat b := by
    rw [UInt8.lt_iff_toNat_lt, ha', hb']
    exact h
  exact ⟨[], _, _, l, l', rfl, rfl, compareOfLessAndEq_eq_lt.2 hlt⟩

/-- Words that agree at first are told apart by what follows. -/
theorem ascends_of_le (h : a ≤ b) (hb : b < 256) (hrest : a = b → Ascends l l') :
    Ascends (UInt8.ofNat a :: l) (UInt8.ofNat b :: l') := by
  obtain hlt | rfl := Nat.lt_or_eq_of_le h
  · exact ascends_of_lt hlt hb l l'
  · obtain ⟨front, u, v, rest, rest', hl, hl', huv⟩ := hrest rfl
    exact ⟨UInt8.ofNat a :: front, u, v, rest, rest', by rw [hl]; rfl,
      by rw [hl']; rfl, huv⟩

end Forms

/-- **Characters ascend with their bytes.** A longer form has a larger first
byte, and in forms of one length the bytes are digits. -/
theorem ascends_utf8EncodeChar {c d : Char} (h : c.val.toNat < d.val.toNat) :
    Ascends (String.utf8EncodeChar c) (String.utf8EncodeChar d) := by
  have hc := Utf8.toNat_valid c
  have hd := Utf8.toNat_valid d
  unfold String.utf8EncodeChar
  generalize c.val.toNat = v at h hc ⊢
  generalize d.val.toNat = w at h hd ⊢
  simp only
  by_cases hone : w ≤ 127
  · rw [if_pos (by omega), if_pos hone]
    exact ascends_of_lt h (by omega) _ _
  rw [if_neg hone]
  by_cases htwo : w ≤ 2047
  · rw [if_pos htwo]
    split
    · exact ascends_of_lt (by omega) (by omega) _ _
    rw [if_pos (by omega)]
    exact ascends_of_le (by omega) (by omega) fun _ =>
      ascends_of_lt (by omega) (by omega) _ _
  rw [if_neg htwo]
  by_cases hthree : w ≤ 65535
  · rw [if_pos hthree]
    split
    · exact ascends_of_lt (by omega) (by omega) _ _
    split
    · exact ascends_of_lt (by omega) (by omega) _ _
    rw [if_pos (by omega)]
    exact ascends_of_le (by omega) (by omega) fun _ =>
      ascends_of_le (by omega) (by omega) fun _ =>
      ascends_of_lt (by omega) (by omega) _ _
  rw [if_neg hthree]
  split
  · exact ascends_of_lt (by omega) (by omega) _ _
  split
  · exact ascends_of_lt (by omega) (by omega) _ _
  split
  · exact ascends_of_lt (by omega) (by omega) _ _
  exact ascends_of_le (by omega) (by omega) fun _ =>
    ascends_of_le (by omega) (by omega) fun _ =>
    ascends_of_le (by omega) (by omega) fun _ =>
    ascends_of_lt (by omega) (by omega) _ _

/-- Characters compare as their numbers. -/
theorem compare_char_eq_lt_iff {c d : Char} :
    compare c d = .lt ↔ c.toNat < d.toNat :=
  compareOfLessAndEq_eq_lt

/-- The character with the number of a byte. -/
theorem toNat_ofNat_toNat (b : UInt8) :
    (Char.ofNat b.toNat).toNat = b.toNat := by
  have hvalid : b.toNat.isValidChar :=
    Or.inl (Nat.lt_trans b.toNat_lt (by decide))
  rw [Char.ofNat, dif_pos hvalid]
  rfl

/-- **UTF-8 keeps the order of paths.** -/
theorem code_utf8 :
    Code String.utf8EncodeChar '/' '.' (0x2F : UInt8) (0x2E : UInt8) where
  word_slash := rfl
  word_dot := rfl
  apart _ hc := Utf8.notMem_utf8EncodeChar (by decide) rfl hc
  nonempty c h := by
    have hlength := String.length_utf8EncodeChar c
    rw [h] at hlength
    exact absurd hlength.symm (Nat.pos_iff_ne_zero.1 c.utf8Size_pos)
  ascends _ _ h := ascends_utf8EncodeChar (compare_char_eq_lt_iff.1 h)

/-- Bytes as the characters with their numbers keep the order of paths. -/
theorem code_bytes :
    Code (fun b : UInt8 => [Char.ofNat b.toNat]) 0x2F 0x2E '/' '.' where
  word_slash := rfl
  word_dot := rfl
  apart b hb h := by
    have hchar := congrArg Char.toNat (List.mem_singleton.1 h)
    rw [toNat_ofNat_toNat] at hchar
    exact hb (UInt8.toNat_inj.1 hchar.symm)
  nonempty _ := List.cons_ne_nil _ _
  ascends a b h := by
    have hlt : a < b := compareOfLessAndEq_eq_lt.1 h
    refine ⟨[], _, _, [], [], rfl, rfl, compare_char_eq_lt_iff.2 ?_⟩
    rw [toNat_ofNat_toNat, toNat_ofNat_toNat]
    exact UInt8.lt_iff_toNat_lt.1 hlt

/-- **The order of texts as paths is that of their bytes in UTF-8.** -/
theorem byteOrder_toUTF8 (p q : String) :
    byteOrder p.toUTF8.data.toList q.toUTF8.data.toList = order p q := by
  rw [← orderOver_toList, Utf8.toList_toUTF8, Utf8.toList_toUTF8]
  exact code_utf8.orderOver_flatMap _ _

/-- **Any bytes are ordered as a text of as many characters.** -/
theorem order_ofBytes (p q : List UInt8) :
    order (ofBytes p) (ofBytes q) = byteOrder p q := by
  rw [← orderOver_toList, ofBytes, ofBytes, String.toList_ofList,
    String.toList_ofList]
  exact code_bytes.orderOver_flatMap p q

end DriverAudit.Path
