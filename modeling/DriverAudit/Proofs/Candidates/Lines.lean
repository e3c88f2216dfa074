import DriverAudit.Proofs.Text.AsciiCuts

/-!
# Lines

A line ends with a line feed, and a carriage return right in front of it does
not belong to the line. The last line may lack the line feed; then a carriage
return at its end is one of its letters. All this can be said over any alphabet
with a line feed and a carriage return (`linesOver`), so there are lines of
bytes as well as lines of characters.

They are the same lines: those of a text in UTF-8 are the lines of the text in
UTF-8 (`linesOver_flatMap`). A reader may take its lines from the bytes and
decode each of them by itself, as readers of large files do.
-/

namespace DriverAudit

variable {α β : Type} [DecidableEq α] [DecidableEq β] {feed ret : α}

/-- A line without the carriage return at its end, if it has one there. -/
def dropReturn (ret : α) (line : List α) : List α :=
  if line.getLast? = some ret then line.dropLast else line

omit [DecidableEq β] in
theorem dropReturn_concat_self (line : List α) :
    dropReturn ret (line ++ [ret]) = line := by
  rw [dropReturn, List.getLast?_concat, if_pos rfl, List.dropLast_concat]

omit [DecidableEq β] in
theorem dropReturn_of_getLast?_ne {line : List α}
    (h : line.getLast? ≠ some ret) : dropReturn ret line = line :=
  if_neg h

omit [DecidableEq β] in
theorem mem_of_mem_dropReturn {line : List α} {x : α}
    (h : x ∈ dropReturn ret line) : x ∈ line := by
  unfold dropReturn at h
  split at h
  · exact List.dropLast_subset line h
  · exact h

/-- **The lines over an alphabet** with a line feed and a carriage return. What
is behind the last line feed is a line too, unless it is empty. -/
def linesOver (feed ret : α) (letters : List α) : List (List α) :=
  let pieces := letters.splitOn feed
  pieces.dropLast.map (dropReturn ret)
    ++ pieces.getLast?.toList.filter (· ≠ [])

/-- What has no line feed is one line, or none. -/
theorem linesOver_of_notMem {line : List α} (h : feed ∉ line) :
    linesOver feed ret line = if line = [] then [] else [line] := by
  unfold linesOver
  rw [List.splitOn_eq_singleton h]
  by_cases hline : line = [] <;> simp [hline]

/-- **The line in front of a line feed** is followed by the other lines. -/
theorem linesOver_append_cons {line : List α} (h : feed ∉ line)
    (rest : List α) :
    linesOver feed ret (line ++ feed :: rest)
      = dropReturn ret line :: linesOver feed ret rest := by
  have hpieces := List.splitOn_ne_nil feed rest
  unfold linesOver
  rw [List.splitOn_append_cons_self_of_not_mem h]
  dsimp only
  rw [List.dropLast_cons_of_ne_nil hpieces, List.map_cons, List.cons_append,
    List.getLast?_cons_of_ne_nil hpieces]

/-- **Line by line**: what holds of a last line, and of a line in front of
letters of which it holds, holds of all letters. -/
theorem line_induction (feed : α) {motive : List α → Prop}
    (last : ∀ line, feed ∉ line → motive line)
    (line : ∀ line rest, feed ∉ line → motive rest →
      motive (line ++ feed :: rest))
    (letters : List α) : motive letters := by
  by_cases h : feed ∈ letters
  · obtain ⟨front, rest, rfl, hfront⟩ := List.eq_append_cons_of_mem h
    exact line front rest hfront (line_induction feed last line rest)
  · exact last letters h
termination_by letters.length

/-! ## Lines of coded letters -/

section Code

variable {word : α → List β} {feed' ret' : β}

theorem dropReturn_flatMap (hword : word ret = [ret'])
    (hapart : ∀ x, x ≠ ret → ret' ∉ word x) (hne : ∀ x, word x ≠ [])
    (line : List α) :
    dropReturn ret' (line.flatMap word)
      = (dropReturn ret line).flatMap word := by
  obtain rfl | ⟨front, x, rfl⟩ := List.eq_nil_or_concat line
  · rfl
  rw [List.concat_eq_append, List.flatMap_append, List.flatMap_singleton]
  by_cases hx : x = ret
  · rw [hx, hword, dropReturn_concat_self, dropReturn_concat_self]
  · have hlast : (front ++ [x]).getLast? ≠ some ret := by
      rw [List.getLast?_concat, ne_eq, Option.some_inj]
      exact hx
    have hlast' : (front.flatMap word ++ word x).getLast? ≠ some ret' := by
      rw [List.getLast?_append_of_ne_nil _ (hne x)]
      exact fun h => hapart x hx (List.mem_of_getLast? h)
    rw [dropReturn_of_getLast?_ne hlast, dropReturn_of_getLast?_ne hlast',
      List.flatMap_append, List.flatMap_singleton]

/-- **The lines of a code are the codes of the lines.** -/
theorem linesOver_flatMap (hfeed : word feed = [feed'])
    (hret : word ret = [ret']) (hapartFeed : ∀ x, x ≠ feed → feed' ∉ word x)
    (hapartRet : ∀ x, x ≠ ret → ret' ∉ word x) (hne : ∀ x, word x ≠ [])
    (letters : List α) :
    linesOver feed' ret' (letters.flatMap word)
      = (linesOver feed ret letters).map (·.flatMap word) := by
  have hfree : ∀ line : List α, feed ∉ line → feed' ∉ line.flatMap word := by
    intro line hline hmem
    obtain ⟨x, hx, hin⟩ := List.mem_flatMap.1 hmem
    exact hapartFeed x (fun heq => hline (heq ▸ hx)) hin
  induction letters using line_induction feed with
  | last line hline =>
    have hnil : line.flatMap word = [] ↔ line = [] := by
      cases line with
      | nil => exact iff_of_true rfl rfl
      | cons x line => simp [hne x]
    rw [linesOver_of_notMem (hfree line hline), linesOver_of_notMem hline]
    simp only [hnil]
    split <;> rfl
  | line line rest hline ih =>
    rw [List.flatMap_append, List.flatMap_cons, hfeed, List.singleton_append,
      linesOver_append_cons (hfree line hline), linesOver_append_cons hline,
      ih, dropReturn_flatMap hret hapartRet hne]
    rfl

end Code

/-- **The lines of the bytes of a text** are the bytes of its lines. -/
theorem linesOver_utf8 (text : List Char) :
    linesOver 0x0A 0x0D (text.flatMap String.utf8EncodeChar)
      = (linesOver '\n' '\r' text).map (·.flatMap String.utf8EncodeChar) := by
  have hfeed : ∀ c, c ≠ '\n' → (0x0A : UInt8) ∉ String.utf8EncodeChar c :=
    fun _ => Utf8.notMem_utf8EncodeChar (by decide) rfl
  have hret : ∀ c, c ≠ '\r' → (0x0D : UInt8) ∉ String.utf8EncodeChar c :=
    fun _ => Utf8.notMem_utf8EncodeChar (by decide) rfl
  have hfeedWord : String.utf8EncodeChar '\n' = [0x0A] := rfl
  have hretWord : String.utf8EncodeChar '\r' = [0x0D] := rfl
  exact linesOver_flatMap hfeedWord hretWord hfeed hret
    (fun _ => String.utf8EncodeChar_ne_nil) text

theorem isText_dropReturn_iff (line : List UInt8) :
    Utf8.IsText (dropReturn 0x0D line) ↔ Utf8.IsText line := by
  by_cases h : line.getLast? = some 0x0D
  · obtain ⟨front, rfl⟩ := List.getLast?_eq_some_iff.1 h
    have hcut := Utf8.isText_append_cons_iff (c := '\r') (b := 0x0D)
      (l := front) (r := []) (by decide) rfl
    rw [dropReturn_concat_self, hcut]
    exact (and_iff_left Utf8.isText_nil).symm
  · rw [dropReturn_of_getLast?_ne h]

/-- **Bytes are text if all their lines are.** -/
theorem isText_iff_forall_mem_lines (bytes : List UInt8) :
    Utf8.IsText bytes
      ↔ ∀ line ∈ linesOver 0x0A 0x0D bytes, Utf8.IsText line := by
  induction bytes using line_induction (0x0A : UInt8) with
  | last line hline =>
    rw [linesOver_of_notMem hline]
    split
    case isTrue hnil => simp [hnil, Utf8.isText_nil]
    case isFalse => rw [List.forall_mem_singleton]
  | line line rest hline ih =>
    rw [linesOver_append_cons hline, List.forall_mem_cons,
      isText_dropReturn_iff, ← ih]
    exact Utf8.isText_append_cons_iff (c := '\n') (by decide) rfl

end DriverAudit
