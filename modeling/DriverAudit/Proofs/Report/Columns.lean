import DriverAudit.Report.Text
import Mathlib.Data.List.Basic
import Mathlib.Data.List.Forall2
import Mathlib.Data.List.TakeWhile

/-!
# The text of a report is a table that can be read back

A line of the report has two columns. The short name stands in the first, which
is five blanks wider than the longest name of the report. The second holds the
findings between brackets and, behind these, their number (`Shows`).

The lines are read back from the outside in (`row_inj`). The first opening
bracket ends the name and its blanks, the last blank separates the findings
from their number, and the blanks between the findings separate the findings.
That works as long as no name has an opening bracket or a blank at its end and
no finding has a blank. Closing brackets and slashes in a finding do no harm.
The number is not idle: without it, a driver with no finding and one with the
empty name as its finding would look the same.
-/

namespace DriverAudit

/-! ## Cutting a list where a letter stands -/

section Cutting

variable {α : Type} [DecidableEq α] {a : α} {x x' z z' : List α}

/-- What stands before the first occurrence of a letter, and what behind. -/
theorem eq_of_append_cons_eq (hx : a ∉ x) (hx' : a ∉ x')
    (h : x ++ a :: z = x' ++ a :: z') : x = x' ∧ z = z' := by
  have hpieces := congrArg (List.splitOn a) h
  rw [List.splitOn_append_cons_self_of_not_mem hx,
    List.splitOn_append_cons_self_of_not_mem hx'] at hpieces
  obtain rfl := (List.cons.inj hpieces).1
  exact ⟨rfl, (List.cons.inj (List.append_cancel_left h)).2⟩

/-- What stands before the last occurrence of a letter, and what behind. -/
theorem eq_of_append_cons_eq_of_last (hz : a ∉ z) (hz' : a ∉ z')
    (h : x ++ a :: z = x' ++ a :: z') : x = x' ∧ z = z' := by
  have hback : z.reverse ++ a :: x.reverse = z'.reverse ++ a :: x'.reverse := by
    simpa using congrArg List.reverse h
  obtain ⟨hz, hx⟩ := eq_of_append_cons_eq (mt List.mem_reverse.1 hz)
    (mt List.mem_reverse.1 hz') hback
  exact ⟨List.reverse_inj.1 hx, List.reverse_inj.1 hz⟩

omit [DecidableEq α] in
/-- What stands before all the copies of a letter at the end. -/
theorem eq_of_append_replicate_eq (hx : x.getLast? ≠ some a)
    (hx' : x'.getLast? ≠ some a) {k k' : Nat}
    (h : x ++ List.replicate k a = x' ++ List.replicate k' a) : x = x' := by
  induction k generalizing k' with
  | zero =>
    cases k' with
    | zero => simpa using h
    | succ k' =>
      refine absurd ?_ hx
      rw [List.replicate_zero, List.append_nil] at h
      rw [h, List.replicate_succ', ← List.append_assoc,
        List.getLast?_concat]
  | succ k ih =>
    cases k' with
    | zero =>
      refine absurd ?_ hx'
      rw [List.replicate_zero, List.append_nil] at h
      rw [← h, List.replicate_succ', ← List.append_assoc,
        List.getLast?_concat]
    | succ k' =>
      rw [List.replicate_succ', List.replicate_succ', ← List.append_assoc,
        ← List.append_assoc] at h
      exact ih (List.append_inj_left' h rfl)

/-- **Pieces that are joined can be told apart** by a letter that starts the
separator and is in no piece, if it is known how many they are. -/
theorem intercalate_inj {sep : List α} {pieces pieces' : List (List α)}
    (hlength : pieces.length = pieces'.length)
    (hpieces : ∀ p ∈ pieces, a ∉ p) (hpieces' : ∀ p ∈ pieces', a ∉ p)
    (h : (a :: sep).intercalate pieces = (a :: sep).intercalate pieces') :
    pieces = pieces' := by
  induction pieces generalizing pieces' with
  | nil => exact (List.length_eq_zero_iff.1 hlength.symm).symm
  | cons p rest ih =>
    obtain _ | ⟨p', rest'⟩ := pieces'
    · cases hlength
    cases rest with
    | nil =>
      obtain rfl := List.length_eq_zero_iff.1 (Nat.succ.inj hlength).symm
      simpa using h
    | cons q rest =>
      obtain _ | ⟨q', rest'⟩ := rest'
      · cases hlength
      rw [List.intercalate_cons_cons, List.intercalate_cons_cons,
        List.append_assoc, List.append_assoc, List.cons_append,
        List.cons_append] at h
      obtain ⟨hhead, htail⟩ := eq_of_append_cons_eq
        (hpieces p List.mem_cons_self) (hpieces' p' List.mem_cons_self) h
      have hrest := ih (Nat.succ.inj hlength)
        (fun p hp => hpieces p (List.mem_cons_of_mem _ hp))
        (fun p hp => hpieces' p (List.mem_cons_of_mem _ hp))
        (List.append_cancel_left htail)
      rw [hhead, hrest]

omit [DecidableEq α] in
theorem notMem_intercalate {sep : List α} {pieces : List (List α)}
    (hsep : a ∉ sep) (hpieces : ∀ p ∈ pieces, a ∉ p) :
    a ∉ sep.intercalate pieces := by
  induction pieces with
  | nil => exact List.not_mem_nil
  | cons p rest ih =>
    have hp := hpieces p List.mem_cons_self
    cases rest with
    | nil => simpa using hp
    | cons q rest =>
      rw [List.intercalate_cons_cons]
      have hrest := ih fun p hp => hpieces p (List.mem_cons_of_mem _ hp)
      exact fun hmem => (List.mem_append.1 hmem).elim
        (fun h => (List.mem_append.1 h).elim hp hsep) hrest

/-- **Lines can be told apart** by the letter that ends them. -/
theorem splitOn_flatMap_concat {lines : List (List α)}
    (h : ∀ l ∈ lines, a ∉ l) :
    (lines.flatMap (· ++ [a])).splitOn a = lines ++ [[]] := by
  induction lines with
  | nil => rw [List.flatMap_nil, List.splitOn_nil, List.nil_append]
  | cons l lines ih =>
    rw [List.flatMap_cons, List.append_assoc, List.singleton_append,
      List.splitOn_append_cons_self_of_not_mem (h l List.mem_cons_self),
      ih fun l hl => h l (List.mem_cons_of_mem _ hl), List.cons_append]

end Cutting

/-- **What can be told of each element** can be told of all of them. -/
theorem map_eq_map_of_forall {α β γ : Type} {l l' : List α} {f f' : α → β}
    {g : α → γ} (hg : ∀ a ∈ l, ∀ b ∈ l', f a = f' b → g a = g b)
    (h : l.map f = l'.map f') : l.map g = l'.map g := by
  induction l generalizing l' with
  | nil =>
    rw [List.map_eq_nil_iff.1 h.symm]
  | cons a l ih =>
    obtain _ | ⟨b, l'⟩ := l'
    · cases h
    obtain ⟨hhead, htail⟩ := List.cons.inj h
    rw [List.map_cons, List.map_cons,
      hg a List.mem_cons_self b List.mem_cons_self hhead,
      ih (fun a ha b hb => hg a (List.mem_cons_of_mem _ ha) b
        (List.mem_cons_of_mem _ hb)) htail]

/-! ## Short names -/

namespace Path

theorem isSeparator_iff {c : Char} :
    isSeparator c = true ↔ c = '/' ∨ c = '\\' := by
  simp [isSeparator]

/-- **The short name is what follows the last separator** of a path. -/
theorem exists_toList_eq_append_shortName (path : String) :
    ∃ directory, path.toList = directory ++ (shortName path).toList
      ∧ (∀ c ∈ (shortName path).toList, ¬ (c = '/' ∨ c = '\\'))
      ∧ (directory = [] ∨ ∃ c, directory.getLast? = some c
        ∧ (c = '/' ∨ c = '\\')) := by
  have hname : (shortName path).toList
      = (path.toList.reverse.takeWhile fun c => !isSeparator c).reverse :=
    String.toList_ofList
  refine ⟨(path.toList.reverse.dropWhile fun c => !isSeparator c).reverse,
    ?_, fun c hc => ?_, ?_⟩
  · rw [hname, ← List.reverse_append, List.takeWhile_append_dropWhile,
      List.reverse_reverse]
  · rw [hname, List.mem_reverse] at hc
    rw [← isSeparator_iff]
    simpa using List.mem_takeWhile_imp hc
  · have hlast := List.head?_dropWhile_not (fun c => !isSeparator c)
      path.toList.reverse
    rw [List.getLast?_reverse]
    split at hlast
    case h_1 c hc =>
      exact Or.inr ⟨c, hc, isSeparator_iff.1 (by simpa using hlast)⟩
    case h_2 hnone => exact Or.inl (by rw [List.head?_eq_none_iff.1 hnone]; rfl)

end Path

/-! ## The width of the first column -/

theorem foldl_max_eq_of_forall_le {l : List Nat} {m : Nat} (hm : m ∈ l)
    (hle : ∀ n ∈ l, n ≤ m) : l.foldl max 0 = m := by
  rw [List.foldl_max, List.max?_eq_some_iff.2 ⟨hm, hle⟩]
  exact Nat.zero_max m

namespace BatchReport

variable (r : BatchReport)

/-- The lengths of the short names in a report. -/
def nameLengths : List Nat :=
  r.flagged.map fun f => (Path.shortName f.path).length

/-- **The longest name settles the column.** -/
theorem exists_longest (h : r.flagged ≠ []) :
    ∃ f ∈ r.flagged, (Path.shortName f.path).length + columnGap = r.column
      ∧ ∀ g ∈ r.flagged, (Path.shortName g.path).length
        ≤ (Path.shortName f.path).length := by
  have hne : r.nameLengths ≠ [] := fun hnil => h (List.map_eq_nil_iff.1 hnil)
  obtain ⟨m, hm⟩ := Option.ne_none_iff_exists'.1
    (mt List.max?_eq_none_iff.1 hne)
  obtain ⟨hmem, hle⟩ := List.max?_eq_some_iff.1 hm
  obtain ⟨f, hf, rfl⟩ := List.mem_map.1 hmem
  refine ⟨f, hf, ?_, fun g hg => hle _ (List.mem_map_of_mem hg)⟩
  exact congrArg (· + columnGap) (foldl_max_eq_of_forall_le hmem hle).symm

/-- **Every name leaves room for the gap.** -/
theorem length_shortName_add_le {f : ScanResult} (hf : f ∈ r.flagged) :
    (Path.shortName f.path).length + columnGap ≤ r.column := by
  obtain ⟨g, _, hcolumn, hle⟩ := r.exists_longest (List.ne_nil_of_mem hf)
  exact hcolumn ▸ Nat.add_le_add_right (hle f hf) columnGap

end BatchReport

/-! ## Lines -/

/-- **What stands behind the opening bracket** of a line. -/
def ScanResult.findings (f : ScanResult) : List Char :=
  ([' ', '/', ' '].intercalate (f.matched.names.map String.toList) ++ [']'])
    ++ ' ' :: '(' :: (Nat.toDigits 10 f.matchCount ++ [')'])

/-- The characters of a line up to its end. -/
def ScanResult.row (column : Nat) (f : ScanResult) : List Char :=
  ((Path.shortName f.path).toList
      ++ List.replicate (column - (Path.shortName f.path).length) ' ')
    ++ '[' :: f.findings

theorem ScanResult.toList_line (column : Nat) (f : ScanResult) :
    (f.line column).toList = f.row column ++ ['\n'] := by
  simp [line, row, findings, String.toList_append, String.toList_intercalate,
    Nat.toString_eq_repr, Nat.toList_repr]

/-- **The text of a report, line by line.** -/
theorem BatchReport.toList_renderText (r : BatchReport) :
    r.renderText.toList
      = (r.flagged.map (ScanResult.row r.column)).flatMap (· ++ ['\n']) := by
  rw [renderText, String.toList_join, List.flatMap_map, List.flatMap_map]
  exact congrArg (List.flatMap · _) (funext fun f => f.toList_line r.column)

/-- **A report without line ends** in its short names and findings. -/
structure BatchReport.IsLinewise (r : BatchReport) : Prop where
  names : ∀ f ∈ r.flagged, '\n' ∉ (Path.shortName f.path).toList
  findings : ∀ f ∈ r.flagged, ∀ s ∈ f.matched.names, '\n' ∉ s.toList

/-- **A report whose text can be read back**: no short name has an opening
bracket or a blank at its end, and no finding has a blank. -/
structure BatchReport.IsLegible (r : BatchReport) : Prop where
  brackets : ∀ f ∈ r.flagged, '[' ∉ (Path.shortName f.path).toList
  blanks : ∀ f ∈ r.flagged, (Path.shortName f.path).toList.getLast? ≠ some ' '
  findings : ∀ f ∈ r.flagged, ∀ s ∈ f.matched.names, ' ' ∉ s.toList

theorem notMem_toDigits {c : Char} (hc : c.isDigit = false) (n : Nat) :
    c ∉ Nat.toDigits 10 n := by
  intro hmem
  rw [Nat.isDigit_of_mem_toDigits (by decide) (by decide) hmem] at hc
  cases hc

/-- **Numbers with the same digits are equal.** -/
theorem toDigits_inj {m n : Nat}
    (h : Nat.toDigits 10 m = Nat.toDigits 10 n) : m = n := by
  simpa only [Nat.ofDigitChars_ten_toDigits]
    using congrArg (Nat.ofDigitChars 10 · 0) h

namespace ScanResult

variable {f g : ScanResult} {column column' : Nat}

theorem newline_notMem_row (hname : '\n' ∉ (Path.shortName f.path).toList)
    (hfindings : ∀ s ∈ f.matched.names, '\n' ∉ s.toList) :
    '\n' ∉ f.row column := by
  have hnames : '\n' ∉ [' ', '/', ' '].intercalate
      (f.matched.names.map String.toList) := by
    refine notMem_intercalate (by decide) fun p hp => ?_
    obtain ⟨s, hs, rfl⟩ := List.mem_map.1 hp
    exact hfindings s hs
  have hcount := notMem_toDigits (c := '\n') (by decide) f.matchCount
  simp [row, findings, hname, hnames, hcount]

/-- **What stands behind the bracket** is read back: the findings end at the
last blank, and what follows it says how many they are. -/
theorem matched_eq_of_findings_eq (hf : ∀ s ∈ f.matched.names, ' ' ∉ s.toList)
    (hg : ∀ s ∈ g.matched.names, ' ' ∉ s.toList)
    (h : f.findings = g.findings) : f.matched = g.matched := by
  have hblank : ∀ n : Nat, ' ' ∉ '(' :: (Nat.toDigits 10 n ++ [')']) := by
    intro n
    simp [notMem_toDigits (c := ' ') (by decide) n]
  obtain ⟨hnames, hcount⟩ := eq_of_append_cons_eq_of_last
    (hblank f.matchCount) (hblank g.matchCount) h
  have hlength : f.matchCount = g.matchCount :=
    toDigits_inj (List.append_cancel_right (List.cons.inj hcount).2)
  have hpieces : f.matched.names.map String.toList
      = g.matched.names.map String.toList := by
    refine intercalate_inj (a := ' ') ?_ ?_ ?_ (List.append_cancel_right hnames)
    · rw [List.length_map, List.length_map]
      exact hlength
    · exact List.forall_mem_map.2 hf
    · exact List.forall_mem_map.2 hg
  exact NameSet.ext
    ((List.map_inj_right fun _ _ => String.toList_injective).1 hpieces)

/-- **A line is read back**: the first opening bracket ends the name and the
blanks behind it. -/
theorem row_inj (hf : '[' ∉ (Path.shortName f.path).toList)
    (hg : '[' ∉ (Path.shortName g.path).toList)
    (hf' : (Path.shortName f.path).toList.getLast? ≠ some ' ')
    (hg' : (Path.shortName g.path).toList.getLast? ≠ some ' ')
    (h : f.row column = g.row column') :
    Path.shortName f.path = Path.shortName g.path
      ∧ f.findings = g.findings := by
  have hcell : ∀ {name : List Char} (k : Nat), '[' ∉ name
      → '[' ∉ name ++ List.replicate k ' ' := by
    intro name k hname hmem
    obtain hmem | hmem := List.mem_append.1 hmem
    · exact hname hmem
    · exact absurd (List.eq_of_mem_replicate hmem) (by decide)
  obtain ⟨hname, hfindings⟩ :=
    eq_of_append_cons_eq (hcell _ hf) (hcell _ hg) h
  exact ⟨String.toList_inj.1 (eq_of_append_replicate_eq hf' hg' hname),
    hfindings⟩

end ScanResult

namespace BatchReport

/-- **A line that shows a result** with its findings in some column: the short
name, at least five blanks, and from that column on the findings between
brackets and their number. -/
structure Shows (column : Nat) (f : ScanResult) (line : String) : Prop where
  cells : ∃ blanks, 5 ≤ blanks
    ∧ (Path.shortName f.path).length + blanks = column
    ∧ line = Path.shortName f.path ++ String.ofList (List.replicate blanks ' ')
      ++ "[" ++ " / ".intercalate f.matched.names
      ++ "] (" ++ toString f.matched.names.length ++ ")"
  bracket : line.toList[column]? = some '['
  newline : '\n' ∉ line.toList

variable {r r' : BatchReport}

/-- **The rows of a report show its results.** -/
theorem shows_row (h : r.IsLinewise) {f : ScanResult} (hf : f ∈ r.flagged) :
    Shows r.column f (String.ofList (f.row r.column)) where
  cells := by
    have hle := r.length_shortName_add_le hf
    have hgap : 5 = columnGap := rfl
    refine ⟨r.column - (Path.shortName f.path).length, by omega, by omega, ?_⟩
    refine String.toList_inj.1 ?_
    simp [ScanResult.row, ScanResult.findings, String.toList_append,
      String.toList_intercalate, Nat.toString_eq_repr, Nat.toList_repr,
      ScanResult.matchCount, NameSet.size]
  bracket := by
    have hle := r.length_shortName_add_le hf
    have hlength : ((Path.shortName f.path).toList ++ List.replicate
        (r.column - (Path.shortName f.path).length) ' ').length = r.column := by
      rw [List.length_append, List.length_replicate, String.length_toList]
      omega
    rw [String.toList_ofList, ScanResult.row,
      List.getElem?_append_right (Nat.le_of_eq hlength), hlength,
      Nat.sub_self]
    rfl
  newline := by
    rw [String.toList_ofList]
    exact ScanResult.newline_notMem_row (h.names f hf) (h.findings f hf)

/-- **The lines of a report show its results**, one after the other. -/
theorem forall₂_shows (h : r.IsLinewise) :
    ∃ lines, r.renderText = String.join (lines.map (· ++ "\n"))
      ∧ List.Forall₂ (Shows r.column) r.flagged lines := by
  refine ⟨r.flagged.map fun f => String.ofList (f.row r.column), ?_, ?_⟩
  · refine String.toList_inj.1 ?_
    rw [toList_renderText, String.toList_join, List.map_map, List.flatMap_map,
      List.flatMap_map]
    refine congrArg (List.flatMap · _) (funext fun f => ?_)
    rw [Function.comp_apply, String.toList_append, String.toList_ofList]
    rfl
  · rw [List.forall₂_map_right_iff, List.forall₂_same]
    exact fun f hf => shows_row h hf

/-- **Texts that are equal have equal rows**, one for each result. -/
theorem map_row_eq_of_renderText_eq (h : r.IsLinewise) (h' : r'.IsLinewise)
    (heq : r.renderText = r'.renderText) :
    r.flagged.map (ScanResult.row r.column)
      = r'.flagged.map (ScanResult.row r'.column) := by
  have hlines : ∀ {r : BatchReport}, r.IsLinewise →
      ∀ l ∈ r.flagged.map (ScanResult.row r.column), '\n' ∉ l := by
    intro r h
    exact List.forall_mem_map.2 fun f hf =>
      ScanResult.newline_notMem_row (h.names f hf) (h.findings f hf)
  have hcut := congrArg (List.splitOn '\n' ∘ String.toList) heq
  simp only [Function.comp_apply, toList_renderText,
    splitOn_flatMap_concat (hlines h), splitOn_flatMap_concat (hlines h')]
    at hcut
  exact List.append_cancel_right hcut

/-- **Legible texts that are equal** are those of the same names with the same
findings. -/
theorem map_name_matched_eq (h : r.IsLinewise) (h' : r'.IsLinewise)
    (hlegible : r.IsLegible) (hlegible' : r'.IsLegible)
    (heq : r.renderText = r'.renderText) :
    r.flagged.map (fun f => (Path.shortName f.path, f.matched))
      = r'.flagged.map fun f => (Path.shortName f.path, f.matched) := by
  refine map_eq_map_of_forall (fun f hf g hg hrow => ?_)
    (map_row_eq_of_renderText_eq h h' heq)
  obtain ⟨hname, hfindings⟩ := ScanResult.row_inj (hlegible.brackets f hf)
    (hlegible'.brackets g hg) (hlegible.blanks f hf) (hlegible'.blanks g hg)
    hrow
  exact Prod.ext hname (ScanResult.matched_eq_of_findings_eq
    (hlegible.findings f hf) (hlegible'.findings g hg) hfindings)

/-- **The text of a report is aligned and loses nothing that it shows.** Every
short name leaves at least five blanks before the column of the findings, the
longest exactly five, so that no padding is cut short. The text has a line for
each result in the order of the report, each with its end and no other, and
each shows its result with its findings in that one column.

Two reports that are legible and have the same text show the same names with
the same findings. A path is in the text only by its short name, which is what
follows its last separator of either kind; what a path that is not text looks
like is settled before the report is made. -/
theorem renderText_aligned :
    (∀ r : BatchReport,
      (∀ f ∈ r.flagged, (Path.shortName f.path).length + 5 ≤ r.column)
        ∧ (r.flagged ≠ [] → ∃ f ∈ r.flagged,
          (Path.shortName f.path).length + 5 = r.column)
        ∧ (r.IsLinewise → ∃ lines,
          r.renderText = String.join (lines.map (· ++ "\n"))
            ∧ List.Forall₂ (Shows r.column) r.flagged lines)
        ∧ ∀ f ∈ r.flagged, f.matched.names.Pairwise (· < ·))
    ∧ (∀ path, ∃ directory,
        path.toList = directory ++ (Path.shortName path).toList
        ∧ (∀ c ∈ (Path.shortName path).toList, ¬ (c = '/' ∨ c = '\\'))
        ∧ (directory = [] ∨ ∃ c, directory.getLast? = some c
          ∧ (c = '/' ∨ c = '\\')))
    ∧ ∀ r r' : BatchReport, r.IsLinewise → r'.IsLinewise → r.IsLegible
      → r'.IsLegible → r.renderText = r'.renderText
      → r.flagged.map (fun f => (Path.shortName f.path, f.matched))
        = r'.flagged.map fun f => (Path.shortName f.path, f.matched) := by
  refine ⟨fun r => ⟨fun f hf => r.length_shortName_add_le hf, fun hne => ?_,
      forall₂_shows, fun f _ => f.matched.ascending⟩,
    Path.exists_toList_eq_append_shortName, fun r r' => map_name_matched_eq⟩
  obtain ⟨f, hf, hcolumn, _⟩ := r.exists_longest hne
  exact ⟨f, hf, hcolumn⟩

/-- A report on two drivers in directories of either kind. -/
def tableSample (directory : String) : BatchReport where
  totalCandidates := 2
  scanned := 2
  clean := 0
  failures := []
  flagged :=
    [⟨directory ++ "RTCore64.sys", .pe32Plus, .x86_64, 4,
      ⟨["MmGetPhysicalAddress", "MmMapIoSpace"], by decide⟩⟩,
     ⟨"C:\\two.sys", .pe32, .i386, 3, ⟨["]"], by decide⟩⟩]

/-- Both names of the sample leave room, and the sample is shown alike from
whichever directory its first driver comes. -/
theorem renderText_aligned_sample :
    (∃ lines, (tableSample "/d/").renderText
          = String.join (lines.map (· ++ "\n"))
        ∧ List.Forall₂ (Shows 17) (tableSample "/d/").flagged lines)
      ∧ (tableSample "/d/").flagged.map
          (fun f => (Path.shortName f.path, f.matched))
        = (tableSample "/e/f/").flagged.map
          fun f => (Path.shortName f.path, f.matched) := by
  obtain ⟨hshown, _, hinj⟩ := renderText_aligned
  have hd : (tableSample "/d/").IsLinewise := ⟨by decide, by decide⟩
  have he : (tableSample "/e/f/").IsLinewise := ⟨by decide, by decide⟩
  have hd' : (tableSample "/d/").IsLegible :=
    ⟨by decide, by decide, by decide⟩
  have he' : (tableSample "/e/f/").IsLegible :=
    ⟨by decide, by decide, by decide⟩
  exact ⟨(hshown (tableSample "/d/")).2.2.1 hd,
    hinj _ _ hd he hd' he' (by decide)⟩

end BatchReport

end DriverAudit
