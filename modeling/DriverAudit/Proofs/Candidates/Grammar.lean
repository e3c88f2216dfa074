import DriverAudit.Candidates
import DriverAudit.Proofs.Candidates.Lines

/-!
# What a file index lists

A line of a file index names the path between its first two quotes, provided
that there are two and that something is between them (`Names`). An index lists
the paths that its lines name, in the order of the lines (`Lists`). These two
say what an index means without saying how it is read.

It is read in one pass that never looks for the end of a line first. That this
comes to the same thing rests on one fact: a line feed forgets all but the
paths found so far, so that the pass over an index is the pass over its lines
one by one (`pathsOf_append_cons`). Whether the bytes are text can be asked
line by line as well, since no line feed is part of another character.

The grammar is stated first, then the pass is followed through one line, and
`read_grammar` puts the two together.
-/

namespace DriverAudit.FileIndex

/-! ## The grammar -/

/-- **A line that names a path**: the path is not empty, and it stands between
the first two quotes of the line. -/
def Names (line path : String) : Prop :=
  path ≠ "" ∧ '"' ∉ path.toList ∧ ∃ before behind, '"' ∉ before
    ∧ line.toList = before ++ '"' :: (path.toList ++ '"' :: behind)

/-- **Lines that list some paths**: each line that names a path adds it once,
and every other line adds nothing. -/
inductive Lists : List String → List String → Prop where
  | nil : Lists [] []
  | named {line path lines paths} : Names line path → Lists lines paths →
    Lists (line :: lines) (path :: paths)
  | unnamed {line lines paths} : (∀ path, ¬ Names line path) →
    Lists lines paths → Lists (line :: lines) paths

variable {line path : String}

/-- The path that a line names is the second of its pieces between quotes, of
which there are at least three. -/
theorem Names.splitOn_eq (h : Names line path) :
    ∃ before piece rest, line.toList.splitOn '"'
      = before :: path.toList :: piece :: rest := by
  obtain ⟨-, hpath, before, behind, hbefore, heq⟩ := h
  obtain ⟨piece, rest, hrest⟩ :=
    List.exists_cons_of_ne_nil (List.splitOn_ne_nil '"' behind)
  refine ⟨before, piece, rest, ?_⟩
  rw [heq, List.splitOn_append_cons_self_of_not_mem hbefore,
    List.splitOn_append_cons_self_of_not_mem hpath, hrest]

/-- **A line names one path at most.** -/
theorem Names.unique {other : String} (h : Names line path)
    (h' : Names line other) : path = other := by
  obtain ⟨_, _, _, hsplit⟩ := h.splitOn_eq
  obtain ⟨_, _, _, hsplit'⟩ := h'.splitOn_eq
  rw [hsplit'] at hsplit
  exact String.toList_inj.1
    (List.cons.inj (List.cons.inj hsplit).2).1.symm

/-- **Lines list one sequence of paths.** -/
theorem Lists.unique {lines paths others : List String}
    (h : Lists lines paths) (h' : Lists lines others) : paths = others := by
  induction h generalizing others with
  | nil =>
    cases h'
    rfl
  | named hline _ ih =>
    cases h' with
    | named hline' hrest => rw [hline.unique hline', ih hrest]
    | unnamed hnone _ => exact absurd hline (hnone _)
  | unnamed hnone _ ih =>
    cases h' with
    | named hline' _ => exact absurd hline' (hnone _)
    | unnamed _ hrest => exact ih hrest

/-- **Lines go on listing** what the lines behind them list. -/
theorem Lists.append {lines paths lines' paths' : List String}
    (h : Lists lines paths) (h' : Lists lines' paths') :
    Lists (lines ++ lines') (paths ++ paths') := by
  induction h with
  | nil => exact h'
  | named hline _ ih => exact .named hline ih
  | unnamed hnone _ ih => exact .unnamed hnone ih

/-- Where the quotes of a line are: there is none, or one, or there are two
that have something or nothing between them. -/
theorem quotes_cases (chars : List Char) :
    '"' ∉ chars
      ∨ (∃ before path, chars = before ++ '"' :: path
        ∧ '"' ∉ before ∧ '"' ∉ path)
      ∨ ∃ before path behind, chars = before ++ '"' :: (path ++ '"' :: behind)
        ∧ '"' ∉ before ∧ '"' ∉ path := by
  by_cases hfirst : '"' ∈ chars
  · obtain ⟨before, rest, rfl, hbefore⟩ := List.eq_append_cons_of_mem hfirst
    by_cases hsecond : '"' ∈ rest
    · obtain ⟨path, behind, rfl, hpath⟩ := List.eq_append_cons_of_mem hsecond
      exact Or.inr (Or.inr ⟨before, path, behind, rfl, hbefore, hpath⟩)
    · exact Or.inr (Or.inl ⟨before, rest, rfl, hbefore, hsecond⟩)
  · exact Or.inl hfirst

/-! ## The pass -/

/-- A pass that starts with some paths found already. -/
def Pass.after (found : Array String) (p : Pass) : Pass :=
  ⟨p.place, found ++ p.found⟩

theorem Pass.step_after (found : Array String) (p : Pass) (c : Char) :
    (p.after found).step c = (p.step c).after found := by
  obtain ⟨place, own⟩ := p
  cases place <;> simp only [Pass.step, Pass.after] <;> split_ifs <;>
    simp only [Array.append_push]

/-- **Paths that were found already do not change the pass.** -/
theorem Pass.foldl_after (found : Array String) (p : Pass)
    (chars : List Char) :
    chars.foldl Pass.step (p.after found)
      = (chars.foldl Pass.step p).after found := by
  induction chars generalizing p with
  | nil => rfl
  | cons c chars ih =>
    rw [List.foldl_cons, Pass.step_after, ih, List.foldl_cons]

/-- The start of a pass. -/
def Pass.start : Pass := ⟨.outside, #[]⟩

/-- The paths that a pass over some characters finds. -/
def pathsOf (chars : List Char) : List String :=
  (chars.foldl Pass.step .start).found.toList

/-- **A line feed separates what the pass finds.** -/
theorem pathsOf_append_cons (front back : List Char) :
    pathsOf (front ++ '\n' :: back) = pathsOf front ++ pathsOf back := by
  unfold pathsOf
  rw [List.foldl_append, List.foldl_cons]
  generalize front.foldl Pass.step .start = p
  have hstep : p.step '\n' = Pass.start.after p.found := by
    simp [Pass.step, Pass.start, Pass.after]
  rw [hstep, Pass.foldl_after, Pass.after, Array.toList_append]

section Line

variable {chars : List Char} (hquote : '"' ∉ chars) (hfeed : '\n' ∉ chars)

include hquote hfeed

theorem foldl_outside (found : Array String) :
    chars.foldl Pass.step ⟨.outside, found⟩ = ⟨.outside, found⟩ := by
  induction chars with
  | nil => rfl
  | cons c chars ih =>
    rw [List.mem_cons, not_or] at hquote hfeed
    rw [List.foldl_cons, Pass.step, if_neg (Ne.symm hfeed.1)]
    simp only
    rw [if_neg (Ne.symm hquote.1), ih hquote.2 hfeed.2]

theorem foldl_inside (path : String) (found : Array String) :
    chars.foldl Pass.step ⟨.inside path, found⟩
      = ⟨.inside (path ++ String.ofList chars), found⟩ := by
  induction chars generalizing path with
  | nil => simp
  | cons c chars ih =>
    rw [List.mem_cons, not_or] at hquote hfeed
    rw [List.foldl_cons, Pass.step, if_neg (Ne.symm hfeed.1)]
    simp only
    rw [if_neg (Ne.symm hquote.1), ih hquote.2 hfeed.2]
    simp [String.ofList_cons, String.append_assoc, ← String.append_singleton]

omit hquote in
theorem foldl_behind (found : Array String) :
    chars.foldl Pass.step ⟨.behind, found⟩ = ⟨.behind, found⟩ := by
  induction chars with
  | nil => rfl
  | cons c chars ih =>
    rw [List.mem_cons, not_or] at hfeed
    rw [List.foldl_cons, Pass.step, if_neg (Ne.symm hfeed.1)]
    exact ih hfeed.2

/-- A line without quotes has nothing found in it. -/
theorem pathsOf_of_notMem : pathsOf chars = [] := by
  rw [pathsOf, Pass.start, foldl_outside hquote hfeed]

/-- **What is found in a line with quotes** depends on what follows the first
one. -/
theorem foldl_append_quote (rest : List Char) :
    (chars ++ '"' :: rest).foldl Pass.step .start
      = rest.foldl Pass.step ⟨.inside "", #[]⟩ := by
  rw [List.foldl_append, Pass.start, foldl_outside hquote hfeed,
    List.foldl_cons]
  rfl

end Line

/-- **The pass over one line finds what the line names.** -/
theorem lists_line (line : String) (hfeed : '\n' ∉ line.toList) :
    Lists [line] (pathsOf line.toList) := by
  rcases quotes_cases line.toList with
    hnone | ⟨before, path, heq, hbefore, hpath⟩
      | ⟨before, path, behind, heq, hbefore, hpath⟩
  · -- no quote
    rw [pathsOf_of_notMem hnone hfeed]
    refine .unnamed (fun path h => ?_) .nil
    obtain ⟨_, _, _, hsplit⟩ := h.splitOn_eq
    rw [List.splitOn_eq_singleton hnone] at hsplit
    cases hsplit
  · -- a quote that is not closed
    rw [heq, List.mem_append, List.mem_cons, not_or, not_or] at hfeed
    have hfound : pathsOf line.toList = [] := by
      rw [pathsOf, heq, foldl_append_quote hbefore hfeed.1,
        foldl_inside hpath hfeed.2.2]
    rw [hfound]
    refine .unnamed (fun path h => ?_) .nil
    obtain ⟨_, _, _, hsplit⟩ := h.splitOn_eq
    rw [heq, List.splitOn_append_cons_self_of_not_mem hbefore,
      List.splitOn_eq_singleton hpath] at hsplit
    cases hsplit
  · -- a pair of quotes
    rw [heq, List.mem_append, List.mem_cons, List.mem_append, List.mem_cons,
      not_or, not_or, not_or, not_or] at hfeed
    have hfound : pathsOf line.toList
        = if path = [] then [] else [String.ofList path] := by
      rw [pathsOf, heq, foldl_append_quote hbefore hfeed.1, List.foldl_append,
        foldl_inside hpath hfeed.2.2.1, List.foldl_cons, String.empty_append]
      have hstep : Pass.step ⟨.inside (String.ofList path), #[]⟩ '"'
          = ⟨.behind, if path = [] then #[] else #[String.ofList path]⟩ := by
        simp [Pass.step]
      rw [hstep, foldl_behind hfeed.2.2.2.2]
      split <;> rfl
    rw [hfound]
    split
    case isTrue hempty =>
      refine .unnamed (fun other h => h.1 ?_) .nil
      obtain ⟨_, _, _, hsplit⟩ := h.splitOn_eq
      rw [heq, List.splitOn_append_cons_self_of_not_mem hbefore,
        List.splitOn_append_cons_self_of_not_mem hpath, hempty] at hsplit
      have hname := (List.cons.inj (List.cons.inj hsplit).2).1
      exact String.toList_eq_nil_iff.1 hname.symm
    case isFalse hne =>
      refine .named ⟨?_, ?_, before, behind, hbefore, ?_⟩ .nil
      · exact fun h => hne (String.ofList_eq_empty_iff.1 h)
      · rwa [String.toList_ofList]
      · rwa [String.toList_ofList]

/-! ## The pass over an index -/

/-- A carriage return at the end of a line changes nothing. -/
theorem pathsOf_concat_return (chars : List Char) :
    pathsOf (chars ++ ['\r']) = pathsOf chars := by
  unfold pathsOf
  rw [List.foldl_append]
  generalize chars.foldl Pass.step .start = p
  obtain ⟨place, found⟩ := p
  cases place <;> rfl

theorem pathsOf_dropReturn (chars : List Char) :
    pathsOf (dropReturn '\r' chars) = pathsOf chars := by
  by_cases h : chars.getLast? = some '\r'
  · obtain ⟨front, rfl⟩ := List.getLast?_eq_some_iff.1 h
    rw [dropReturn_concat_self, pathsOf_concat_return]
  · rw [dropReturn_of_getLast?_ne h]

/-- The lines of a text, as texts. -/
def textLines (chars : List Char) : List String :=
  (linesOver '\n' '\r' chars).map String.ofList

/-- **The pass over a text finds what its lines list.** -/
theorem lists_pathsOf (chars : List Char) :
    Lists (textLines chars) (pathsOf chars) := by
  induction chars using line_induction '\n' with
  | last line hline =>
    rw [textLines, linesOver_of_notMem hline]
    split
    case isTrue hnil =>
      rw [hnil]
      exact .nil
    case isFalse =>
      have hlists := lists_line (String.ofList line)
        (by rwa [String.toList_ofList])
      rwa [String.toList_ofList] at hlists
  | line line rest hline ih =>
    have hlists := lists_line (String.ofList (dropReturn '\r' line))
      (by
        rw [String.toList_ofList]
        exact fun h => hline (mem_of_mem_dropReturn h))
    rw [String.toList_ofList, pathsOf_dropReturn] at hlists
    rw [textLines, linesOver_append_cons hline, pathsOf_append_cons,
      List.map_cons]
    exact hlists.append ih

/-! ## Reading an index -/

theorem read_toUTF8 (text : String) :
    read text.toUTF8 = .ok (pathsOf text.toList) := by
  have htext : String.fromUTF8? text.toUTF8 = some text :=
    dif_pos text.isValidUTF8
  rw [read, htext, pathsOf, ← String.foldl_eq_foldl_toList]
  rfl

theorem read_eq_error_iff {d : ByteArray} {cause : FileError} :
    read d = .error cause ↔ cause = .invalidText ∧ ¬ d.IsValidUTF8 := by
  unfold read String.fromUTF8?
  by_cases h : d.IsValidUTF8
  · rw [dif_pos h]
    exact iff_of_false nofun (fun hnot => hnot.2 h)
  · rw [dif_neg h]
    constructor
    · rintro ⟨⟩
      exact ⟨rfl, h⟩
    · rintro ⟨rfl, -⟩
      rfl

/-- Data that are text are the bytes of some text. -/
theorem exists_toUTF8_eq {d : ByteArray} (h : d.IsValidUTF8) :
    ∃ text : String, text.toUTF8 = d :=
  ⟨String.fromUTF8 d h, rfl⟩

/-- The bytes of some lines. -/
def bytesOf (lines : List String) : List (List UInt8) :=
  lines.map fun line => line.toUTF8.data.toList

theorem linesOver_toUTF8 (text : String) :
    linesOver 0x0A 0x0D text.toUTF8.data.toList
      = bytesOf (textLines text.toList) := by
  rw [Utf8.toList_toUTF8, linesOver_utf8, bytesOf, textLines, List.map_map]
  refine List.map_congr_left fun line _ => ?_
  rw [Function.comp_apply, Utf8.toList_toUTF8, String.toList_ofList]

theorem bytesOf_inj {lines others : List String}
    (h : bytesOf lines = bytesOf others) : lines = others := by
  refine List.map_injective_iff.2 (fun s t hst => ?_) h
  rw [Utf8.toList_toUTF8, Utf8.toList_toUTF8] at hst
  exact String.toList_inj.1 (Utf8.flatMap_utf8EncodeChar_inj hst)

/-- **An index is read as its lines say**, which are taken from its bytes and
must all be text. -/
theorem read_eq_ok_iff {d : ByteArray} {paths : List String} :
    read d = .ok paths
      ↔ ∃ lines, linesOver 0x0A 0x0D d.data.toList = bytesOf lines
        ∧ Lists lines paths := by
  constructor
  · intro h
    have hvalid : d.IsValidUTF8 := by
      by_contra hnot
      rw [read_eq_error_iff.2 ⟨rfl, hnot⟩] at h
      cases h
    obtain ⟨text, rfl⟩ := exists_toUTF8_eq hvalid
    obtain rfl := Except.ok.inj ((read_toUTF8 text).symm.trans h)
    exact ⟨_, linesOver_toUTF8 text, lists_pathsOf text.toList⟩
  · rintro ⟨lines, hlines, hlists⟩
    have hvalid : d.IsValidUTF8 := by
      rw [Utf8.isValidUTF8_iff_isText, isText_iff_forall_mem_lines, hlines]
      rintro _ hmem
      obtain ⟨line, -, rfl⟩ := List.mem_map.1 hmem
      exact ⟨line.toList, (Utf8.toList_toUTF8 line).symm⟩
    obtain ⟨text, rfl⟩ := exists_toUTF8_eq hvalid
    obtain rfl := bytesOf_inj ((linesOver_toUTF8 text).symm.trans hlines)
    rw [read_toUTF8, hlists.unique (lists_pathsOf text.toList)]

end DriverAudit.FileIndex
