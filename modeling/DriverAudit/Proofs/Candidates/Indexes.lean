import DriverAudit.Proofs.Candidates.Grammar

/-!
# What an index lists, and what that does not depend on

An index may be put together from two others, if the first ends with a line
feed. Its lines may end with a line feed alone or with a carriage return in
front of it, all of them or some. And an index may be written for a list of
paths: a heading, and for each path a line that starts with the path in quotes.

That reading behaves on all of these as one would wish follows from one
equation. An index is read up to a line feed and behind it, and the answers are
put together (`read_append_cons`). If one of the two has no answer, because it
is no text, then neither has the whole.
-/

namespace DriverAudit.FileIndex

/-! ## Reading in parts -/

theorem toByteArray_toList (d : ByteArray) : d.data.toList.toByteArray = d :=
  ByteArray.ext (Array.toList_inj.1 List.toList_data_toByteArray)

/-- What one index lists, and then what another one does. -/
def both (front back : Except FileError (List String)) :
    Except FileError (List String) := do
  let paths ← front
  let others ← back
  return paths ++ others

theorem read_of_isText (chars : List Char) :
    read (chars.flatMap String.utf8EncodeChar).toByteArray
      = .ok (pathsOf chars) := by
  have hbytes : (String.ofList chars).toUTF8
      = (chars.flatMap String.utf8EncodeChar).toByteArray := by
    rw [← toByteArray_toList (String.ofList chars).toUTF8, Utf8.toList_toUTF8,
      String.toList_ofList]
  rw [← hbytes, read_toUTF8, String.toList_ofList]

theorem read_of_not_isText {bytes : List UInt8} (h : ¬ Utf8.IsText bytes) :
    read bytes.toByteArray = .error .invalidText := by
  refine read_eq_error_iff.2 ⟨rfl, ?_⟩
  rwa [Utf8.isValidUTF8_iff_isText, List.toList_data_toByteArray]

theorem isText_append_feed_iff {front back : List UInt8} :
    Utf8.IsText (front ++ 0x0A :: back)
      ↔ Utf8.IsText front ∧ Utf8.IsText back :=
  Utf8.isText_append_cons_iff (c := '\n') (by decide) rfl

/-- **An index is read up to a line feed and behind it.** -/
theorem read_append_cons (front back : List UInt8) :
    read (front ++ 0x0A :: back).toByteArray
      = both (read front.toByteArray) (read back.toByteArray) := by
  by_cases hfront : Utf8.IsText front
  · obtain ⟨chars, rfl⟩ := hfront
    by_cases hback : Utf8.IsText back
    · obtain ⟨others, rfl⟩ := hback
      have hbytes : (chars ++ '\n' :: others).flatMap String.utf8EncodeChar
          = chars.flatMap String.utf8EncodeChar
            ++ 0x0A :: others.flatMap String.utf8EncodeChar := by
        rw [List.flatMap_append, List.flatMap_cons]
        rfl
      rw [← hbytes, read_of_isText, read_of_isText, read_of_isText,
        pathsOf_append_cons]
      rfl
    · rw [read_of_not_isText (mt isText_append_feed_iff.1 (hback ·.2)),
        read_of_isText, read_of_not_isText hback]
      rfl
  · rw [read_of_not_isText (mt isText_append_feed_iff.1 (hfront ·.1)),
      read_of_not_isText hfront]
    rfl

/-- A line feed at the end changes nothing. -/
theorem read_concat_feed (bytes : List UInt8) :
    read (bytes ++ [0x0A]).toByteArray = read bytes.toByteArray := by
  have hempty : read [].toByteArray = .ok [] := read_of_isText []
  rw [read_append_cons, hempty]
  cases read bytes.toByteArray with
  | error cause => rfl
  | ok paths => exact congrArg Except.ok (List.append_nil paths)

/-- A carriage return at the end changes nothing. -/
theorem read_concat_return (bytes : List UInt8) :
    read (bytes ++ [0x0D]).toByteArray = read bytes.toByteArray := by
  by_cases h : Utf8.IsText bytes
  · obtain ⟨chars, rfl⟩ := h
    have hbytes : (chars ++ ['\r']).flatMap String.utf8EncodeChar
        = chars.flatMap String.utf8EncodeChar ++ [0x0D] := by
      rw [List.flatMap_append]
      rfl
    rw [← hbytes, read_of_isText, read_of_isText, pathsOf_concat_return]
  · have hcut : Utf8.IsText (bytes ++ [0x0D])
        ↔ Utf8.IsText bytes ∧ Utf8.IsText [] :=
      Utf8.isText_append_cons_iff (c := '\r') (by decide) rfl
    rw [read_of_not_isText h, read_of_not_isText (mt hcut.1 (h ·.1))]

/-! ## Line ends -/

/-- A line with a line feed at its end, and a carriage return in front of it or
not. -/
def ended (withReturn : Bool) (line : List UInt8) : List UInt8 :=
  line ++ if withReturn then [0x0D, 0x0A] else [0x0A]

/-- **Data with some lines**, each with its own kind of end, and what is behind
them. -/
def written (lines : List (Bool × List UInt8)) (last : List UInt8) :
    ByteArray :=
  ((lines.flatMap fun line => ended line.1 line.2) ++ last).toByteArray

/-- **How the lines end does not matter.** -/
theorem read_written (lines : List (Bool × List UInt8)) (last : List UInt8) :
    read (written lines last)
      = read (written (lines.map fun line => (false, line.2)) last) := by
  unfold written
  induction lines with
  | nil => rfl
  | cons line lines ih =>
    obtain ⟨withReturn, line⟩ := line
    have hend : ∀ rest, read (ended withReturn line ++ rest).toByteArray
        = both (read line.toByteArray) (read rest.toByteArray) := by
      intro rest
      cases withReturn with
      | false =>
        rw [ended, if_neg Bool.false_ne_true, List.append_assoc,
          List.singleton_append, read_append_cons]
      | true =>
        have hreturn : ended true line ++ rest
            = (line ++ [0x0D]) ++ 0x0A :: rest := by
          simp [ended]
        rw [hreturn, read_append_cons, read_concat_return]
    rw [List.map_cons, List.flatMap_cons, List.flatMap_cons, List.append_assoc,
      List.append_assoc, hend, ih, ended, if_neg Bool.false_ne_true,
      List.append_assoc, List.singleton_append, read_append_cons]

/-! ## An index for some paths -/

/-- A line that starts with a path in quotes. -/
def row (path rest : String) : String := "\"" ++ path ++ "\"" ++ rest

/-- **An index for some paths**: a heading, and for each path a line with the
path in quotes and whatever follows it. -/
def indexText (heading : String) (rows : List (String × String)) : String :=
  "\n".intercalate (heading :: rows.map fun r => row r.1 r.2)

/-- What can be written for a path: the path has something to it and neither a
quote nor a line feed, and what follows it stays on the line. -/
def Writable (r : String × String) : Prop :=
  r.1 ≠ "" ∧ ('"' ∉ r.1.toList ∧ '\n' ∉ r.1.toList) ∧ '\n' ∉ r.2.toList

theorem toList_row (path rest : String) :
    (row path rest).toList = '"' :: (path.toList ++ '"' :: rest.toList) := by
  simp [row]

theorem pathsOf_row {path rest : String} (h : Writable (path, rest)) :
    pathsOf (row path rest).toList = [path] := by
  obtain ⟨hne, ⟨hquote, hfeed⟩, hrest⟩ := h
  have hnames : Names (row path rest) path :=
    ⟨hne, hquote, [], rest.toList, List.not_mem_nil, toList_row path rest⟩
  have hfree : '\n' ∉ (row path rest).toList := by
    rw [toList_row]
    simp [hfeed, hrest]
  exact (lists_line _ hfree).unique (.named hnames .nil)

/-- What is found in lines is found in each of them. -/
theorem pathsOf_intercalate (lines : List (List Char)) :
    pathsOf (['\n'].intercalate lines) = lines.flatMap pathsOf := by
  induction lines with
  | nil => rfl
  | cons line lines ih =>
    cases lines with
    | nil => simp
    | cons next lines =>
      rw [List.intercalate_cons_cons, List.append_assoc,
        List.singleton_append, pathsOf_append_cons, ih]
      rfl

/-- **What an index was written for is read from it.** -/
theorem read_indexText {heading : String} {rows : List (String × String)}
    (hquote : '"' ∉ heading.toList) (hfeed : '\n' ∉ heading.toList)
    (hrows : ∀ r ∈ rows, Writable r) :
    read (indexText heading rows).toUTF8 = .ok (rows.map Prod.fst) := by
  have hfound : rows.flatMap (fun r => pathsOf (row r.1 r.2).toList)
      = rows.map Prod.fst := by
    rw [List.map_eq_flatMap]
    exact List.flatMap_congr fun r hr => pathsOf_row (hrows r hr)
  rw [read_toUTF8, indexText, String.toList_intercalate]
  refine congrArg Except.ok ?_
  rw [show "\n".toList = ['\n'] from rfl, pathsOf_intercalate, List.map_cons,
    List.flatMap_cons, pathsOf_of_notMem hquote hfeed, List.nil_append,
    List.map_map, List.flatMap_map]
  exact hfound

/-- A line feed at the end of a text is one at the end of its bytes. -/
theorem read_toUTF8_append_feed (text : String) :
    read (text ++ "\n").toUTF8 = read text.toUTF8 := by
  have hbytes : (text ++ "\n").toUTF8
      = (text.toUTF8.data.toList ++ [0x0A]).toByteArray := by
    rw [List.toByteArray_append, toByteArray_toList]
    rfl
  rw [hbytes, read_concat_feed, toByteArray_toList]

/-! ## The reader of a file index -/

/-- **A file index is read exactly as its grammar says.** Data that are no text
are refused as a whole, and nothing else is. Otherwise all lines are text, and
what is read are the paths that they name, in their order and once for each
line. So an index that is put together behind a line feed lists what its parts
list, lines may end in a line feed with a carriage return or without, and an
index that was written for some paths gives back these paths, with a line feed
at its end or without. -/
theorem read_follows_grammar :
    (∀ d cause, read d = .error cause
        ↔ cause = .invalidText ∧ ¬ d.IsValidUTF8)
      ∧ (∀ d paths, read d = .ok paths
        ↔ ∃ lines, linesOver 0x0A 0x0D d.data.toList = bytesOf lines
          ∧ Lists lines paths)
      ∧ (∀ d e : ByteArray, d.data.toList.getLast? = some 0x0A →
        read (d ++ e) = both (read d) (read e))
      ∧ (∀ lines last, read (written lines last)
        = read (written (lines.map fun line => (false, line.2)) last))
      ∧ ∀ heading rows, '"' ∉ heading.toList → '\n' ∉ heading.toList →
        (∀ r ∈ rows, Writable r) →
        read (indexText heading rows).toUTF8 = .ok (rows.map Prod.fst)
          ∧ read (indexText heading rows ++ "\n").toUTF8
            = .ok (rows.map Prod.fst) := by
  refine ⟨fun _ _ => read_eq_error_iff, fun _ _ => read_eq_ok_iff,
    fun d e hlast => ?_, read_written,
    fun heading rows hquote hfeed hrows => ⟨?_, ?_⟩⟩
  · obtain ⟨front, hfront⟩ := List.getLast?_eq_some_iff.1 hlast
    have hd : d = (front ++ [0x0A]).toByteArray := by
      rw [← hfront, toByteArray_toList]
    have hde : (front ++ 0x0A :: e.data.toList).toByteArray = d ++ e := by
      rw [List.append_cons, List.toByteArray_append, toByteArray_toList, hd]
    rw [← hde, read_append_cons, toByteArray_toList, hd, read_concat_feed]
  · exact read_indexText hquote hfeed hrows
  · rw [read_toUTF8_append_feed]
    exact read_indexText hquote hfeed hrows

/-- An index that was written for two paths gives back these paths, also behind
another index that ends with a line feed. -/
theorem read_follows_grammar_sample :
    let index := indexText "Filename,Size" [("a.sys", ",1"), ("b c.sys", "")]
    Writable ("a.sys", ",1") ∧ Writable ("b c.sys", "")
      ∧ read index.toUTF8 = .ok ["a.sys", "b c.sys"]
      ∧ (index ++ "\n").toUTF8.data.toList.getLast? = some 0x0A
      ∧ read ((index ++ "\n").toUTF8 ++ index.toUTF8)
        = .ok ["a.sys", "b c.sys", "a.sys", "b c.sys"] := by
  intro index
  obtain ⟨_, _, hjoined, _, hwritten⟩ := read_follows_grammar
  have hfirst : Writable ("a.sys", ",1") := by
    unfold Writable
    decide
  have hsecond : Writable ("b c.sys", "") := by
    unfold Writable
    decide
  have hrows : ∀ r ∈ [("a.sys", ",1"), ("b c.sys", "")], Writable r :=
    List.forall_mem_cons.2 ⟨hfirst, List.forall_mem_singleton.2 hsecond⟩
  obtain ⟨hbare, hfed⟩ := hwritten "Filename,Size"
    [("a.sys", ",1"), ("b c.sys", "")] (by decide) (by decide) hrows
  have hlast : (index ++ "\n").toUTF8.data.toList.getLast? = some 0x0A := by
    decide +kernel
  refine ⟨hfirst, hsecond, hbare, hlast, ?_⟩
  rw [hjoined _ _ hlast, hfed, hbare]
  rfl

end DriverAudit.FileIndex
