import DriverAudit.Json.Token

/-!
# Reading JSON

A document is read token by token. What has been read of the values that are
still open is kept on a stack, and the state says what may come next. So a
document may be nested as deeply as its text is long.
-/

namespace DriverAudit.Json

/-! ## Tokens get shorter -/

theorem digits_length_lt {cs ds left : List Char}
    (h : digits cs = some (ds, left)) : left.length < cs.length := by
  unfold digits at h
  split at h
  · cases h
  · next hne =>
    obtain ⟨rfl, rfl⟩ := Prod.mk.inj (Option.some.inj h)
    have hsplit := congrArg List.length (List.takeWhile_append_dropWhile
      (p := isDigit) (l := cs))
    have hpos : 0 < (cs.takeWhile isDigit).length :=
      List.length_pos_iff.2 fun hnil => hne hnil
    simp only [List.length_append] at hsplit
    omega

theorem wholePart_length_lt {cs ds left : List Char}
    (h : wholePart cs = some (ds, left)) : left.length < cs.length := by
  unfold wholePart at h
  split at h
  · cases h; simp
  · exact digits_length_lt h

theorem fraction_length_le {cs ds left : List Char}
    (h : fraction cs = some (ds, left)) : left.length ≤ cs.length := by
  unfold fraction at h
  split at h
  · obtain ⟨⟨ds', left'⟩, hd, he⟩ := Option.map_eq_some_iff.1 h
    cases he
    exact Nat.le_succ_of_le (Nat.le_of_lt (digits_length_lt hd))
  · cases h; exact Nat.le_refl _

theorem exponentBehind_length_le {letter : Char} {cs ds left : List Char}
    (h : exponentBehind letter cs = some (ds, left)) :
    left.length ≤ cs.length := by
  have hsign : (sign cs).2.length ≤ cs.length := by
    unfold sign
    split <;> simp
  unfold exponentBehind at h
  obtain ⟨⟨ds', left'⟩, hd, he⟩ := Option.map_eq_some_iff.1 h
  cases he
  exact Nat.le_trans (Nat.le_of_lt (digits_length_lt hd)) hsign

theorem exponent_length_le {cs ds left : List Char}
    (h : exponent cs = some (ds, left)) : left.length ≤ cs.length := by
  unfold exponent at h
  split at h
  · exact Nat.le_succ_of_le (exponentBehind_length_le h)
  · exact Nat.le_succ_of_le (exponentBehind_length_le h)
  · cases h; exact Nat.le_refl _

theorem unsigned_length_lt {cs ds left : List Char}
    (h : unsigned cs = some (ds, left)) : left.length < cs.length := by
  simp only [unsigned, Option.bind_eq_bind, Option.bind_eq_some_iff,
    Option.pure_def, Option.some.injEq, Prod.exists] at h
  obtain ⟨w, r1, h1, p, r2, h2, e, r3, h3, heq⟩ := h
  cases heq
  have := wholePart_length_lt h1
  have := fraction_length_le h2
  have := exponent_length_le h3
  omega

theorem textBehind_length_lt {cs left : List Char} {t : Text}
    (h : textBehind cs = some (t, left)) : left.length < cs.length := by
  fun_induction textBehind cs generalizing t left with
  | case1 => cases h
  | case2 rest => cases h; simp
  | case3 a b c d rest ih =>
    simp only [Option.bind_eq_bind, Option.bind_eq_some_iff, Option.pure_def,
      Option.some.injEq, Prod.exists] at h
    obtain ⟨n, _, t', left', ht, heq⟩ := h
    cases heq
    have := ih ht
    simp only [List.length_cons]
    omega
  | case4 e rest _ ih =>
    simp only [Option.bind_eq_bind, Option.bind_eq_some_iff, Option.pure_def,
      Option.some.injEq, Prod.exists] at h
    obtain ⟨n, _, t', left', ht, heq⟩ := h
    cases heq
    have := ih ht
    simp only [List.length_cons]
    omega
  | case5 => cases h
  | case6 c rest _ _ _ _ ih =>
    simp only [Option.bind_eq_bind, Option.bind_eq_some_iff, Option.pure_def,
      Option.some.injEq, Prod.exists] at h
    obtain ⟨t', left', ht, heq⟩ := h
    cases heq
    have := ih ht
    simp only [List.length_cons]
    omega

theorem dropName?_length_le {name cs left : List Char}
    (h : dropName? name cs = some left) : left.length ≤ cs.length := by
  unfold dropName? at h
  split at h
  · cases h; simp
  · cases h

/-- **Reading a token uses up some of the text.** -/
theorem firstToken_length_lt {cs left : List Char} {k : Token}
    (h : firstToken cs = some (k, left)) : left.length < cs.length := by
  have hname : ∀ {name rest left : List Char} {k : Token} {f : Token},
      (dropName? name rest).map (fun l => (f, l)) = some (k, left) →
        left.length < rest.length + 1 := by
    intro name rest left k f h
    obtain ⟨l, hl, he⟩ := Option.map_eq_some_iff.1 h
    cases he
    exact Nat.lt_succ_of_le (dropName?_length_le hl)
  unfold firstToken at h
  split at h
  case h_1 => cases h
  case h_8 rest =>
    obtain ⟨⟨t, l⟩, ht, he⟩ := Option.map_eq_some_iff.1 h
    cases he
    exact Nat.lt_succ_of_lt (textBehind_length_lt ht)
  case h_9 => exact hname h
  case h_10 => exact hname h
  case h_11 => exact hname h
  case h_12 rest =>
    obtain ⟨⟨t, l⟩, ht, he⟩ := Option.map_eq_some_iff.1 h
    cases he
    exact Nat.lt_succ_of_lt (unsigned_length_lt ht)
  case h_13 =>
    obtain ⟨⟨t, l⟩, ht, he⟩ := Option.map_eq_some_iff.1 h
    cases he
    exact unsigned_length_lt ht
  all_goals cases h; simp

/-! ## Documents -/

/-- **A value that is still open**, with what it holds so far, last first. -/
inductive Frame where
  | array (items : List Json)
  /-- An object in which the value of a key is being read. -/
  | object (members : List (Text × Json)) (key : Text)

/-- **What may come next.** -/
inductive State where
  /-- A value. -/
  | value (stack : List Frame)
  /-- The first item of a list, or its end. -/
  | firstItem (stack : List Frame)
  /-- What follows an item of a list. -/
  | afterItem (items : List Json) (stack : List Frame)
  /-- The first key of an object, or its end. -/
  | firstKey (stack : List Frame)
  /-- A key. -/
  | key (members : List (Text × Json)) (stack : List Frame)
  /-- The colon behind a key. -/
  | afterKey (members : List (Text × Json)) (key : Text) (stack : List Frame)
  /-- What follows a member of an object. -/
  | afterMember (members : List (Text × Json)) (stack : List Frame)
  /-- Nothing: the document is complete. -/
  | complete (document : Json)

namespace State

/-- A value is complete and goes to where it belongs. -/
def put (v : Json) : List Frame → State
  | [] => complete v
  | .array items :: stack => afterItem (v :: items) stack
  | .object members k :: stack => afterMember ((k, v) :: members) stack

/-- A token where a value is expected. -/
def startValue (stack : List Frame) : Token → Option State
  | .openObject => some (firstKey stack)
  | .openArray => some (firstItem stack)
  | .null => some (put .null stack)
  | .bool b => some (put (.bool b) stack)
  | .number literal => some (put (.number literal) stack)
  | .string text => some (put (.string text) stack)
  | _ => none

/-- **One token further.** -/
def step : State → Token → Option State
  | value stack, k => startValue stack k
  | firstItem stack, .closeArray => some (put (.array []) stack)
  | firstItem stack, k => startValue (.array [] :: stack) k
  | afterItem items stack, .comma => some (value (.array items :: stack))
  | afterItem items stack, .closeArray =>
    some (put (.array items.reverse) stack)
  | firstKey stack, .closeObject => some (put (.object []) stack)
  | firstKey stack, .string k => some (afterKey [] k stack)
  | key members stack, .string k => some (afterKey members k stack)
  | afterKey members k stack, .colon =>
    some (value (.object members k :: stack))
  | afterMember members stack, .comma => some (key members stack)
  | afterMember members stack, .closeObject =>
    some (put (.object members.reverse) stack)
  | _, _ => none

/-- The document, if it is complete. -/
def document? : State → Option Json
  | complete v => some v
  | _ => none

end State

/-- Go on reading from a state. -/
def readFrom (s : State) (cs : List Char) : Option Json :=
  match _h : cs.dropWhile isBlank with
  | [] => s.document?
  | c :: rest =>
    match _hk : firstToken (c :: rest) with
    | none => none
    | some (k, left) =>
      match s.step k with
      | none => none
      | some next => readFrom next left
termination_by cs.length
decreasing_by
  have h1 := firstToken_length_lt _hk
  have h2 : (cs.dropWhile isBlank).length ≤ cs.length :=
    (List.dropWhile_sublist isBlank).length_le
  rw [_h] at h2
  omega

/-- **Read a document.** There must be nothing but blanks around it. -/
def parse (s : String) : Option Json := readFrom (.value []) s.toList

end DriverAudit.Json
