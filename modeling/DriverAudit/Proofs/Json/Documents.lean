import DriverAudit.Json.Reader
import DriverAudit.Proofs.Json.Spellings

/-!
# Every way to write a document reads back

A document is a sequence of tokens (`tokens`), and a text *writes* it when it
spells these tokens, in any of their spellings and with any blanks between
them (`Written`). The main statement is that the reader takes every text that
writes a document for that document, however deeply it is nested
(`parse_of_written`).

The argument has two halves. Reading a text that spells some tokens is the
same as feeding these tokens to the reader one after the other, provided that
no number runs into what follows it (`readFrom_of_spells`). And the tokens of
a document, fed to a reader that awaits a value, leave it with that document
(`steps_tokens`).
-/

namespace DriverAudit.Json

/-! ## The tokens of a document -/

mutual

/-- **The tokens of a document**, in order. -/
def tokens : Json → List Token
  | null => [.null]
  | bool b => [.bool b]
  | number literal => [.number literal]
  | string text => [.string text]
  | array [] => [.openArray, .closeArray]
  | array (item :: rest) => .openArray :: (tokens item ++ moreItems rest)
  | object [] => [.openObject, .closeObject]
  | object ((key, value) :: rest) =>
    .openObject :: .string key :: .colon :: (tokens value ++ moreMembers rest)

/-- The tokens behind an item of a list: the other items, each behind a comma,
and the end of the list. -/
def moreItems : List Json → List Token
  | [] => [.closeArray]
  | item :: rest => .comma :: (tokens item ++ moreItems rest)

/-- The tokens behind a member of an object, likewise. -/
def moreMembers : List (Text × Json) → List Token
  | [] => [.closeObject]
  | (key, value) :: rest =>
    .comma :: .string key :: .colon :: (tokens value ++ moreMembers rest)

end

/-- **Whether a text writes a document.** -/
def Written (j : Json) (text : String) : Prop := Spells (tokens j) text.toList

/-! ## Numbers end -/

theorem separatesNumber_moreItems (items : List Json) (ks : List Token) :
    SeparatesNumber (moreItems items ++ ks) := by
  cases items <;> trivial

theorem separatesNumber_moreMembers (members : List (Text × Json))
    (ks : List Token) : SeparatesNumber (moreMembers members ++ ks) := by
  cases members <;> trivial

mutual

/-- **In a document no number runs into what follows it.** -/
theorem settled_tokens_append (j : Json) {ks : List Token} (hks : Settled ks)
    (hsep : SeparatesNumber ks) : Settled (tokens j ++ ks) := by
  -- only a number looks at what follows, and behind an item or a member
  -- there is a comma or a bracket
  match j with
  | null => exact hks
  | bool b => exact hks
  | number literal => exact ⟨hsep, hks⟩
  | string text => exact hks
  | array [] => exact hks
  | array (item :: rest) =>
    show Settled (tokens item ++ moreItems rest ++ ks)
    rw [List.append_assoc]
    exact settled_tokens_append item (settled_moreItems_append rest hks)
      (separatesNumber_moreItems rest ks)
  | object [] => exact hks
  | object ((key, value) :: rest) =>
    show Settled (tokens value ++ moreMembers rest ++ ks)
    rw [List.append_assoc]
    exact settled_tokens_append value (settled_moreMembers_append rest hks)
      (separatesNumber_moreMembers rest ks)

theorem settled_moreItems_append (items : List Json) {ks : List Token}
    (hks : Settled ks) : Settled (moreItems items ++ ks) := by
  match items with
  | [] => exact hks
  | item :: rest =>
    show Settled (tokens item ++ moreItems rest ++ ks)
    rw [List.append_assoc]
    exact settled_tokens_append item (settled_moreItems_append rest hks)
      (separatesNumber_moreItems rest ks)

theorem settled_moreMembers_append (members : List (Text × Json))
    {ks : List Token} (hks : Settled ks) :
    Settled (moreMembers members ++ ks) := by
  match members with
  | [] => exact hks
  | (key, value) :: rest =>
    show Settled (tokens value ++ moreMembers rest ++ ks)
    rw [List.append_assoc]
    exact settled_tokens_append value (settled_moreMembers_append rest hks)
      (separatesNumber_moreMembers rest ks)

end

theorem settled_tokens (j : Json) : Settled (tokens j) := by
  have h : Settled (tokens j ++ []) := settled_tokens_append j trivial trivial
  rwa [List.append_nil] at h

/-! ## Reading is feeding tokens -/

namespace State

/-- **Feed tokens to the reader**, one after the other. -/
def steps (s : State) (ks : List Token) : Option State := ks.foldlM step s

theorem steps_cons (s : State) (k : Token) (ks : List Token) :
    s.steps (k :: ks) = (s.step k).bind fun next => next.steps ks := rfl

theorem steps_append (s : State) (ks ls : List Token) :
    s.steps (ks ++ ls) = (s.steps ks).bind fun next => next.steps ls :=
  List.foldlM_append

end State

/-- Blanks alone end a document. -/
theorem readFrom_blanks (s : State) {cs : List Char}
    (hblank : ∀ c ∈ cs, isBlank c = true) : readFrom s cs = s.document? := by
  have hdrop : cs.dropWhile isBlank = [] := by
    rw [← List.append_nil cs, List.dropWhile_append_of_pos hblank]
    rfl
  unfold readFrom
  split
  case h_1 => rfl
  case h_2 heq => rw [hdrop] at heq; cases heq

/-- **One token of the text is one step.** -/
theorem readFrom_token (s : State) {k : Token} {blanks cs rest : List Char}
    (hblank : ∀ c ∈ blanks, isBlank c = true) (h : k.Spelled cs)
    (hrest : k.EndsBefore rest) :
    readFrom s (blanks ++ (cs ++ rest))
      = (s.step k).bind fun next => readFrom next rest := by
  obtain ⟨c, ds, rfl, hc⟩ := h.exists_cons
  have hdrop : (blanks ++ (c :: ds ++ rest)).dropWhile isBlank
      = c :: (ds ++ rest) := by
    rw [List.dropWhile_append_of_pos hblank, List.cons_append,
      List.dropWhile_cons_of_neg (by rw [hc]; decide)]
  have htoken : firstToken (c :: (ds ++ rest)) = some (k, rest) :=
    firstToken_of_spelled h hrest
  rw [readFrom]
  split
  case h_1 heq => rw [hdrop] at heq; cases heq
  case h_2 heq =>
    rw [hdrop] at heq
    cases heq
    split
    case h_1 hk => rw [htoken] at hk; cases hk
    case h_2 hk =>
      rw [htoken] at hk
      cases hk
      cases s.step k <;> rfl

/-- **Reading a text is feeding the tokens that it spells.** -/
theorem readFrom_of_spells {ks : List Token} {cs : List Char}
    (h : Spells ks cs) (hks : Settled ks) (s : State) :
    readFrom s cs = (s.steps ks).bind State.document? := by
  induction h generalizing s with
  | nil hblank => exact readFrom_blanks s hblank
  | @cons k ks blanks cs rest hblank hk hrest ih =>
    have hends : k.EndsBefore rest ∧ Settled ks := by
      cases k with
      | number literal => exact ⟨endsNumber_of_spells hks.1 hrest, hks.2⟩
      | _ => exact ⟨trivial, hks⟩
    rw [readFrom_token s hblank hk hends.1, State.steps_cons,
      Option.bind_assoc]
    exact congrArg _ (funext fun next => ih hends.2 next)

/-! ## The tokens of a document lead to it -/

namespace State

/-- **A state that awaits a value**, which will go to a stack. A list that has
just been opened may also be closed, and no value starts like that. -/
def Awaits (s : State) (stack : List Frame) : Prop :=
  ∀ k next, startValue stack k = some next → s.step k = some next

theorem awaits_value (stack : List Frame) : (value stack).Awaits stack :=
  fun _ _ h => h

theorem awaits_firstItem (stack : List Frame) :
    (firstItem stack).Awaits (.array [] :: stack) := by
  intro k next h
  cases k with
  | closeArray => cases h
  | _ => exact h

/-- The first token of an awaited value starts it. -/
theorem Awaits.steps_cons {s next : State} {stack : List Frame} {k : Token}
    (hs : s.Awaits stack) (h : startValue stack k = some next)
    (ks : List Token) : s.steps (k :: ks) = next.steps ks := by
  rw [State.steps_cons, hs k next h, Option.bind_some]

end State

open State (put startValue step steps_cons steps_append awaits_value
  awaits_firstItem)

mutual

/-- **A document that is fed where a value is awaited goes to where the value
belongs.** -/
theorem steps_tokens (j : Json) {s : State} {stack : List Frame}
    (hs : s.Awaits stack) : s.steps (tokens j) = some (put j stack) := by
  -- the stack is any, because an item is read on a deeper one
  match j with
  | null => exact hs.steps_cons rfl _
  | bool b => exact hs.steps_cons rfl _
  | number literal => exact hs.steps_cons rfl _
  | string text => exact hs.steps_cons rfl _
  | array [] => exact hs.steps_cons (k := .openArray) rfl _
  | array (item :: rest) =>
    calc s.steps (tokens (array (item :: rest)))
        = (State.firstItem stack).steps (tokens item ++ moreItems rest) :=
          hs.steps_cons (k := .openArray) rfl _
      _ = (State.afterItem [item] stack).steps (moreItems rest) := by
          rw [steps_append, steps_tokens item (awaits_firstItem stack)]
          rfl
      _ = some (put (array (item :: rest)) stack) :=
          steps_moreItems [item] rest stack
  | object [] => exact hs.steps_cons (k := .openObject) rfl _
  | object ((key, value) :: rest) =>
    calc s.steps (tokens (object ((key, value) :: rest)))
        = (State.firstKey stack).steps
            (.string key :: .colon :: (tokens value ++ moreMembers rest)) :=
          hs.steps_cons (k := .openObject) rfl _
      _ = (State.value (.object [] key :: stack)).steps
            (tokens value ++ moreMembers rest) := rfl
      _ = (State.afterMember [(key, value)] stack).steps
            (moreMembers rest) := by
          rw [steps_append, steps_tokens value (awaits_value _)]
          rfl
      _ = some (put (object ((key, value) :: rest)) stack) :=
          steps_moreMembers [(key, value)] rest stack

/-- The rest of a list, behind the items that have been read. -/
theorem steps_moreItems (read rest : List Json) (stack : List Frame) :
    (State.afterItem read stack).steps (moreItems rest)
      = some (put (.array (read.reverse ++ rest)) stack) := by
  match rest with
  | [] => rw [List.append_nil]; rfl
  | item :: rest =>
    rw [moreItems, steps_cons, step, Option.bind_some, steps_append,
      steps_tokens item (awaits_value _), Option.bind_some, put,
      steps_moreItems (item :: read) rest stack, List.reverse_cons,
      List.append_assoc]
    rfl

/-- The rest of an object, behind the members that have been read. -/
theorem steps_moreMembers (read rest : List (Text × Json))
    (stack : List Frame) :
    (State.afterMember read stack).steps (moreMembers rest)
      = some (put (.object (read.reverse ++ rest)) stack) := by
  match rest with
  | [] => rw [List.append_nil]; rfl
  | (key, value) :: rest =>
    rw [moreMembers, steps_cons, step, Option.bind_some, steps_cons, step,
      Option.bind_some, steps_cons, step, Option.bind_some, steps_append,
      steps_tokens value (awaits_value _), Option.bind_some, put,
      steps_moreMembers ((key, value) :: read) rest stack, List.reverse_cons,
      List.append_assoc]
    rfl

end

/-- **Every text that writes a document is read as that document.** -/
theorem parse_of_written {j : Json} {text : String} (h : Written j text) :
    parse text = some j := by
  rw [parse, readFrom_of_spells h (settled_tokens j),
    steps_tokens j (awaits_value [])]
  rfl

end DriverAudit.Json
