import DriverAudit.Proofs.Json.Compact

/-!
# Documents over several lines

What the writer of reports writes for a document is one of the ways to write
it: the tokens of the document in their order, with nothing between them but
the starts of lines and a space behind each colon. So every writable document
is read back from its lines (`parse_render`).

The induction is on the document. What it carries is that something follows:
the text of an item goes on with the other items and the closing bracket, and
these spell the tokens behind the item (`spells_render`).
-/

namespace DriverAudit.Json

/-! ## Texts that spell tokens -/

/-- Blanks in front make no difference. -/
theorem Spells.blanks_append {ks : List Token} {blanks cs : List Char}
    (hblank : ∀ c ∈ blanks, isBlank c = true) (h : Spells ks cs) :
    Spells ks (blanks ++ cs) := by
  cases h with
  | nil hnil => exact .nil (List.forall_mem_append.2 ⟨hblank, hnil⟩)
  | cons hcons hk hrest =>
    rw [← List.append_assoc]
    exact .cons (List.forall_mem_append.2 ⟨hblank, hcons⟩) hk hrest

/-- The start of a line is blank. -/
theorem isBlank_of_mem_newline {depth : Nat} {c : Char}
    (hc : c ∈ (newline depth).toList) : isBlank c = true := by
  simp only [newline, String.toList_append, String.toList_ofList] at hc
  obtain hc | hc := List.mem_append.1 hc
  · obtain rfl := List.mem_singleton.1 hc
    rfl
  · rw [List.eq_of_mem_replicate hc]
    rfl

/-- A token at the start of a line. -/
theorem Spells.newline_append {depth : Nat} {ks : List Token}
    {cs : List Char} (h : Spells ks cs) :
    Spells ks ((newline depth).toList ++ cs) :=
  h.blanks_append fun _ => isBlank_of_mem_newline

/-! ## Lines between brackets -/

/-- The lines behind the first one, each with a comma before it, and the
closing bracket. -/
def closed (depth : Nat) (lines : List String) (closing rest : List Char) :
    List Char :=
  lines.foldr
    (fun line behind => ',' :: ((newline (depth + 1)).toList
      ++ (line.toList ++ behind)))
    ((newline depth).toList ++ (closing ++ rest))

theorem toList_intercalate_append (depth : Nat) (line : String)
    (lines : List String) (closing rest : List Char) :
    (("," ++ newline (depth + 1)).intercalate (line :: lines)).toList
        ++ ((newline depth).toList ++ (closing ++ rest))
      = line.toList ++ closed depth lines closing rest := by
  rw [String.toList_intercalate]
  induction lines generalizing line with
  | nil => simp [closed]
  | cons next lines ih =>
    rw [List.map_cons, List.map_cons, List.intercalate_cons_cons,
      ← List.map_cons (f := String.toList), List.append_assoc, ih,
      String.toList_append]
    simp [closed]

theorem toList_bracketed_nil (opening closing : String) (depth : Nat) :
    (bracketed opening closing depth []).toList
      = opening.toList ++ closing.toList := String.toList_append

/-- **What stands between brackets**, line by line. -/
theorem toList_bracketed_append (opening closing : String) (depth : Nat)
    (line : String) (lines : List String) (rest : List Char) :
    (bracketed opening closing depth (line :: lines)).toList ++ rest
      = opening.toList ++ ((newline (depth + 1)).toList
        ++ (line.toList ++ closed depth lines closing.toList rest)) := by
  rw [← toList_intercalate_append]
  simp [bracketed, String.toList_append]

/-! ## Documents -/

/-- A key and its colon in front of a value and what follows it. -/
theorem Spells.member_append {key : Text} {ks : List Token} {text : String}
    {cs : List Char} (hkey : Token.Spelled (.string key) key.quoted.toList)
    (h : Spells ks (text.toList ++ cs)) :
    Spells (.string key :: .colon :: ks)
      ((key.quoted ++ ": " ++ text).toList ++ cs) := by
  have hblank : ∀ c ∈ [' '], isBlank c = true :=
    List.forall_mem_singleton.2 rfl
  have hseparator : ": ".toList = [':'] ++ [' '] := by decide
  rw [String.toList_append, String.toList_append, hseparator,
    List.append_assoc, List.append_assoc, List.append_assoc]
  exact .token_append hkey (.token_append .colon (h.blanks_append hblank))

/-- The tokens of a member are those of its key, of its value, and what stands
behind it. -/
theorem forall_mem_member {P : Token → Prop} {key : Text} {value : Json}
    {ks : List Token}
    (h : ∀ k ∈ .string key :: .colon :: (tokens value ++ ks), P k) :
    P (.string key) ∧ (∀ k ∈ tokens value, P k) ∧ ∀ k ∈ ks, P k := by
  obtain ⟨hkey, hvalues⟩ := List.forall_mem_cons.1 h
  exact ⟨hkey, List.forall_mem_append.1 (List.forall_mem_cons.1 hvalues).2⟩

mutual

/-- **A document is written for its tokens.** -/
theorem spells_render (j : Json) (depth : Nat) {ks : List Token}
    {rest : List Char} (h : ∀ k ∈ tokens j, k.Spelled k.text.toList)
    (hrest : Spells ks rest) :
    Spells (tokens j ++ ks) ((render depth j).toList ++ rest) := by
  match j with
  | null => exact .token_append (h _ List.mem_cons_self) hrest
  | bool true => exact .token_append (h _ List.mem_cons_self) hrest
  | bool false => exact .token_append (h _ List.mem_cons_self) hrest
  | number literal => exact .token_append (h _ List.mem_cons_self) hrest
  | string text => exact .token_append (h _ List.mem_cons_self) hrest
  | array [] =>
    rw [render, renderItems, toList_bracketed_nil, List.append_assoc]
    exact .token_append .openArray (.token_append .closeArray hrest)
  | array (item :: items) =>
    obtain ⟨hopen, hitems⟩ := List.forall_mem_cons.1 h
    obtain ⟨hitem, hmore⟩ := List.forall_mem_append.1 hitems
    rw [render, renderItems, toList_bracketed_append, tokens, List.cons_append,
      List.append_assoc]
    exact .token_append hopen (Spells.newline_append (spells_render item _ hitem
      (spells_moreItems items depth hmore hrest)))
  | object [] =>
    rw [render, renderMembers, toList_bracketed_nil, List.append_assoc]
    exact .token_append .openObject (.token_append .closeObject hrest)
  | object ((key, value) :: members) =>
    obtain ⟨hopen, hmembers⟩ := List.forall_mem_cons.1 h
    obtain ⟨hkey, hvalue, hmore⟩ := forall_mem_member hmembers
    rw [render, renderMembers, toList_bracketed_append, tokens,
      List.cons_append, List.cons_append, List.cons_append, List.append_assoc]
    exact .token_append hopen (Spells.newline_append (.member_append hkey
      (spells_render value _ hvalue
        (spells_moreMembers members depth hmore hrest))))

/-- The items behind one, and the end of the list. -/
theorem spells_moreItems (items : List Json) (depth : Nat)
    {ks : List Token} {rest : List Char}
    (h : ∀ k ∈ moreItems items, k.Spelled k.text.toList)
    (hrest : Spells ks rest) :
    Spells (moreItems items ++ ks)
      (closed depth (renderItems (depth + 1) items) [']'] rest) := by
  match items with
  | [] => exact .newline_append (.token_append .closeArray hrest)
  | item :: items =>
    obtain ⟨hcomma, hitems⟩ := List.forall_mem_cons.1 h
    obtain ⟨hitem, hmore⟩ := List.forall_mem_append.1 hitems
    rw [moreItems, List.cons_append, List.append_assoc]
    exact .token_append hcomma (Spells.newline_append (spells_render item _
      hitem (spells_moreItems items depth hmore hrest)))

/-- The members behind one, and the end of the object. -/
theorem spells_moreMembers (members : List (Text × Json)) (depth : Nat)
    {ks : List Token} {rest : List Char}
    (h : ∀ k ∈ moreMembers members, k.Spelled k.text.toList)
    (hrest : Spells ks rest) :
    Spells (moreMembers members ++ ks)
      (closed depth (renderMembers (depth + 1) members) ['\x7d'] rest) := by
  match members with
  | [] => exact .newline_append (.token_append .closeObject hrest)
  | (key, value) :: members =>
    obtain ⟨hcomma, hmembers⟩ := List.forall_mem_cons.1 h
    obtain ⟨hkey, hvalue, hmore⟩ := forall_mem_member hmembers
    rw [moreMembers, List.cons_append, List.cons_append, List.cons_append,
      List.append_assoc]
    exact .token_append hcomma (Spells.newline_append (.member_append hkey
      (spells_render value _ hvalue
        (spells_moreMembers members depth hmore hrest))))

end

/-- **What the writer writes for a document is a way to write it.** -/
theorem written_render {j : Json} (h : Writable j) (depth : Nat) :
    Written j (render depth j) := by
  have hspells := spells_render j depth h (@Spells.nil [] nofun)
  rwa [List.append_nil, List.append_nil] at hspells

/-- **A document is read back from its lines.** -/
theorem parse_render {j : Json} (h : Writable j) (depth : Nat) :
    parse (render depth j) = some j :=
  parse_of_written (written_render h depth)

/-- **A record whose first value is a text** is written with this text between
quotes, and nothing else in it depends on the text. -/
theorem render_record_cons (depth : Nat) (name value : String)
    (fields : List (String × Json)) :
    render depth (.record ((name, .str value) :: fields))
      = "\x7b" ++ newline (depth + 1) ++ (Text.ofString name).quoted ++ ": "
        ++ (Text.ofString value).quoted
        ++ String.ofList (closed depth (renderMembers (depth + 1)
          (fields.map fun (key, value) => (.ofString key, value)))
            ['\x7d'] []) := by
  have hbracketed := toList_bracketed_append "\x7b" "\x7d" depth
    ((Text.ofString name).quoted ++ ": " ++ (Text.ofString value).quoted)
    (renderMembers (depth + 1)
      (fields.map fun (key, value) => (.ofString key, value))) []
  rw [List.append_nil] at hbracketed
  refine String.toList_inj.1 (hbracketed.trans ?_)
  simp only [String.toList_append, String.toList_ofList, List.append_assoc]
  rfl

end DriverAudit.Json
