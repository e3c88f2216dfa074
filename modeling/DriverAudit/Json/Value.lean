import DriverAudit.Text.Radix

/-!
# JSON documents

Reports are written as JSON, and settings are read from it. A document is kept
as it is written: a number as its digits, since a reader of settings must tell
`10` from `10.0`, and a text as a sequence of *pieces*, since an escape may
denote half of a surrogate pair, which is no character. Most texts hold
characters only, and only these can be turned into a `String`.
-/

namespace DriverAudit

namespace Json

/-- **A piece of a text**: a character, or half of a surrogate pair whose
other half is missing. -/
inductive Piece where
  | char (c : Char)
  | half (u : UInt16)
  deriving DecidableEq, Repr

/-- A text as it stands in a document. -/
abbrev Text := List Piece

/-- The text of some characters. -/
def Text.ofString (s : String) : Text := s.toList.map .char

/-- The character of a piece. -/
def Piece.char? : Piece → Option Char
  | char c => some c
  | half _ => none

/-- The characters of a text, if it consists of characters. -/
def Text.toString? (t : Text) : Option String :=
  (t.mapM Piece.char?).map String.ofList

end Json

/-- **A JSON document.** -/
inductive Json where
  | null
  | bool (b : Bool)
  /-- A number, as it is written. -/
  | number (literal : String)
  | string (text : Json.Text)
  | array (items : List Json)
  /-- An object, whose members keep their order and may repeat a key. -/
  | object (members : List (Json.Text × Json))
  deriving Inhabited

namespace Json

/-- A natural number. -/
def nat (n : Nat) : Json := .number (toString n)

/-- A text of characters. -/
def str (s : String) : Json := .string (.ofString s)

/-- A list of texts. -/
def strs (l : List String) : Json := .array (l.map str)

/-- An object with texts of characters for keys. -/
def record (fields : List (String × Json)) : Json :=
  .object (fields.map fun (key, value) => (.ofString key, value))

/-- The characters of a text survive being put into a document. -/
@[simp]
theorem Text.toString?_ofString (s : String) :
    (Text.ofString s).toString? = some s := by
  have h : ∀ l : List Char, (l.map Piece.char).mapM Piece.char? = some l := by
    intro l
    induction l with
    | nil => rfl
    | cons c l ih => simp [Piece.char?, ih]
  simp [Text.toString?, Text.ofString, h]

end Json

end DriverAudit
