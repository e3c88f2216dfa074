import DriverAudit.Json.Value

/-!
# Writing JSON

Documents are written for people: each item and each member on a line of its
own, two spaces deeper than what holds it, and an empty list or object on one
line. In a text, the quote, the backslash and control characters are escaped,
and everything else is written as itself.
-/

namespace DriverAudit.Json

/-- A 16-bit unit as an escape. -/
def unitEscape (n : Nat) : String :=
  "\\u" ++ String.ofList (Radix.digits 4 n)

/-- How a character is written inside a text. -/
def escapedChar (c : Char) : String :=
  if c = '"' then "\\\""
  else if c = '\\' then "\\\\"
  else if c = '\x08' then "\\b"
  else if c = '\x0c' then "\\f"
  else if c = '\n' then "\\n"
  else if c = '\r' then "\\r"
  else if c = '\t' then "\\t"
  else if c.toNat < 0x20 then unitEscape c.toNat
  else c.toString

/-- How a piece is written inside a text. -/
def Piece.escaped : Piece → String
  | char c => escapedChar c
  | half u => unitEscape u.toNat

/-- **A text between quotes.** -/
def Text.quoted (t : Text) : String :=
  "\"" ++ String.join (t.map Piece.escaped) ++ "\""

/-- The start of a line at a depth. -/
def newline (depth : Nat) : String :=
  "\n" ++ String.ofList (List.replicate (2 * depth) ' ')

/-- Lines between an opening and a closing bracket, none of them when there
are no lines. -/
def bracketed (opening closing : String) (depth : Nat) (lines : List String) :
    String :=
  match lines with
  | [] => opening ++ closing
  | _ =>
    opening ++ newline (depth + 1)
      ++ ("," ++ newline (depth + 1)).intercalate lines
      ++ newline depth ++ closing

mutual

/-- **A document as text**, at a depth. -/
def render (depth : Nat) : Json → String
  | null => "null"
  | bool b => if b then "true" else "false"
  | number literal => literal
  | string text => text.quoted
  | array items => bracketed "[" "]" depth (renderItems (depth + 1) items)
  | object members =>
    bracketed "\x7b" "\x7d" depth (renderMembers (depth + 1) members)

/-- The items of a list, at a depth. -/
def renderItems (depth : Nat) : List Json → List String
  | [] => []
  | item :: rest => render depth item :: renderItems depth rest

/-- The members of an object, at a depth. -/
def renderMembers (depth : Nat) : List (Text × Json) → List String
  | [] => []
  | (key, value) :: rest =>
    (key.quoted ++ ": " ++ render depth value) :: renderMembers depth rest

end

end DriverAudit.Json
