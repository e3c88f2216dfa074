import DriverAudit.Json.Value

/-!
# The words of JSON

A JSON text is a sequence of tokens with blanks between them. Brackets, colon,
comma and the three literal names stand for themselves; numbers and texts have
a form of their own.

Two tokens that are neither brackets nor separators never follow each other in
a document, so it does no harm to take `01` for two numbers, or `truefalse`
for two names: what comes of it is refused as a document.
-/

namespace DriverAudit.Json

/-- **A word of JSON.** -/
inductive Token where
  | openObject
  | closeObject
  | openArray
  | closeArray
  | colon
  | comma
  | null
  | bool (b : Bool)
  | number (literal : String)
  | string (text : Text)
  deriving DecidableEq, Repr

/-- Whether a character separates tokens and means nothing else. -/
def isBlank (c : Char) : Bool :=
  c = ' ' || c = '\t' || c = '\n' || c = '\r'

/-! ## Numbers -/

/-- Whether a character is a decimal digit. -/
def isDigit (c : Char) : Bool := '0' ≤ c && c ≤ '9'

/-- At least one digit, and what is left. -/
def digits (cs : List Char) : Option (List Char × List Char) :=
  match cs.takeWhile isDigit with
  | [] => none
  | ds => some (ds, cs.dropWhile isDigit)

/-- The digits before the point: one zero, or digits that do not start with a
zero. -/
def wholePart : List Char → Option (List Char × List Char)
  | '0' :: rest => some (['0'], rest)
  | cs => digits cs

/-- A point with digits behind it, or nothing. -/
def fraction : List Char → Option (List Char × List Char)
  | '.' :: rest => (digits rest).map fun (ds, left) => ('.' :: ds, left)
  | cs => some ([], cs)

/-- A sign, or nothing. -/
def sign : List Char → List Char × List Char
  | '+' :: rest => (['+'], rest)
  | '-' :: rest => (['-'], rest)
  | cs => ([], cs)

/-- The digits of an exponent behind its letter, which may have a sign. -/
def exponentBehind (letter : Char) (cs : List Char) :
    Option (List Char × List Char) :=
  let (s, rest) := sign cs
  (digits rest).map fun (ds, left) => (letter :: s ++ ds, left)

/-- An exponent, or nothing. -/
def exponent : List Char → Option (List Char × List Char)
  | 'e' :: rest => exponentBehind 'e' rest
  | 'E' :: rest => exponentBehind 'E' rest
  | cs => some ([], cs)

/-- **A number** without its sign, and what is left. -/
def unsigned (cs : List Char) : Option (List Char × List Char) := do
  let (whole, rest) ← wholePart cs
  let (part, rest) ← fraction rest
  let (power, rest) ← exponent rest
  return (whole ++ part ++ power, rest)

/-! ## Texts -/

/-- The value of a hexadecimal digit. -/
def hexValue? (c : Char) : Option Nat :=
  if '0' ≤ c ∧ c ≤ '9' then some (c.toNat - 48)
  else if 'a' ≤ c ∧ c ≤ 'f' then some (c.toNat - 87)
  else if 'A' ≤ c ∧ c ≤ 'F' then some (c.toNat - 55)
  else none

/-- The value of four hexadecimal digits. -/
def unit? (a b c d : Char) : Option Nat := do
  return ((← hexValue? a) * 16 + (← hexValue? b)) * 256
    + (← hexValue? c) * 16 + (← hexValue? d)

/-- Whether a unit is the first half of a surrogate pair. -/
def isHighHalf (n : Nat) : Bool := 0xD800 ≤ n && n < 0xDC00

/-- Whether a unit is the second half of a surrogate pair. -/
def isLowHalf (n : Nat) : Bool := 0xDC00 ≤ n && n < 0xE000

/-- The character of a surrogate pair. -/
def pairChar (high low : Nat) : Char :=
  Char.ofNat (0x10000 + (high - 0xD800) * 0x400 + (low - 0xDC00))

/-- **Put a unit in front of a text.** The first half of a pair joins a second
half that follows it. -/
def Text.consUnit (n : Nat) (t : Text) : Text :=
  if isHighHalf n then
    match t with
    | .half low :: rest =>
      if isLowHalf low.toNat then .char (pairChar n low.toNat) :: rest
      else .half (UInt16.ofNat n) :: t
    | _ => .half (UInt16.ofNat n) :: t
  else if isLowHalf n then .half (UInt16.ofNat n) :: t
  else .char (Char.ofNat n) :: t

/-- The character of a short escape. -/
def shortEscape? (c : Char) : Option Char :=
  match c with
  | '"' => some '"'
  | '\\' => some '\\'
  | '/' => some '/'
  | 'b' => some '\x08'
  | 'f' => some '\x0c'
  | 'n' => some '\n'
  | 'r' => some '\r'
  | 't' => some '\t'
  | _ => none

/-- **A text** behind its opening quote, up to and with its closing quote, and
what is left. A control character must not stand in it as itself. -/
def textBehind : List Char → Option (Text × List Char)
  | [] => none
  | '"' :: rest => some ([], rest)
  | '\\' :: 'u' :: a :: b :: c :: d :: rest => do
    let n ← unit? a b c d
    let (t, left) ← textBehind rest
    return (t.consUnit n, left)
  | '\\' :: e :: rest => do
    let c ← shortEscape? e
    let (t, left) ← textBehind rest
    return (.char c :: t, left)
  | c :: rest =>
    if c.toNat < 0x20 ∨ c = '\\' then none
    else do
      let (t, left) ← textBehind rest
      return (.char c :: t, left)

/-! ## Tokens -/

/-- Give up a literal name, if the text starts with it. -/
def dropName? (name : List Char) (cs : List Char) : Option (List Char) :=
  if name.isPrefixOf cs then some (cs.drop name.length) else none

/-- **The token that a text starts with**, and what is left. The text starts
with no blank. -/
def firstToken : List Char → Option (Token × List Char)
  | [] => none
  | '\x7b' :: rest => some (.openObject, rest)
  | '\x7d' :: rest => some (.closeObject, rest)
  | '[' :: rest => some (.openArray, rest)
  | ']' :: rest => some (.closeArray, rest)
  | ':' :: rest => some (.colon, rest)
  | ',' :: rest => some (.comma, rest)
  | '"' :: rest =>
    (textBehind rest).map fun (t, left) => (.string t, left)
  | 'n' :: rest =>
    (dropName? "ull".toList rest).map fun left => (.null, left)
  | 't' :: rest =>
    (dropName? "rue".toList rest).map fun left => (.bool true, left)
  | 'f' :: rest =>
    (dropName? "alse".toList rest).map fun left => (.bool false, left)
  | '-' :: rest =>
    (unsigned rest).map fun (ds, left) =>
      (.number (String.ofList ('-' :: ds)), left)
  | cs =>
    (unsigned cs).map fun (ds, left) => (.number (String.ofList ds), left)

end DriverAudit.Json
