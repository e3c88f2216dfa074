/-!
# Paths

A path is a text whose pieces are separated by slashes. Two spellings of one
path should be the same path to the ranking of results and to the test of a
file's extension, so both work on *components*: repeated slashes, a trailing
slash and a `.` that stands for the directory just named say nothing and are
left out. A leading `.` and every `..` are kept, since without looking at the
file system nobody knows what they stand for.

Candidate lists come from another system, whose separator is the backslash. To
a component the backslash is a letter like any other; only the short name that
a report shows is cut at both.
-/

namespace DriverAudit.Path

/-! ## Components -/

/-- **One component of a path.** -/
inductive Component where
  /-- The slash that opens an absolute path. -/
  | root
  /-- A leading `.`. -/
  | here
  /-- A `..`, wherever it stands. -/
  | up
  | name (text : String)
  deriving DecidableEq, Repr

/-- The pieces between the slashes, empty ones included. -/
def pieces (path : String) : List String :=
  (path.toList.splitOn '/').map String.ofList

/-- Whether a path starts at the root. -/
def isAbsolute (path : String) : Bool := path.toList.head? = some '/'

/-- The component of a piece that does not lead its path. -/
def Component.ofPiece? (piece : String) : Option Component :=
  if piece = "" ∨ piece = "." then none
  else if piece = ".." then some .up
  else some (.name piece)

/-- **The components of a path.** -/
def components (path : String) : List Component :=
  let inner := (pieces path).filterMap Component.ofPiece?
  if isAbsolute path then .root :: inner
  else if (pieces path).head? = some "." then .here :: inner
  else inner

/-! ## The order of paths -/

/-- Roots come before leading dots, these before `..`, and names come last. -/
def Component.rank : Component → Nat
  | root => 0
  | here => 1
  | up => 2
  | name _ => 3

/-- The text of a name, empty for the components that have none. -/
def Component.text : Component → String
  | name text => text
  | _ => ""

/-- Components compare by kind, and names by code points. -/
def Component.order : Component → Component → Ordering :=
  compareLex (compareOn Component.rank) (compareOn Component.text)

/-- **The order of paths**: component by component, a path before what lies
below it. -/
def order : String → String → Ordering :=
  fun a b => List.compareLex Component.order (components a) (components b)

/-! ## Names -/

/-- The last component, where it is a name. -/
def fileName? (path : String) : Option String :=
  match (components path).getLast? with
  | some (.name text) => some text
  | _ => none

/-- **The extension**: what follows the last dot of the last component. A dot
that opens the component marks a hidden file, not an extension. -/
def extension? (path : String) : Option String :=
  match fileName? path with
  | none => none
  | some text =>
    let backwards := text.toList.reverse
    match backwards.dropWhile (· ≠ '.') with
    | [] => none
    | [_] => none
    | _ :: _ :: _ =>
      some (String.ofList (backwards.takeWhile (· ≠ '.')).reverse)

/-- Whether a character ends a directory on either system. -/
def isSeparator (c : Char) : Bool := c = '/' || c = '\\'

/-- **The short name** that a report shows: what follows the last separator of
either kind. -/
def shortName (path : String) : String :=
  String.ofList
    (path.toList.reverse.takeWhile (fun c => !isSeparator c)).reverse

/-- Whether two texts are equal but for the case of ASCII letters. -/
def sameIgnoringCase (a b : String) : Bool :=
  a.toList.map Char.toLower == b.toList.map Char.toLower

/-- Whether a path has one of the given extensions. -/
def hasExtension (extensions : List String) (path : String) : Bool :=
  match extension? path with
  | none => false
  | some found => extensions.any (sameIgnoringCase · found)

end DriverAudit.Path
