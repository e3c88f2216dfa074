import DriverAudit.Files.Error
import DriverAudit.Files.Path

/-!
# Files, directories and links

What a run sees and leaves behind are files in directories. A *store* knows its
files, directories and links by number, and a directory gives names to numbers.
A file may have several names: what is written by one of them is read by all.

The system may refuse to read a file or to write it, to look up a name in a
directory or to put a new one there, be it that the user lacks the permission
or that the device cannot be written. The store says for each node what is
refused, and why.

## Following a path

A path is followed piece by piece. Every piece but the last must lead to a
directory, so `f/x` and `f/.` are refused where `f` is a file, and so is `f/`.
A `.` stays where it is and a `..` goes up. A link is followed wherever it is
met, by the pieces of its target, and after so many links the way is given up.

Reading a file needs a path that leads to it. Writing needs a path whose last
piece is a name: a file of that name is replaced, and if there is nothing of
that name a file is made, even where the name was that of the target of a link.
A file is emptied before it is written, so if the system then breaks off it
holds the first bytes only.
-/

namespace DriverAudit

/-! ## Nodes -/

/-- **What the system refuses to do** with a file or a directory, and why. -/
structure Access where
  /-- Opening it for reading. -/
  reading? : Option FileError
  /-- Writing it; in the case of a directory, putting a name into it. -/
  writing? : Option FileError
  /-- Looking up a name in it. -/
  entering? : Option FileError
  deriving DecidableEq, Repr

/-- Nothing is refused. -/
def Access.free : Access := ⟨none, none, none⟩

/-- The number by which a store knows a file, a directory or a link. -/
abbrev NodeId := Nat

/-- **What a store knows by a number.** -/
inductive FileNode where
  | file (access : Access) (contents : ByteArray)
  /-- A directory, with the one above it and the names that it gives. -/
  | directory (access : Access) (parent : NodeId)
    (names : List (String × NodeId))
  /-- A link to the path that is its target. -/
  | link (target : String)

/-- **Files, directories and links.** -/
structure FileStore where
  nodes : Array FileNode
  root : NodeId
  workingDirectory : NodeId
  /-- The size that the system states for a directory. What it is made up of
  is the system's own affair. -/
  directorySize : NodeId → Nat
  /-- After how many bytes the writing of a file breaks off, and why, in case
  the system has no room for more. -/
  breakOff? : Option (Nat × FileError)

namespace FileStore

/-- A root and a working directory without anything in them. The working
directory is below the root, by a name that the store does not know. -/
def empty : FileStore where
  nodes := #[.directory .free 0 [], .directory .free 0 []]
  root := 0
  workingDirectory := 1
  directorySize _ := 4096
  breakOff? := none

/-- What has a number. -/
def nodeAt? (s : FileStore) (id : NodeId) : Option FileNode := s.nodes[id]?

/-- Give a number to something new, and in a directory a name to the number. -/
def add (s : FileStore) (directory : NodeId) (name : String) (node : FileNode) :
    FileStore :=
  match s.nodeAt? directory with
  | some (.directory access parent names) =>
    { s with nodes := (s.nodes.setIfInBounds directory
        (.directory access parent ((name, s.nodes.size) :: names))).push node }
  | _ => s

/-- Give new contents to a file. -/
def replace (s : FileStore) (id : NodeId) (contents : ByteArray) : FileStore :=
  match s.nodeAt? id with
  | some (.file access _) =>
    { s with nodes := s.nodes.setIfInBounds id (.file access contents) }
  | _ => s

/-! ## Following a path -/

/-- The greatest number of bytes of a name. -/
def maxNameBytes : Nat := 255

/-- The number of bytes that a path must stay below. -/
def maxPathBytes : Nat := 4096

/-- The greatest number of links that are followed on one way. -/
def maxLinks : Nat := 40

/-- Whether a path ends with a slash, and so asks for a directory. -/
def wantsDirectory (path : String) : Bool :=
  path.toList.getLast? = some '/'

/-- **The pieces of a path that say something.** A slash at the end says that
the last name is that of a directory, and counts as an empty piece behind
it. -/
def steps (path : String) : List String :=
  let names := (Path.pieces path).filter (· ≠ "")
  if names ≠ [] ∧ wantsDirectory path then names ++ [""] else names

/-- Where following a path starts, if it is met in some directory. -/
def start (s : FileStore) (here : NodeId) (path : String) : NodeId :=
  if Path.isAbsolute path then s.root else here

/-- **What a path is followed for.** -/
inductive Purpose where
  | reading
  | writing
  deriving DecidableEq, Repr

/-- Whether a purpose needs a name where a path ends with something else: there
must be one for a file that is written, and no slash behind it. -/
def Purpose.refuses : Purpose → String → List String → Bool
  | .reading, _, _ => false
  | .writing, piece, rest =>
    rest.all (·.isEmpty) && (piece == "." || piece == ".." || !rest.isEmpty)

/-- **Where a piece of a path leads.** -/
inductive Step where
  | to (id : NodeId)
  /-- Through a link. -/
  | through (target : String)
  /-- To nothing, although there could be something of that name. -/
  | vacant
  deriving DecidableEq, Repr

/-- Where a name leads. A name for nothing is as good as none. -/
def lookUp (s : FileStore) (names : List (String × NodeId)) (name : String) :
    Step :=
  match names.lookup name with
  | none => .vacant
  | some id =>
    match s.nodeAt? id with
    | none => .vacant
    | some (.link target) => .through target
    | some _ => .to id

/-- **Follow one piece**, with the pieces behind it in view. -/
def step (s : FileStore) (purpose : Purpose) (here : NodeId) (piece : String)
    (rest : List String) : Except FileError Step :=
  match s.nodeAt? here with
  | none => .error .notFound
  | some (.file _ _) => .error .notADirectory
  | some (.link _) => .error .notADirectory
  | some (.directory access parent names) =>
    if piece = "" then .ok (.to here)
    else match access.entering? with
      | some cause => .error cause
      | none =>
        if purpose.refuses piece rest then .error .isADirectory
        else if piece = "." then .ok (.to here)
        else if piece = ".." then .ok (.to parent)
        else if maxNameBytes < piece.utf8ByteSize then .error .nameTooLong
        else .ok (s.lookUp names piece)

/-- **Where a path leads.** -/
inductive Destination where
  | node (id : NodeId)
  /-- To nothing, but to a directory in which something of that name could
  be. -/
  | vacant (directory : NodeId) (name : String)
  deriving DecidableEq, Repr

/-- Follow some pieces up to the first link, and go on as given from there. -/
def followUntil (s : FileStore) (purpose : Purpose)
    (onward : NodeId → String → List String → Except FileError Destination) :
    NodeId → List String → Except FileError Destination
  | here, [] => .ok (.node here)
  | here, piece :: rest =>
    match s.step purpose here piece rest with
    | .error cause => .error cause
    | .ok (.to next) => s.followUntil purpose onward next rest
    | .ok (.through target) => onward here target rest
    | .ok .vacant =>
      if rest.isEmpty then .ok (.vacant here piece) else .error .notFound

/-- **Follow some pieces**, and so many links. -/
def follow (s : FileStore) (purpose : Purpose) :
    Nat → NodeId → List String → Except FileError Destination
  | 0 => s.followUntil purpose fun _ _ _ => .error .tooManyLinks
  | links + 1 =>
    s.followUntil purpose fun here target rest =>
      s.follow purpose links (s.start here target) (steps target ++ rest)

/-- What is wrong with a path whatever it leads to. -/
def badPath? (path : String) : Option FileError :=
  if path.toList.contains '\x00' then some .zeroInPath
  else if path.isEmpty then some .notFound
  else if maxPathBytes ≤ path.utf8ByteSize then some .nameTooLong
  else none

/-- **Follow a path** from the working directory. -/
def destination (s : FileStore) (purpose : Purpose) (path : String) :
    Except FileError Destination :=
  match badPath? path with
  | some cause => .error cause
  | none =>
    s.follow purpose maxLinks (s.start s.workingDirectory path) (steps path)

/-! ## Reading and writing -/

/-- What the system answers to reading something. -/
def contentsOf (s : FileStore) (id : NodeId) : Except FileError ByteArray :=
  match s.nodeAt? id with
  | some (.file access contents) =>
    match access.reading? with
    | some cause => .error cause
    | none => .ok contents
  | some (.directory access _ _) =>
    match access.reading? with
    | some cause => .error cause
    | none => .error (.directory (s.directorySize id))
  | some (.link _) => .error .tooManyLinks
  | none => .error .notFound

/-- **Read a file.** -/
def read (s : FileStore) (path : String) : Except FileError ByteArray := do
  match ← s.destination .reading path with
  | .node id => s.contentsOf id
  | .vacant _ _ => .error .notFound

/-- **Open a file for writing**, and give its number and the store in which it
is there. -/
def openForWriting (s : FileStore) (path : String) :
    Except FileError (NodeId × FileStore) := do
  match ← s.destination .writing path with
  | .node id =>
    match s.nodeAt? id with
    | some (.file access _) =>
      match access.writing? with
      | some cause => .error cause
      | none => .ok (id, s)
    | _ => .error .isADirectory
  | .vacant directory name =>
    match s.nodeAt? directory with
    | some (.directory access _ _) =>
      match access.writing? with
      | some cause => .error cause
      | none =>
        .ok (s.nodes.size, s.add directory name (.file .free .empty))
    | _ => .error .notADirectory

/-- **What the system takes** of the contents of a file, and its answer. -/
def taken (s : FileStore) (contents : ByteArray) :
    ByteArray × Except FileError Unit :=
  match s.breakOff? with
  | none => (contents, .ok ())
  | some (room, cause) =>
    if room < contents.size then (contents.extract 0 room, .error cause)
    else (contents, .ok ())

/-- **Write a file**: the answer of the system, and the store that it leaves
behind. -/
def overwrite (s : FileStore) (path : String) (contents : ByteArray) :
    Except FileError Unit × FileStore :=
  match s.openForWriting path with
  | .error cause => (.error cause, s)
  | .ok (id, opened) =>
    ((s.taken contents).2, opened.replace id (s.taken contents).1)

/-- The store with a file in it, if it can be written. -/
def write (s : FileStore) (path : String) (contents : ByteArray) :
    Except FileError FileStore :=
  match s.overwrite path contents with
  | (.ok (), after) => .ok after
  | (.error cause, _) => .error cause

/-! ## Making directories -/

/-- Follow one piece, and make a directory where it leads to nothing. -/
def enterOrMake (way : FileStore × NodeId) (piece : String) :
    Except FileError (FileStore × NodeId) := do
  match ← way.1.follow .reading maxLinks way.2 [piece] with
  | .node id => return (way.1, id)
  | .vacant directory name =>
    return (way.1.add directory name (.directory .free directory []),
      way.1.nodes.size)

/-- **Make a directory**, and the directories on the way to it. -/
def makeDirectory (s : FileStore) (path : String) :
    Except FileError FileStore :=
  (·.1) <$> (steps path).foldlM enterOrMake
    (s, s.start s.workingDirectory path)

end FileStore

end DriverAudit
