import DriverAudit.Event
import DriverAudit.Files.Path
import DriverAudit.RunError

/-!
# The list of candidates

The candidates of a run come from the export of a file index: one file to a
line, whose path is the first text between quotes; sizes and dates follow.
Lines without such a text – a heading, say – name no file, and neither does a
line whose first pair of quotes has nothing between them, whatever comes after.

One pass over the characters is enough. What matters within a line is whether
its first quote is still to come, whether the path is being read, or whether
the line has had its say. A path counts only when its closing quote comes
before the end of the line, so the pass also need not care how lines end: a
carriage return in front of a line feed is outside of any path.
-/

namespace DriverAudit

namespace FileIndex

/-- **Where in a line the pass is.** -/
inductive Place where
  /-- Before the first quote. -/
  | outside
  /-- Behind the first quote, with what has been read since. -/
  | inside (path : String)
  /-- Behind the second quote. -/
  | behind
  deriving DecidableEq, Repr

/-- A pass under way, with the paths of the lines it has left behind. -/
structure Pass where
  place : Place
  found : Array String

/-- **One character further.** -/
def Pass.step (p : Pass) (c : Char) : Pass :=
  if c = '\n' then { p with place := .outside }
  else match p.place with
    | .outside => if c = '"' then { p with place := .inside "" } else p
    | .inside path =>
      if c = '"' then
        { place := .behind
          found := if path.isEmpty then p.found else p.found.push path }
      else { p with place := .inside (path.push c) }
    | .behind => p

/-- The paths in a text, in the order of its lines. -/
def paths (text : String) : List String :=
  (text.foldl Pass.step ⟨.outside, #[]⟩).found.toList

/-- **The paths in an index.** Nothing is taken from an index that is no
text. -/
def read (d : ByteArray) : Except FileError (List String) :=
  match String.fromUTF8? d with
  | none => .error .invalidText
  | some text => .ok (paths text)

end FileIndex

/-- **The candidates of a run**: the listed files with one of the extensions,
given what the system answers to reading the index. -/
def loadCandidates (index : String) (extensions : List String)
    (answer : Except FileError ByteArray) :
    Traced (Except RunError (List String)) :=
  match answer.bind FileIndex.read with
  | .error cause => return .error (.file index cause)
  | .ok listed => do
    let candidates := listed.filter (Path.hasExtension extensions)
    Traced.emit (.candidatesLoaded index listed.length candidates.length)
    return .ok candidates

end DriverAudit
