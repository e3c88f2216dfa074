import DriverAudit.Imports.Walk

/-!
# Images

Opening an image reads its headers and nothing else. The import table is read
when it is first asked for, and kept: asking again gives the same table
without another walk, and so without saying the same things again. A walk that
failed leaves nothing to keep, and is tried again.
-/

namespace DriverAudit

/-- **The headers of a file**, which are said to have been accepted. -/
def Headers.load (d : ByteArray) : Traced (Except ImageError Headers) :=
  match Headers.read d with
  | .error e => return .error e
  | .ok h => do
    Traced.emit (.headersParsed h.optional.architecture h.sections.length
      h.optional.imports.address)
    return .ok h

/-- **An opened image.** -/
structure Image where
  data : ByteArray
  headers : Headers
  limits : ParseLimits
  /-- The import table, once it has been read. -/
  walked : Option ImportTable

namespace Image

/-- Open an image. -/
def load (d : ByteArray) (limits : ParseLimits) :
    Traced (Except ImageError Image) := do
  match ← Headers.load d with
  | .error e => return .error e
  | .ok headers => return .ok ⟨d, headers, limits, none⟩

/-- The layout of the image. -/
def architecture (i : Image) : Architecture := i.headers.optional.architecture

/-- The processor the image is built for. -/
def machine (i : Image) : Machine := i.headers.file.machine

/-- The directory of the import table. -/
def importDirectory (i : Image) : DataDirectory := i.headers.optional.imports

/-- What a walk of the import table looks at. -/
def importSource (i : Image) : ImportSource :=
  ⟨i.data, i.headers.sections, i.architecture, i.limits⟩

/-- **The import table**, together with the image that keeps it. -/
def imports (i : Image) :
    Traced (Except ImageError ImportTable × Image) :=
  match i.walked with
  | some table => return (.ok table, i)
  | none => do
    match ← i.importSource.walk i.importDirectory with
    | .ok table => return (.ok table, { i with walked := some table })
    | .error e => return (.error e, i)

end Image

end DriverAudit
