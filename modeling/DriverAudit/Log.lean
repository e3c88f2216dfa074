import DriverAudit.Event
import DriverAudit.Json.Writer

/-!
# Writing events down

The log of a run is a sequence of lines, one for each event that is important
enough. A line is meant either for people or for programs; in the latter case
it is a JSON object.
-/

namespace DriverAudit

/-- The name of a level. -/
def Level.label : Level → String
  | trace => "TRACE"
  | debug => "DEBUG"
  | info => "INFO"
  | warn => "WARN"
  | span => "SPAN"

/-- Whether an event belongs into the log of a run that nobody traces. -/
def Level.isNotable : Level → Bool
  | info | warn => true
  | _ => false

/-- A value in a line for people. -/
def FieldValue.plain : FieldValue → String
  | number n => toString n
  | text s => s

/-- A value in a line for programs. -/
def FieldValue.quoted : FieldValue → String
  | number n => toString n
  | text s => (Json.Text.ofString s).quoted

namespace Event

/-- **The line of an event for people.** -/
def plainLine (e : Event) : String :=
  " ".intercalate (e.level.label :: e.message ::
    e.fields.map fun (name, value) => name ++ "=" ++ value.plain)

/-- **The line of an event for programs.** -/
def jsonLine (e : Event) : String :=
  let member := fun (name : String) (value : FieldValue) =>
    (Json.Text.ofString name).quoted ++ ":" ++ value.quoted
  let members :=
    member "level" (.text e.level.label) :: member "message" (.text e.message)
      :: e.fields.map fun (name, value) => member name value
  "\x7b" ++ ",".intercalate members ++ "\x7d"

/-- The line of an event. -/
def line (asJson : Bool) (e : Event) : String :=
  if asJson then e.jsonLine else e.plainLine

end Event

end DriverAudit
