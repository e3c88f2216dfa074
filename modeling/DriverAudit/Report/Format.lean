/-!
# The forms a report comes in
-/

namespace DriverAudit

/-- **The form of a report.** -/
inductive ReportFormat where
  | text
  | json
  deriving DecidableEq, Repr, Inhabited

namespace ReportFormat

/-- How a setting names the form. -/
def keyword : ReportFormat → String
  | text => "text"
  | json => "json"

/-- How the log names the form. -/
def label : ReportFormat → String
  | text => "Text"
  | json => "Json"

/-- The form that a setting names. -/
def ofKeyword? (word : String) : Option ReportFormat :=
  if word = text.keyword then some text
  else if word = json.keyword then some json
  else none

@[simp]
theorem ofKeyword?_keyword (f : ReportFormat) : ofKeyword? f.keyword = some f := by
  cases f <;> decide

end ReportFormat

end DriverAudit
