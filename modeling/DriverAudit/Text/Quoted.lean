import DriverAudit.Text.NameSet
import DriverAudit.Text.Printable
import DriverAudit.Text.Radix

/-!
# Quoted text in the log

Names come out of untrusted files, so where the log shows a set of them each
name is put into quotes. Inside the quotes a line stays one line and nothing
is invisible: the quote, the backslash and the usual control characters are
written by their short escapes, and every other character that is not shown as
itself is written by its code point.
-/

namespace DriverAudit.Quoted

/-- A code point in braces behind a backslash and `u`. -/
def codePoint (c : Char) : String :=
  "\\u\x7b" ++ String.ofList (Radix.digits 1 c.toNat) ++ "\x7d"

/-- How a character is written between quotes. -/
def escaped (c : Char) : String :=
  if c = '\x00' then "\\0"
  else if c = '\t' then "\\t"
  else if c = '\n' then "\\n"
  else if c = '\r' then "\\r"
  else if c = '\\' then "\\\\"
  else if c = '"' then "\\\""
  else if Printable.isShown c then c.toString
  else codePoint c

/-- **A text between quotes.** -/
def text (s : String) : String :=
  "\"" ++ String.join (s.toList.map escaped) ++ "\""

/-- **A set of names**, each between quotes, in braces. -/
def set (s : NameSet) : String :=
  "\x7b" ++ ", ".intercalate (s.names.map text) ++ "\x7d"

end DriverAudit.Quoted
