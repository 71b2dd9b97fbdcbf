import DeployPlan.Text.Visible
import DeployPlan.Text.Blank

/-!
# Quoted texts

Messages show a text that was found in a document between double quotes.

## Main definitions

* `DeployPlan.Text.quotedChar` — one character of a quoted text: a short escape, the character
  itself when it is visible, or its number.
* `DeployPlan.Text.quoted` — the text between quotes.
-/

set_option autoImplicit false

namespace DeployPlan

namespace Text

/-- One character of a quoted text. -/
def quotedChar (c : Char) : String :=
  if c == '"' then "\\\""
  else if c == '\\' then "\\\\"
  else if c == '\n' then "\\n"
  else if c == '\r' then "\\r"
  else if c == '\t' then "\\t"
  else if c.toNat == 0 then "\\0"
  else if isVisible c then String.singleton c
  else "\\u\x7b" ++ digits 16 1 c.toNat ++ "\x7d"

/-- A text between double quotes, with what a reader could not see written as escapes. -/
def quoted (s : String) : String :=
  "\"" ++ String.join (s.toList.map quotedChar) ++ "\""

end Text

end DeployPlan
