import DeployPlan.Json.Basic
import DeployPlan.Binary64.Decimal

/-!
# JSON texts, written

## Main definitions

* `DeployPlan.Json.quote` — a text between quotes, controls escaped.
* `DeployPlan.Json.compact` — a value on one line without blanks.
* `DeployPlan.Json.pretty` — a value with one entry a line, two spaces for each level.
-/

set_option autoImplicit false

namespace DeployPlan

namespace Json

/-- One character of a quoted text. -/
def quoteChar (c : Char) : String :=
  if c == '"' then "\\\""
  else if c == '\\' then "\\\\"
  else if c == '\n' then "\\n"
  else if c == '\r' then "\\r"
  else if c == '\t' then "\\t"
  else if c.toNat == 8 then "\\b"
  else if c.toNat == 12 then "\\f"
  else if c.toNat < 32 then "\\u" ++ Text.digits 16 4 c.toNat
  else String.singleton c

/-- A text between quotes. -/
def quote (s : String) : String := "\"" ++ String.join (s.toList.map quoteChar) ++ "\""

/-- A number with a point; what is not finite has no JSON form and becomes null. -/
def floatText (x : Binary64) : String := if x.isFinite then x.scientific else "null"

mutual

/-- A value on one line without blanks. -/
def compact : Json → String
  | .null => "null"
  | .bool b => toString b
  | .int n => toString n
  | .float x => floatText x
  | .str s => quote s
  | .arr items => "[" ++ Text.join "," (compactItems items) ++ "]"
  | .obj entries => "\x7b" ++ Text.join "," (compactEntries entries) ++ "\x7d"

/-- The items of an array, each on one line. -/
def compactItems : List Json → List String
  | [] => []
  | v :: vs => compact v :: compactItems vs

/-- The entries of an object, each on one line. -/
def compactEntries : List (String × Json) → List String
  | [] => []
  | (k, v) :: es => (quote k ++ ":" ++ compact v) :: compactEntries es

end

/-- Lines between brackets, each behind the margin and two spaces. -/
def bracketed (opening closing margin : String) (lines : List String) : String :=
  if lines.isEmpty then opening ++ closing
  else
    let inner := "\n" ++ margin ++ "  "
    opening ++ inner ++ Text.join ("," ++ inner) lines ++ "\n" ++ margin ++ closing

mutual

/-- A value behind a margin, one entry a line. -/
def prettyFrom (margin : String) : Json → String
  | .arr items => bracketed "[" "]" margin (prettyItems (margin ++ "  ") items)
  | .obj entries => bracketed "\x7b" "\x7d" margin (prettyEntries (margin ++ "  ") entries)
  | .null => "null"
  | .bool b => toString b
  | .int n => toString n
  | .float x => floatText x
  | .str s => quote s

/-- The items of an array behind a margin. -/
def prettyItems (margin : String) : List Json → List String
  | [] => []
  | v :: vs => prettyFrom margin v :: prettyItems margin vs

/-- The entries of an object behind a margin. -/
def prettyEntries (margin : String) : List (String × Json) → List String
  | [] => []
  | (k, v) :: es => (quote k ++ ": " ++ prettyFrom margin v) :: prettyEntries margin es

end

/-- A value with one entry a line. -/
def pretty (v : Json) : String := prettyFrom "" v

end Json

end DeployPlan
