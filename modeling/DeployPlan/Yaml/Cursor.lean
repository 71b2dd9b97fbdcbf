/-!
# Places in a YAML text

## Main definitions

* `DeployPlan.Yaml.isBreak`, `isBlank`, `isWord` — the character classes of the notation.
* `DeployPlan.Yaml.Cursor` — the rest of a text with the number of characters before it, its
  line and its column.
* `Cursor.advance`, `Cursor.readBreak?`, `Cursor.takeWhile` — the ways to move on.
* `DeployPlan.Yaml.isAdmitted` — the characters that may occur in a text at all.
-/

set_option autoImplicit false

namespace DeployPlan

namespace Yaml

/-! ## Character classes -/

/-- A character that ends a line. -/
def isBreak (c : Char) : Bool :=
  c == '\n' || c == '\r' || c == '\u0085' || c == '\u2028' || c == '\u2029'

/-- A blank within a line. -/
def isBlank (c : Char) : Bool := c == ' ' || c == '\t'

/-- A character of anchors, directive names and tag handles. -/
def isWord (c : Char) : Bool := c.isAlphanum || c == '_' || c == '-'

/-- A bracket or comma of the flow notation. -/
def isFlowMark (c : Char) : Bool := c == ',' || c == '[' || c == ']' || c == '{' || c == '}'

/-- The mark that some writers put before a text. -/
def byteOrderMark : Char := '\uFEFF'

/-- Whether a character may occur in a text. -/
def isAdmitted (c : Char) : Bool :=
  let n := c.toNat
  n == 0x09 || n == 0x0A || n == 0x0D || (0x20 ≤ n && n ≤ 0x7E) || n == 0x85 ||
    (0xA0 ≤ n && n ≤ 0xD7FF) || (0xE000 ≤ n && n ≤ 0xFFFD) || 0x10000 ≤ n

/-- Whether a rest of a text is empty or starts with a blank or a line break. -/
def atGap : List Char → Bool
  | [] => true
  | c :: _ => isBlank c || isBreak c

/-! ## Cursors -/

/-- A place in a text. -/
structure Cursor where
  /-- What follows the place. -/
  rest : List Char
  /-- The number of characters before it. -/
  index : Nat
  /-- The number of line breaks before it. -/
  line : Nat
  /-- The number of characters before it on its line. -/
  column : Nat
  deriving Inhabited

namespace Cursor

/-- The start of a text, behind a byte order mark. -/
def ofText (s : String) : Cursor :=
  match s.toList with
  | c :: cs => ⟨if c == byteOrderMark then cs else c :: cs, 0, 0, 0⟩
  | [] => ⟨[], 0, 0, 0⟩

/-- The next character. -/
def peek? (p : Cursor) : Option Char := p.rest.head?

/-- Moves on by `n` characters, none of them a line break. -/
def advance (p : Cursor) (n : Nat) : Cursor :=
  ⟨p.rest.drop n, p.index + n, p.line, p.column + n⟩

/-- Reads a line break, if one is next: every break but the two separators is read as a line
feed, and a carriage return takes the line feed after it along. -/
def readBreak? (p : Cursor) : Option (Char × Cursor) :=
  match p.rest with
  | '\r' :: '\n' :: cs => some ('\n', ⟨cs, p.index + 2, p.line + 1, 0⟩)
  | c :: cs =>
    if isBreak c then
      some (if c == '\u2028' || c == '\u2029' then c else '\n', ⟨cs, p.index + 1, p.line + 1, 0⟩)
    else none
  | [] => none

/-- Moves past a line break, if one is next. -/
def skipBreak (p : Cursor) : Cursor :=
  match p.readBreak? with
  | some (_, q) => q
  | none => p

/-- The characters up to the first that fails `f`, none of them a line break. -/
def takeWhile (p : Cursor) (f : Char → Bool) : List Char × Cursor :=
  let cs := p.rest.takeWhile fun c => f c && !isBreak c
  (cs, p.advance cs.length)

/-- Moves past the characters up to the first that fails `f`. -/
def skipWhile (p : Cursor) (f : Char → Bool) : Cursor := (p.takeWhile f).2

/-- Whether a line of three dashes or three points starts here. -/
def atDocumentMark (p : Cursor) : Bool :=
  p.column == 0 && match p.rest with
    | '-' :: '-' :: '-' :: cs => atGap cs
    | '.' :: '.' :: '.' :: cs => atGap cs
    | _ => false

end Cursor

end Yaml

end DeployPlan
