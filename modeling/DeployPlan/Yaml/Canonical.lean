import DeployPlan.Yaml.Scalar

/-!
# The canonical text of a value

Two documents that say the same have one canonical text, whatever they were written like.  It has
one entry or item a line, and each scalar in the plainest form that reads back.

## Main definitions

* `DeployPlan.Yaml.Form` — the forms of a scalar.
* `Form.isPlainSafe`, `isSingleSafe`, `isLiteralSafe` — which characters a form can write.
* `Form.ofText` — the form of a text.
* `Value.canonical?` — the text of a value.  It does not exist for values in which the only key of
  a mapping is tagged, or is itself a mapping with a single entry.

## Implementation notes

An entry or item knows how many columns its collection is indented by.  The first line of a
collection goes on behind a mark (a dash, a question mark, or the colon below one), and starts a
new line behind a key or a tag.
-/

set_option autoImplicit false

namespace DeployPlan

namespace Yaml

/-! ## Forms of scalars -/

/-- The forms in which a scalar can be written. -/
inductive Form where
  | plain
  | singleQuoted
  | doubleQuoted
  | literal
  deriving DecidableEq, Inhabited

namespace Form

/-- Whether a character can stand for itself. -/
def isPrintable (c : Char) : Bool :=
  let n := c.toNat
  n == 0x0A || (0x20 ≤ n && n ≤ 0x7E) || (0xA0 ≤ n && n ≤ 0xFFFD && n != 0xFEFF) || 0x10000 ≤ n

/-- Whether two characters in a row satisfy `p` and `q`. -/
def anyPair (p q : Char → Bool) : List Char → Bool
  | a :: b :: cs => (p a && q b) || anyPair p q (b :: cs)
  | _ => false

/-- Whether the first or the last character satisfies `p`. -/
def anyEnd (p : Char → Bool) (cs : List Char) : Bool := cs.head?.any p || cs.getLast?.any p

/-- Whether a character is a space. -/
def isSpace (c : Char) : Bool := c == ' '

/-- The characters that a plain scalar cannot start with. -/
def opening : List Char := "#,[]{}&*!|>'\"%@`".toList

/-- The characters that a plain scalar cannot start with when a space or nothing follows. -/
def openingBeforeSpace : List Char := "?:-".toList

/-- Whether the start of a text would not be read as a plain scalar. -/
def hasMarkAtStart : List Char → Bool
  | [] => false
  | c :: cs => opening.contains c || (openingBeforeSpace.contains c && cs.head?.all isSpace) ||
      "---".toList.isPrefixOf (c :: cs) || "...".toList.isPrefixOf (c :: cs)

/-- Whether a text would be cut where it looks like a key or a comment. -/
def hasMarkInside (cs : List Char) : Bool :=
  cs.getLast? == some ':' || anyPair (· == ':') isSpace cs || anyPair isSpace (· == '#') cs

/-- Whether a text can be written bare. -/
def isPlainSafe (cs : List Char) : Bool :=
  cs.all (fun c => isPrintable c && !isBreak c) && !anyEnd isSpace cs && !hasMarkAtStart cs &&
    !hasMarkInside cs

/-- Whether a text can be written between single quotation marks. -/
def isSingleSafe (cs : List Char) : Bool :=
  cs.all isPrintable && !anyPair isSpace isBreak cs && !anyPair isBreak isSpace cs

/-- Whether a text can be written line by line. -/
def isLiteralSafe (cs : List Char) : Bool :=
  !cs.isEmpty && cs.all isPrintable && !anyPair isSpace isBreak cs && !cs.getLast?.any isSpace

/-- Whether a text would be read as something else if it was written bare. -/
def isAmbiguous (s : String) : Bool :=
  match Scalar.plainValue? s with
  | some (.str _) => Scalar.isPaddedDigits s.toList
  | _ => true

/-- The form of a text. -/
def ofText (s : String) : Form :=
  let cs := s.toList
  if cs.contains '\n' then (if isLiteralSafe cs then .literal else .doubleQuoted)
  else if !isAmbiguous s && isPlainSafe cs then .plain
  else if isSingleSafe cs then .singleQuoted
  else .doubleQuoted

/-! ## Texts of scalars -/

/-- Columns of spaces. -/
def margin (n : Nat) : List Char := List.replicate n ' '

/-- The characters with a margin before each line but the first, unless the line is empty.
`atStart` tells whether a line has just begun. -/
def withMargin (n : Nat) (atStart : Bool) : List Char → List Char
  | [] => []
  | c :: cs =>
    if isBreak c then c :: withMargin n true cs
    else (if atStart then margin n else []) ++ c :: withMargin n false cs

/-- A character between single quotation marks. -/
def singleQuotedChar (c : Char) : List Char := if c = '\'' then ['\'', '\''] else [c]

/-- The text between single quotation marks. -/
def singleQuotedText (n : Nat) (cs : List Char) : String :=
  let body := withMargin n false (cs.flatMap singleQuotedChar)
  let closing := if cs.getLast?.any isBreak then margin n else []
  String.ofList ('\'' :: body ++ closing ++ ['\''])

/-- The letters of short escapes. -/
def shortEscapes : List (Nat × Char) :=
  [(0x00, '0'), (0x07, 'a'), (0x08, 'b'), (0x09, 't'), (0x0A, 'n'), (0x0B, 'v'), (0x0C, 'f'),
    (0x0D, 'r'), (0x1B, 'e'), (0x22, '"'), (0x5C, '\\'), (0x85, 'N'), (0x2028, 'L'),
    (0x2029, 'P')]

/-- The digits of a number in capital letters. -/
def hexDigits (width n : Nat) : String := (Text.digits 16 width n).map Char.toUpper

/-- A character between double quotation marks. -/
def doubleQuotedChar (c : Char) : String :=
  let n := c.toNat
  if isPrintable c && !isBreak c && c != '"' && c != '\\' then c.toString
  else match shortEscapes.find? fun e => e.1 == n with
    | some (_, letter) => "\\" ++ letter.toString
    | none =>
      if n ≤ 0xFF then "\\x" ++ hexDigits 2 n
      else if n ≤ 0xFFFF then "\\u" ++ hexDigits 4 n
      else "\\U" ++ hexDigits 8 n

/-- The text between double quotation marks. -/
def doubleQuotedText (cs : List Char) : String :=
  "\"" ++ String.join (cs.map doubleQuotedChar) ++ "\""

/-- The mark before the lines of a text: whether the margin has to be told, and what becomes of
the line breaks at the end. -/
def literalHeader (cs : List Char) : String :=
  let indented := if cs.head?.any fun c => isSpace c || isBreak c then "2" else ""
  let ending := match cs.reverse with
    | c :: before =>
      if !isBreak c then "-" else if before.head?.all isBreak then "+" else ""
    | [] => "-"
  "|" ++ indented ++ ending

/-- The text line by line. -/
def literalText (n : Nat) (cs : List Char) : String :=
  literalHeader cs ++ "\n" ++ String.ofList (withMargin n true cs)

/-- The text of a scalar in a form; `n` is the margin of lines after the first. -/
def write (form : Form) (n : Nat) (s : String) : String :=
  match form with
  | .plain => s
  | .singleQuoted => singleQuotedText n s.toList
  | .doubleQuoted => doubleQuotedText s.toList
  | .literal => literalText n s.toList

end Form

namespace Value

/-- The form and the characters of a value that is no collection. -/
def scalar? : Value → Option (Form × String)
  | .null => some (.plain, "null")
  | .bool b => some (.plain, toString b)
  | .int n => some (.plain, toString n)
  | .float x => some (.plain, floatText x)
  | .str s => some (Form.ofText s, s)
  | .seq _ | .map _ | .tagged _ _ => none

/-! ## Tags -/

/-- A byte of a tag. -/
def tagByte (b : UInt8) : String :=
  let c := Char.ofNat b.toNat
  if isWord c || ";/?:@&=+$,.!~*'()[]".toList.contains c then c.toString
  else "%" ++ Form.hexDigits 2 b.toNat

/-- A tag with its mark. -/
def markedTag (tag : String) : String := if Text.startsWith "!" tag then tag else "!" ++ tag

/-- The text of a tag. -/
def tagText (tag : String) : String :=
  match (markedTag tag).toUTF8.data.toList with
  | [_] => "!<!>"
  | bytes => "!" ++ String.join ((bytes.drop 1).map tagByte)

/-- The tag of a value and the value without it. -/
def splitTag : Value → Option String × Value
  | .tagged tag v => (some tag, v)
  | v => (none, v)

/-- What is written before a value with a tag. -/
def tagStart (tag : Option String) : String := (tag.map fun tag => tagText tag ++ " ").getD ""

/-! ## Keys -/

/-- The most bytes that a key on one line with its value can have. -/
def longestKey : Nat := 128

/-- The text of a key that stands on one line with its value: an empty collection, or a scalar
on one line; neither is too long. -/
def lineKey? (v : Value) : Option String :=
  let (tag, bare) := v.splitTag
  let tagSize := (tag.map fun tag => (markedTag tag).utf8ByteSize).getD 0
  let short? (size : Nat) (text : String) : Option String :=
    if tagSize + size ≤ longestKey then some (tagStart tag ++ text) else none
  match bare with
  | .seq [] => short? 0 "[]"
  | .map [] => short? 0 "\x7b\x7d"
  | bare => match bare.scalar? with
    | some (form, s) =>
      if s.toList.any isBreak then none else short? s.utf8ByteSize (form.write 0 s)
    | none => none

/-- Whether a value is tagged or a mapping with a single entry.  As the only key of a mapping
such a value cannot be told from the mapping. -/
def isOpaqueKey : Value → Bool
  | .tagged _ _ => true
  | .map [_] => true
  | _ => false

/-! ## Lines -/

/-- What a value is written behind. -/
inductive Place where
  /-- The start of the text. -/
  | start
  /-- A key and its colon. -/
  | key
  /-- The dash of an item. -/
  | dash
  /-- The question mark of a key, or the colon below it. -/
  | mark
  deriving DecidableEq, Inhabited

namespace Place

/-- The space between what a value is written behind and the value. -/
def gap : Place → String
  | .start => ""
  | .key | .dash | .mark => " "

/-- Whether a value is on the line of what it is written behind, although it is no scalar. -/
def isInline : Place → Option String → Bool
  | .key, _ => false
  | _, some _ => false
  | _, none => true

/-- The margin of the entries of a mapping, or of the lines of a scalar, in a collection with
margin `n`. -/
def innerMargin (n : Option Nat) (least : Nat) : Nat := (n.map (· + 2)).getD least

/-- The margin of the items of a sequence in a collection with margin `n`: that of the
collection itself when the sequence starts a line of a mapping. -/
def itemMargin (place : Place) (tag : Option String) (n : Option Nat) : Nat :=
  let sameMargin := match place with
    | .key => true
    | .mark => tag.isSome
    | .start | .dash => false
  if sameMargin then n.getD 0 else innerMargin n 0

end Place

/-- The lines of a collection with margin `n`. -/
def block (place : Place) (tag : Option String) (n : Nat) (lines : List String) : String :=
  let margin := String.ofList (Form.margin n)
  let tagPart := (tag.map fun tag => place.gap ++ tagText tag).getD ""
  if place.isInline tag then place.gap ++ Text.join margin lines
  else tagPart ++ "\n" ++ String.join (lines.map fun line => margin ++ line)

/-- A value on one line. -/
def line (place : Place) (tag : Option String) (text : String) : String :=
  let ending := if text.toList.getLast?.any isBreak then "" else "\n"
  place.gap ++ tagStart tag ++ text ++ ending

mutual

/-- The text of a value behind `place`, in a collection with margin `n`. -/
def canonicalAt? (place : Place) (n : Option Nat) (tag : Option String) :
    Value → Option String
  | .tagged inner v => match tag with
    | none => canonicalAt? place n (some inner) v
    | some _ => none
  | .seq [] => some (line place tag "[]")
  | .seq items =>
    let margin := place.itemMargin tag n
    (canonicalItems? margin items).map (block place tag margin)
  | .map [] => some (line place tag "\x7b\x7d")
  | .map entries =>
    let margin := Place.innerMargin n 0
    let opaqueKey := tag.isNone && match entries with
      | [(k, _)] => isOpaqueKey k
      | _ => false
    if opaqueKey then none
    else (canonicalEntries? margin entries).map (block place tag margin)
  | .null => some (line place tag "null")
  | .bool b => some (line place tag (toString b))
  | .int i => some (line place tag (toString i))
  | .float x => some (line place tag (floatText x))
  | .str s => some (line place tag ((Form.ofText s).write (Place.innerMargin n 2) s))

/-- The texts of the items of a sequence with margin `n`. -/
def canonicalItems? (n : Nat) : List Value → Option (List String)
  | [] => some []
  | v :: vs => match canonicalAt? .dash n none v, canonicalItems? n vs with
    | some text, some texts => some (("-" ++ text) :: texts)
    | _, _ => none

/-- The texts of the entries of a mapping with margin `n`. -/
def canonicalEntries? (n : Nat) : List (Value × Value) → Option (List String)
  | [] => some []
  | (k, v) :: es =>
    let entry? := match lineKey? k with
      | some key => (canonicalAt? .key n none v).map fun value => [key ++ ":" ++ value]
      | none => match canonicalAt? .mark n none k, canonicalAt? .mark n none v with
        | some key, some value => some ["?" ++ key, ":" ++ value]
        | _, _ => none
    match entry?, canonicalEntries? n es with
    | some texts, some more => some (texts ++ more)
    | _, _ => none

end

/-- The canonical text of a value. -/
def canonical? (v : Value) : Option String := canonicalAt? .start none none v

end Value

end Yaml

end DeployPlan
