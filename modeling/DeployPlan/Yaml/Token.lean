import DeployPlan.Yaml.Lexeme

/-!
# Tokens of a YAML text

The block notation marks structure by indentation and the flow notation by brackets.  Tokens
carry both as explicit starts and ends.

## Main definitions

* `DeployPlan.Yaml.Token` — the tokens.
* `DeployPlan.Yaml.Scanner` — the tokens so far, the open blocks, and the keys that may still
  be waiting for their colon.
* `DeployPlan.Yaml.tokens?` — the tokens of a text, or `none` if it breaks the notation.

## Implementation notes

That something was the key of a mapping is known only when its colon is reached.  What belongs
before the key is noted with the key's position and put in at the end, so that tokens are only
ever added behind those that are there.
-/

set_option autoImplicit false

namespace DeployPlan

namespace Yaml

/-- A token. -/
inductive Token where
  | directive (d : Directive)
  | documentStart
  | documentEnd
  | blockSequenceStart
  | blockMappingStart
  | blockEnd
  | flowSequenceStart
  | flowSequenceEnd
  | flowMappingStart
  | flowMappingEnd
  | blockEntry
  | flowEntry
  | key
  | value
  | alias (name : String)
  | anchor (name : String)
  | tag (handle suffix : String)
  | scalar (style : Style) (text : String)
  deriving Inhabited

/-- Something that is a key if its colon follows on the same line. -/
structure PendingKey where
  /-- The number of tokens before it. -/
  position : Nat
  /-- Whether the block it stands in admits nothing but a key. -/
  required : Bool
  /-- The number of characters before it. -/
  index : Nat
  /-- Its line. -/
  line : Nat
  /-- Its column. -/
  column : Nat

/-- A text while it is taken apart. -/
structure Scanner where
  /-- What is left to read. -/
  cursor : Cursor
  /-- The indentation of the innermost open block; `-1` outside of all. -/
  indent : Int := -1
  /-- The indentations around it, innermost first. -/
  outer : List Int := []
  /-- Whether a key may start here. -/
  keyAllowed : Bool := true
  /-- The key that may be waiting outside of all brackets. -/
  blockKey : Option PendingKey := none
  /-- The keys that may be waiting in each open bracket, innermost first. -/
  flowKeys : List (Option PendingKey) := []
  /-- The tokens so far. -/
  tokens : Array Token := #[]
  /-- Tokens that belong before the token with a given position. -/
  splices : List (Nat × List Token) := []

namespace Scanner

/-- Whether a bracket is open. -/
def inFlow (s : Scanner) : Bool := !s.flowKeys.isEmpty

/-- Adds a token. -/
def push (s : Scanner) (t : Token) : Scanner := { s with tokens := s.tokens.push t }

/-- Adds a token whose text is `n` characters long. -/
def pushMark (s : Scanner) (t : Token) (n : Nat) : Scanner :=
  { s.push t with cursor := s.cursor.advance n }

/-! ## Waiting keys -/

/-- The key that may be waiting in the innermost bracket or block. -/
def pending (s : Scanner) : Option PendingKey :=
  match s.flowKeys with
  | k :: _ => k
  | [] => s.blockKey

/-- Replaces the key that may be waiting. -/
def setPending (s : Scanner) (k : Option PendingKey) : Scanner :=
  match s.flowKeys with
  | _ :: ks => { s with flowKeys := k :: ks }
  | [] => { s with blockKey := k }

/-- Gives up the key that may be waiting, unless it has to be one. -/
def dropPending? (s : Scanner) : Option Scanner :=
  if s.pending.any (·.required) then none else some (s.setPending none)

/-- Notes that a key may start here. -/
def notePending? (s : Scanner) : Option Scanner :=
  if s.keyAllowed then do
    let s ← s.dropPending?
    let p := s.cursor
    let required := !s.inFlow && s.indent == (p.column : Int)
    return s.setPending (some ⟨s.tokens.size, required, p.index, p.line, p.column⟩)
  else some s

/-- Whether a waiting key can no longer get its colon: it must be on the key's line and at most
`1024` characters on. -/
def isStale (p : Cursor) (k : PendingKey) : Bool :=
  k.line < p.line || k.index + 1024 < p.index

/-- Gives up the waiting keys that are stale, unless one has to be a key. -/
def dropStale? (s : Scanner) : Option Scanner :=
  let stale (k : Option PendingKey) := k.any (isStale s.cursor)
  let keys := s.blockKey :: s.flowKeys
  if keys.any fun k => stale k && k.any (·.required) then none
  else
    let keep (k : Option PendingKey) := if stale k then none else k
    some { s with blockKey := keep s.blockKey, flowKeys := s.flowKeys.map keep }

/-! ## Open blocks -/

/-- Opens a block at `column`, if it is indented more than the one around it.  Its start is put
before the token at `position`, or added. -/
def openBlock (s : Scanner) (start : Token) (column : Nat) (position : Option Nat) : Scanner :=
  if s.inFlow || (column : Int) ≤ s.indent then s
  else
    let s := { s with indent := column, outer := s.indent :: s.outer }
    match position with
    | some n => { s with splices := (n, [start]) :: s.splices }
    | none => s.push start

/-- Closes the blocks that are indented more than `column`. -/
def closeBlocks (s : Scanner) (column : Int) : Scanner :=
  let rec close (indent : Int) (tokens : Array Token) : List Int → Scanner
    | [] => { s with indent := indent, outer := [], tokens := tokens }
    | i :: is =>
      if column < indent then close i (tokens.push .blockEnd) is
      else { s with indent := indent, outer := i :: is, tokens := tokens }
  if s.inFlow then s else close s.indent s.tokens s.outer

/-! ## One token -/

/-- Moves past blanks, comments and line breaks. -/
def skipGap (fuel : Nat) (s : Scanner) : Scanner :=
  match fuel with
  | 0 => s
  | fuel + 1 =>
    let p := s.cursor
    let p := if p.column == 0 && p.peek? == some byteOrderMark then p.advance 1 else p
    let p := p.skipWhile fun c => c == ' ' || ((s.inFlow || !s.keyAllowed) && c == '\t')
    let p := if p.peek? == some '#' then p.skipWhile fun _ => true else p
    match p.readBreak? with
    | some (_, q) => skipGap fuel { s with cursor := q, keyAllowed := s.keyAllowed || !s.inFlow }
    | none => { s with cursor := p }

/-- Reads a directive or a document mark, before which all blocks are closed. -/
def outside? (s : Scanner) : Option Scanner := do
  let s ← (s.closeBlocks (-1)).dropPending?
  return { s with keyAllowed := false }

/-- Reads an opening bracket. -/
def openFlow? (s : Scanner) (t : Token) : Option Scanner := do
  let s ← s.notePending?
  return { s.pushMark t 1 with flowKeys := none :: s.flowKeys, keyAllowed := true }

/-- Reads a closing bracket. -/
def closeFlow? (s : Scanner) (t : Token) : Option Scanner := do
  let s ← s.dropPending?
  return { s.pushMark t 1 with flowKeys := s.flowKeys.drop 1, keyAllowed := false }

/-- Reads a dash before an item. -/
def entry? (s : Scanner) : Option Scanner := do
  if !s.inFlow && !s.keyAllowed then none
  let s ← (s.openBlock .blockSequenceStart s.cursor.column none).dropPending?
  return { s.pushMark .blockEntry 1 with keyAllowed := true }

/-- Reads a question mark before a key. -/
def key? (s : Scanner) : Option Scanner := do
  if !s.inFlow && !s.keyAllowed then none
  let s ← (s.openBlock .blockMappingStart s.cursor.column none).dropPending?
  return { s.pushMark .key 1 with keyAllowed := !s.inFlow }

/-- Reads a colon before a value, which makes a key of what was waiting for it. -/
def value? (s : Scanner) : Option Scanner :=
  match s.pending with
  | some k =>
    let s := { s with splices := (k.position, [.key]) :: s.splices }
    let s := (s.openBlock .blockMappingStart k.column (some k.position)).setPending none
    some { s.pushMark .value 1 with keyAllowed := false }
  | none => do
    if !s.inFlow && !s.keyAllowed then none
    let s := s.openBlock .blockMappingStart s.cursor.column none
    return { s.pushMark .value 1 with keyAllowed := !s.inFlow }

/-- Adds a token that may be a key and was read up to `p`. -/
def content? (s : Scanner) (token? : Option (Token × Cursor)) : Option Scanner := do
  let s ← s.notePending?
  let (t, p) ← token?
  return { s.push t with cursor := p, keyAllowed := false }

/-- Reads a plain scalar. -/
def plain? (s : Scanner) : Option Scanner := do
  let s ← s.notePending?
  let (text, broken, p) ← readPlain? s.inFlow (s.indent + 1).toNat s.cursor
  return { s.push (.scalar .plain text) with cursor := p, keyAllowed := broken }

/-- Reads a block scalar. -/
def block? (s : Scanner) (literal : Bool) : Option Scanner := do
  let s ← s.dropPending?
  let parent := if s.indent < 0 then none else some s.indent.toNat
  let (text, p) ← readBlock? literal parent s.cursor
  let style := if literal then Style.literal else Style.folded
  return { s.push (.scalar style text) with cursor := p, keyAllowed := true }

/-- Whether a plain scalar may start with `c` before `cs`. -/
def startsPlain (flow : Bool) (c : Char) (cs : List Char) : Bool :=
  !(isBlank c || "-?:,[]\x7b\x7d#&*!|>'\"%@`".toList.contains c)
    || (c == '-' && !(cs.head?.any isBlank))
    || (!flow && (c == '?' || c == ':') && !atGap cs)

/-- Reads the token that starts with `c` before `cs`. -/
def token? (s : Scanner) (c : Char) (cs : List Char) : Option Scanner :=
  let p := s.cursor
  if p.column == 0 && c == '%' then do
    let s ← s.outside?
    let (d, p) ← readDirective? p
    return { s.push (.directive d) with cursor := p }
  else if p.atDocumentMark then do
    let s ← s.outside?
    return s.pushMark (if c == '-' then .documentStart else .documentEnd) 3
  else if c == '[' then s.openFlow? .flowSequenceStart
  else if c == '{' then s.openFlow? .flowMappingStart
  else if c == ']' then s.closeFlow? .flowSequenceEnd
  else if c == '}' then s.closeFlow? .flowMappingEnd
  else if c == ',' then do
    let s ← s.dropPending?
    return { s.pushMark .flowEntry 1 with keyAllowed := true }
  else if c == '-' && atGap cs then s.entry?
  else if c == '?' && (s.inFlow || atGap cs) then s.key?
  else if c == ':' && (s.inFlow || atGap cs) then s.value?
  else if c == '*' then s.content? ((readAnchor? p).map fun (n, q) => (.alias n, q))
  else if c == '&' then s.content? ((readAnchor? p).map fun (n, q) => (.anchor n, q))
  else if c == '!' then
    s.content? ((readTag? s.inFlow p).map fun (h, t, q) => (.tag h t, q))
  else if c == '|' && !s.inFlow then s.block? true
  else if c == '>' && !s.inFlow then s.block? false
  else if c == '\'' then
    s.content? ((readQuoted? false p).map fun (t, q) => (.scalar .singleQuoted t, q))
  else if c == '"' then
    s.content? ((readQuoted? true p).map fun (t, q) => (.scalar .doubleQuoted t, q))
  else if startsPlain s.inFlow c cs then s.plain?
  else none

/-- Reads tokens up to the end of the text.  Every step but the last takes a character. -/
def run? (fuel : Nat) (s : Scanner) : Option Scanner :=
  match fuel with
  | 0 => none
  | fuel + 1 => do
    let s ← (s.skipGap (s.cursor.rest.length + 1)).dropStale?
    let s := s.closeBlocks s.cursor.column
    match s.cursor.rest with
    | [] => s.outside?
    | c :: cs => run? fuel (← s.token? c cs)

/-- The tokens in their final order. -/
def spliced (s : Scanner) : List Token :=
  let before := s.splices.foldl (fun a (i, ts) => a.modify i fun us => us ++ ts)
    (Array.replicate s.tokens.size ([] : List Token))
  (before.toList.zip s.tokens.toList).flatMap fun (ts, t) => ts ++ [t]

end Scanner

/-- The tokens of a text, or `none` if it breaks the notation. -/
def tokens? (text : String) : Option (List Token) :=
  let cursor := Cursor.ofText text
  if cursor.rest.all isAdmitted then
    (Scanner.run? (cursor.rest.length + 2) { cursor := cursor }).map Scanner.spliced
  else none

end Yaml

end DeployPlan
