import DeployPlan.Text.Blank
import DeployPlan.Yaml.Cursor

/-!
# Lexemes of the YAML notation

The parts of a YAML text that are read character by character: scalars in their five styles,
tags, anchors and directives.

## Main definitions

* `DeployPlan.Yaml.Style` — how a scalar is written.
* `DeployPlan.Yaml.readPlain?`, `readQuoted?`, `readBlock?` — the scalars.
* `DeployPlan.Yaml.readAnchor?`, `readTag?`, `readDirective?` — the rest.

## Implementation notes

Lines of a scalar are folded: a single line break becomes a space, and of several the first is
dropped.  `Folding` holds what was read since the last character of the scalar, until it is
known how it counts.  Reading gives `none` where the text breaks the notation.
-/

set_option autoImplicit false

namespace DeployPlan

namespace Yaml

/-- How a scalar is written. -/
inductive Style where
  | plain
  | singleQuoted
  | doubleQuoted
  | literal
  | folded
  deriving DecidableEq, Inhabited

/-! ## Folded lines -/

/-- Blanks and line breaks between two characters of a scalar. -/
structure Folding where
  /-- Blanks before the first break, last first. -/
  blanks : List Char := []
  /-- Whether a line was left. -/
  broken : Bool := false
  /-- The first line break. -/
  first : List Char := []
  /-- The further line breaks, last first. -/
  more : List Char := []

namespace Folding

/-- Adds a blank; blanks at the start of a line do not count. -/
def blank (f : Folding) (c : Char) : Folding :=
  if f.broken then f else { f with blanks := c :: f.blanks }

/-- Adds a line break; the blanks before it do not count. -/
def lineBreak (f : Folding) (c : Char) : Folding :=
  if f.broken then { f with more := c :: f.more }
  else { f with blanks := [], broken := true, first := [c] }

/-- Puts what the folding stands for before `acc`, a list of characters whose last is first. -/
def append (f : Folding) (acc : List Char) : List Char :=
  if f.broken then
    if f.first == ['\n'] then
      if f.more.isEmpty then ' ' :: acc else f.more ++ acc
    else f.more ++ f.first ++ acc
  else f.blanks ++ acc

end Folding

/-! ## Plain scalars -/

/-- Reads the characters of a plain scalar up to a gap or an indicator.  In the flow notation
a colon before an indicator is refused. -/
def plainRun? (flow : Bool) (acc : List Char) : List Char → Option (List Char)
  | [] => some acc
  | c :: cs =>
    if isBlank c || isBreak c then some acc
    else if flow && c == ':' && (cs.head?.any fun d => isFlowMark d || d == '?') then none
    else if (c == ':' && atGap cs) || (flow && isFlowMark c) then some acc
    else plainRun? flow (c :: acc) cs

/-- Reads blanks and line breaks.  A tab may not indent a line to less than `indent`. -/
def foldGap? (fuel : Nat) (indent : Nat) (f : Folding) (p : Cursor) :
    Option (Folding × Cursor) :=
  match fuel with
  | 0 => none
  | fuel + 1 => match p.rest with
    | [] => some (f, p)
    | c :: _ =>
      if isBlank c then
        if f.broken && p.column < indent && c == '\t' then none
        else foldGap? fuel indent (f.blank c) (p.advance 1)
      else match p.readBreak? with
        | some (b, q) => foldGap? fuel indent (f.lineBreak b) q
        | none => some (f, p)

/-- Reads the lines of a plain scalar; `acc` holds its characters, last first.  The result says
whether the scalar ends behind a line break. -/
def plainLines? (fuel : Nat) (flow : Bool) (indent : Nat) (acc : List Char) (f : Folding)
    (p : Cursor) : Option (List Char × Bool × Cursor) :=
  match fuel with
  | 0 => none
  | fuel + 1 =>
    if p.atDocumentMark || p.peek? == some '#' then some (acc, f.broken, p)
    else do
      let run ← plainRun? flow [] p.rest
      let p := p.advance run.length
      let acc := if run.isEmpty then acc else run ++ f.append acc
      let f := if run.isEmpty then f else {}
      if !(p.peek?.any fun c => isBlank c || isBreak c) then return (acc, f.broken, p)
      let (f, p) ← foldGap? (p.rest.length + 1) indent f p
      if !flow && p.column < indent then return (acc, f.broken, p)
      plainLines? fuel flow indent acc f p

/-- Reads a plain scalar inside a block that is indented by `indent - 1`. -/
def readPlain? (flow : Bool) (indent : Nat) (p : Cursor) :
    Option (String × Bool × Cursor) := do
  let (acc, broken, p) ← plainLines? (p.rest.length + 1) flow indent [] {} p
  return (String.ofList acc.reverse, broken, p)

/-! ## Quoted scalars -/

/-- The character of a short escape. -/
def shortEscape? (c : Char) : Option Char :=
  match c with
  | '0' => some (Char.ofNat 0)
  | 'a' => some (Char.ofNat 7)
  | 'b' => some (Char.ofNat 8)
  | 't' => some '\t'
  | '\t' => some '\t'
  | 'n' => some '\n'
  | 'v' => some (Char.ofNat 11)
  | 'f' => some (Char.ofNat 12)
  | 'r' => some '\r'
  | 'e' => some (Char.ofNat 27)
  | ' ' => some ' '
  | '"' => some '"'
  | '/' => some '/'
  | '\\' => some '\\'
  | 'N' => some '\u0085'
  | '_' => some '\u00A0'
  | 'L' => some '\u2028'
  | 'P' => some '\u2029'
  | _ => none

/-- The number of hexadecimal digits that an escape by number has. -/
def hexWidth? (c : Char) : Option Nat :=
  match c with
  | 'x' => some 2
  | 'u' => some 4
  | 'U' => some 8
  | _ => none

/-- The character of an escape after its backslash, and the length of the escape. -/
def escape? : List Char → Option (Char × Nat)
  | [] => none
  | c :: cs => match hexWidth? c with
    | none => (shortEscape? c).map fun d => (d, 1)
    | some width =>
      let digits := cs.take width
      if digits.length < width then none
      else match Text.natural? 16 digits with
        | none => none
        | some n => if n.isValidChar then some (Char.ofNat n, width + 1) else none

/-- Reads the characters of a quoted scalar up to a gap or the closing quote.  An escaped line
break ends the run and is reported. -/
def quotedRun? (fuel : Nat) (double : Bool) (acc : List Char) (p : Cursor) :
    Option (List Char × Bool × Cursor) :=
  match fuel with
  | 0 => none
  | fuel + 1 => match p.rest with
    | [] => some (acc, false, p)
    | c :: cs =>
      if isBlank c || isBreak c then some (acc, false, p)
      else if !double && c == '\'' then
        if cs.head? == some '\'' then quotedRun? fuel double ('\'' :: acc) (p.advance 2)
        else some (acc, false, p)
      else if double && c == '"' then some (acc, false, p)
      else if double && c == '\\' then
        if cs.head?.any isBreak then some (acc, true, (p.advance 1).skipBreak)
        else match escape? cs with
          | some (d, n) => quotedRun? fuel double (d :: acc) (p.advance (n + 1))
          | none => none
      else quotedRun? fuel double (c :: acc) (p.advance 1)

/-- Reads the lines of a quoted scalar up to its closing quote. -/
def quotedLines? (fuel : Nat) (double : Bool) (acc : List Char) (p : Cursor) :
    Option (List Char × Cursor) :=
  match fuel with
  | 0 => none
  | fuel + 1 =>
    if p.atDocumentMark || p.rest.isEmpty then none
    else do
      let (acc, escaped, p) ← quotedRun? (p.rest.length + 1) double acc p
      if p.peek? == some (if double then '"' else '\'') then return (acc, p.advance 1)
      let (f, p) ← foldGap? (p.rest.length + 1) 0 { broken := escaped } p
      quotedLines? fuel double (f.append acc) p

/-- Reads a quoted scalar. -/
def readQuoted? (double : Bool) (p : Cursor) : Option (String × Cursor) := do
  let (acc, p) ← quotedLines? (p.rest.length + 1) double [] (p.advance 1)
  return (String.ofList acc.reverse, p)

/-! ## Block scalars -/

/-- What becomes of the line breaks at the end of a block scalar. -/
inductive Chomping where
  | strip
  | clip
  | keep
  deriving DecidableEq, Inhabited

/-- Reads the sign of a block scalar's header. -/
def chomping? : Option Char → Option Chomping
  | some '+' => some .keep
  | some '-' => some .strip
  | _ => none

/-- Reads the header of a block scalar: an indentation from one to nine and a sign, in either
order, then at most a comment. -/
def readHeader? (p : Cursor) : Option (Option Nat × Chomping × Cursor) := do
  let digit (p : Cursor) : Option (Option Nat × Cursor) :=
    match p.peek? with
    | some c =>
      if c == '0' then none
      else if Text.isDigit c then some (some (c.toNat - 48), p.advance 1)
      else some (none, p)
    | none => some (none, p)
  let (increment, chomping, p) ← match chomping? p.peek? with
    | some ch => (digit (p.advance 1)).map fun (n, p) => (n, ch, p)
    | none => match digit p with
      | some (some n, p) => match chomping? p.peek? with
        | some ch => some (some n, ch, p.advance 1)
        | none => some (some n, .clip, p)
      | some (none, p) => some (none, .clip, p)
      | none => none
  let p := p.skipWhile isBlank
  let p := if p.peek? == some '#' then p.skipWhile fun _ => true else p
  if p.rest.isEmpty || p.peek?.any isBreak then return (increment, chomping, p.skipBreak)
  else none

/-- Reads the indentation and the empty lines before a line of a block scalar.  While the
indentation is not known (`indent = none`) every space counts; `widest` is the widest that was
seen.  The line breaks are put before `breaks`. -/
def blockBreaks? (fuel : Nat) (indent : Option Nat) (widest : Nat) (breaks : List Char)
    (p : Cursor) : Option (Nat × List Char × Cursor) :=
  match fuel with
  | 0 => none
  | fuel + 1 =>
    let spaces := (p.rest.takeWhile (· == ' ')).length
    let p := p.advance (match indent with
      | some n => min spaces (n - p.column)
      | none => spaces)
    let widest := max widest p.column
    if (indent.all (p.column < ·)) && p.peek? == some '\t' then none
    else match p.readBreak? with
      | some (c, p) => blockBreaks? fuel indent widest (c :: breaks) p
      | none => some (widest, breaks, p)

/-- The text of a block scalar as far as it was read. -/
structure BlockText where
  /-- The characters, last first. -/
  acc : List Char := []
  /-- The break after the last line. -/
  lineEnd : List Char := []
  /-- The empty lines after it, last first. -/
  emptyLines : List Char := []
  /-- Whether the last line starts with a blank. -/
  leadingBlank : Bool := false

/-- Reads the lines of a block scalar that is indented by `indent`. -/
def blockLines? (fuel : Nat) (literal : Bool) (indent : Nat) (t : BlockText) (p : Cursor) :
    Option (BlockText × Cursor) :=
  match fuel with
  | 0 => none
  | fuel + 1 =>
    if p.column ≠ indent || p.rest.isEmpty then some (t, p)
    else do
      let startsBlank := p.peek?.any isBlank
      let folds := !literal && t.lineEnd == ['\n'] && !t.leadingBlank && !startsBlank
      let acc :=
        if folds then (if t.emptyLines.isEmpty then ' ' :: t.acc else t.emptyLines ++ t.acc)
        else t.emptyLines ++ t.lineEnd ++ t.acc
      let (line, p) := p.takeWhile fun _ => true
      let (lineEnd, p) := match p.readBreak? with
        | some (c, p) => ([c], p)
        | none => ([], p)
      let (_, emptyLines, p) ← blockBreaks? (p.rest.length + 1) (some indent) 0 [] p
      blockLines? fuel literal indent ⟨line.reverse ++ acc, lineEnd, emptyLines, startsBlank⟩ p

/-- Reads a block scalar behind its indicator.  `parent` is the indentation of the block
around it, if there is one. -/
def readBlock? (literal : Bool) (parent : Option Nat) (p : Cursor) :
    Option (String × Cursor) := do
  let (increment, chomping, p) ← readHeader? (p.advance 1)
  let known := increment.map fun n => parent.getD 0 + n
  let (widest, breaks, p) ← blockBreaks? (p.rest.length + 1) known 0 [] p
  let least := max 1 (match parent with
    | some n => n + 1
    | none => 0)
  let indent := known.getD (max widest least)
  let (t, p) ← blockLines? (p.rest.length + 1) literal indent { emptyLines := breaks } p
  let acc := if chomping == .strip then t.acc else t.lineEnd ++ t.acc
  let acc := if chomping == .keep then t.emptyLines ++ acc else acc
  return (String.ofList acc.reverse, p)

/-! ## Anchors, tags and directives -/

/-- Reads the name of an anchor or alias behind its indicator. -/
def readAnchor? (p : Cursor) : Option (String × Cursor) :=
  let (name, p) := (p.advance 1).takeWhile isWord
  let ends := p.rest.isEmpty ||
    p.peek?.any fun c => isBlank c || isBreak c || "?:,]\x7d%@`".toList.contains c
  if name.isEmpty || !ends then none else some (String.ofList name, p)

/-- A character of a tag besides the word characters. -/
def isTagMark (c : Char) : Bool := ";/?:@&=+$.!~*'()".toList.contains c

/-- The number of bytes of the UTF-8 sequence that starts with `byte`. -/
def sequenceWidth? (byte : Nat) : Option Nat :=
  if byte < 0x80 then some 1
  else if byte / 32 == 6 then some 2
  else if byte / 16 == 14 then some 3
  else if byte / 8 == 30 then some 4
  else none

/-- Reads the bytes of one character, each written as a percent sign and two digits. -/
def percentBytes? (n : Nat) (cs : List Char) : Option (List UInt8 × List Char) :=
  match n with
  | 0 => some ([], cs)
  | n + 1 => match cs with
    | '%' :: a :: b :: cs => do
      let byte ← Text.natural? 16 [a, b]
      let (bytes, cs) ← percentBytes? n cs
      return (UInt8.ofNat byte :: bytes, cs)
    | _ => none

/-- Reads a character that is written by its bytes. -/
def percentChar? (cs : List Char) : Option (Char × List Char) := do
  let (first, _) ← percentBytes? 1 cs
  let width ← sequenceWidth? (first.headD 0).toNat
  let (bytes, cs) ← percentBytes? width cs
  let s ← String.fromUTF8? (ByteArray.mk bytes.toArray)
  let c ← s.toList.head?
  return (c, cs)

/-- Reads the characters of a tag; `acc` holds those before, last first. -/
def tagText? (fuel : Nat) (verbatim : Bool) (acc : List Char) (p : Cursor) :
    Option (List Char × Cursor) :=
  match fuel with
  | 0 => none
  | fuel + 1 => match p.rest with
    | '%' :: _ => do
      let (c, cs) ← percentChar? p.rest
      tagText? fuel verbatim (c :: acc) (p.advance (p.rest.length - cs.length))
    | c :: _ =>
      if isWord c || isTagMark c || (verbatim && (c == ',' || c == '[' || c == ']')) then
        tagText? fuel verbatim (c :: acc) (p.advance 1)
      else some (acc, p)
    | [] => some (acc, p)

/-- Reads a tag handle: an exclamation mark, or a word between two. -/
def readHandle? (directive : Bool) (p : Cursor) : Option (String × Cursor) :=
  match p.peek? with
  | some '!' =>
    let (word, p) := (p.advance 1).takeWhile isWord
    if p.peek? == some '!' then some (String.ofList ('!' :: word ++ ['!']), p.advance 1)
    else if directive && !word.isEmpty then none
    else some (String.ofList ('!' :: word), p)
  | _ => none

/-- Reads a tag as a handle and a suffix; the handle is empty when the suffix is the tag. -/
def readTag? (flow : Bool) (p : Cursor) : Option (String × String × Cursor) := do
  let fuel := p.rest.length + 1
  let (handle, suffix, p) ←
    if (p.rest.drop 1).head? == some '<' then do
      let (text, p) ← tagText? fuel true [] (p.advance 2)
      if text.isEmpty || p.peek? != some '>' then none
      else some ("", String.ofList text.reverse, p.advance 1)
    else do
      let (handle, p) ← readHandle? false p
      if 1 < handle.length && handle.endsWith "!" then
        let (text, p) ← tagText? fuel false [] p
        if text.isEmpty then none else some (handle, String.ofList text.reverse, p)
      else
        let (text, p) ← tagText? fuel false (handle.toList.drop 1).reverse p
        if text.isEmpty then some ("", "!", p) else some ("!", String.ofList text.reverse, p)
  if (flow && p.peek? == some ',') || atGap p.rest then return (handle, suffix, p) else none

/-- A line behind a percent sign. -/
inductive Directive where
  /-- The version of the notation. -/
  | version (major minor : Nat)
  /-- A short form of tags. -/
  | tag (handle start : String)
  deriving Inhabited

/-- Reads a version number of at most nine digits. -/
def readVersionNumber? (p : Cursor) : Option (Nat × Cursor) :=
  let (digits, p) := p.takeWhile Text.isDigit
  if 9 < digits.length then none else (Text.natural? 10 digits).map fun n => (n, p)

/-- Reads what follows the name of a directive. -/
def readDirectiveValue? (name : String) (p : Cursor) : Option (Directive × Cursor) := do
  let p := p.skipWhile isBlank
  if name == "YAML" then
    let (major, p) ← readVersionNumber? p
    if p.peek? != some '.' then none
    let (minor, p) ← readVersionNumber? (p.advance 1)
    return (.version major minor, p)
  else if name == "TAG" then
    let (handle, p) ← readHandle? true p
    if !p.peek?.any isBlank then none
    let p := p.skipWhile isBlank
    let (text, p) ← tagText? (p.rest.length + 1) true [] p
    if text.isEmpty || !atGap p.rest then none
    return (.tag handle (String.ofList text.reverse), p)
  else none

/-- Reads a directive behind its percent sign up to the end of its line. -/
def readDirective? (p : Cursor) : Option (Directive × Cursor) := do
  let (name, p) := (p.advance 1).takeWhile isWord
  if name.isEmpty || !atGap p.rest then none
  let (directive, p) ← readDirectiveValue? (String.ofList name) p
  let p := p.skipWhile isBlank
  let p := if p.peek? == some '#' then p.skipWhile fun _ => true else p
  if p.rest.isEmpty || p.peek?.any isBreak then return (directive, p.skipBreak) else none

end Yaml

end DeployPlan
