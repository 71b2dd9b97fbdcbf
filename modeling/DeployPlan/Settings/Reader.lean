import DeployPlan.Compose.Report
import DeployPlan.Settings.Basic

/-!
# Reading settings

Settings are written one a line, as a key, an equals sign and a value.  Values are truth values
and texts between quotation marks.

## Main definitions

* `DeployPlan.Settings.parse?` — the settings that a text writes.
* `Settings.load` — the settings of a file.
* `Settings.loadDefault` — the settings of the user, where there are any.

## Implementation notes

The notation has tables, numbers, dates and arrays as well.  No setting takes one, so a text that
has one is no settings text, and they are not read.
-/

set_option autoImplicit false

namespace DeployPlan

namespace Settings

/-! ## Characters -/

/-- A space within a line. -/
def isSpace (c : Char) : Bool := c == ' ' || c == '\t'

/-- A character of texts and comments: no control character but the tab. -/
def isAdmitted (c : Char) : Bool :=
  let n := c.toNat
  n == 9 || (0x20 ≤ n && n ≤ 0x7E) || 0x80 ≤ n

/-- A character of a bare key. -/
def isKeyPart (c : Char) : Bool := c.isAlphanum || c == '_' || c == '-'

/-- The characters behind spaces. -/
def skipSpaces (cs : List Char) : List Char := cs.dropWhile isSpace

/-- The characters behind a line break. -/
def afterBreak? : List Char → Option (List Char)
  | '\n' :: cs => some cs
  | '\r' :: '\n' :: cs => some cs
  | _ => none

/-- The characters behind the line break that may be there. -/
def skipBreak (cs : List Char) : List Char := (afterBreak? cs).getD cs

/-- The characters behind a line that holds nothing more than a comment. -/
def afterLine? (cs : List Char) : Option (List Char) :=
  let cs := match skipSpaces cs with
    | '#' :: cs => cs.dropWhile isAdmitted
    | cs => cs
  if cs.isEmpty then some [] else afterBreak? cs

/-! ## Texts -/

/-- The character that digits of base sixteen write. -/
def scalarOf? (ds : List Char) : Option Char := do
  let n ← Text.natural? 16 ds
  if n < 0xD800 ∨ (0xDFFF < n ∧ n < 0x110000) then some (Char.ofNat n) else none

/-- The character of an escape, and how many characters behind the backslash write it. -/
def escape? : List Char → Option (Char × Nat)
  | 'b' :: _ => some ('\x08', 1)
  | 't' :: _ => some ('\t', 1)
  | 'n' :: _ => some ('\n', 1)
  | 'f' :: _ => some ('\x0c', 1)
  | 'r' :: _ => some ('\r', 1)
  | '"' :: _ => some ('"', 1)
  | '\\' :: _ => some ('\\', 1)
  | 'u' :: cs => if cs.length < 4 then none else (scalarOf? (cs.take 4)).map fun c => (c, 5)
  | 'U' :: cs => if cs.length < 8 then none else (scalarOf? (cs.take 8)).map fun c => (c, 9)
  | _ => none

/-- The characters behind spaces and line breaks. -/
def skipGap : List Char → List Char
  | [] => []
  | '\r' :: '\n' :: cs => skipGap cs
  | c :: cs => if isSpace c || c == '\n' then skipGap cs else c :: cs

/-- The characters behind the end of a line and the blank start of the next. -/
def afterContinuation? (cs : List Char) : Option (List Char) :=
  (afterBreak? (skipSpaces cs)).map skipGap

/-- Reads a text on one line up to the mark that closes it. -/
def lineText? (mark : Char) (fuel : Nat) (acc : List Char) (cs : List Char) :
    Option (String × List Char) :=
  match fuel, cs with
  | fuel + 1, c :: cs =>
    if c = mark then some (String.ofList acc.reverse, cs)
    else if c = '\\' && mark = '"' then
      match escape? cs with
      | some (c, n) => lineText? mark fuel (c :: acc) (cs.drop n)
      | none => none
    else if isAdmitted c then lineText? mark fuel (c :: acc) cs
    else none
  | _, _ => none

/-- Reads a text over several lines up to the three marks that close it; up to two marks before
them belong to the text. -/
def blockText? (mark : Char) (fuel : Nat) (acc : List Char) (cs : List Char) :
    Option (String × List Char) :=
  match fuel, cs with
  | fuel + 1, c :: cs =>
    if c = mark then
      let marks := (c :: cs).takeWhile (· == mark)
      let n := min marks.length 5
      if n < 3 then blockText? mark fuel (c :: acc) cs
      else
        some (String.ofList (acc.reverse ++ List.replicate (n - 3) mark), (c :: cs).drop n)
    else if c = '\\' && mark = '"' then
      match escape? cs, afterContinuation? cs with
      | some (c, n), _ => blockText? mark fuel (c :: acc) (cs.drop n)
      | none, some cs => blockText? mark fuel acc cs
      | none, none => none
    else match afterBreak? (c :: cs) with
      | some cs => blockText? mark fuel ('\n' :: acc) cs
      | none => if isAdmitted c then blockText? mark fuel (c :: acc) cs else none
  | _, _ => none

/-- Reads a text between quotation marks of either kind. -/
def text? (cs : List Char) : Option (String × List Char) :=
  match cs with
  | '"' :: '"' :: '"' :: cs => blockText? '"' (cs.length + 1) [] (skipBreak cs)
  | '\'' :: '\'' :: '\'' :: cs => blockText? '\'' (cs.length + 1) [] (skipBreak cs)
  | '"' :: cs => lineText? '"' (cs.length + 1) [] cs
  | '\'' :: cs => lineText? '\'' (cs.length + 1) [] cs
  | _ => none

/-- Reads a truth value. -/
def truth? (cs : List Char) : Option (Bool × List Char) :=
  if "true".toList.isPrefixOf cs then some (true, cs.drop 4)
  else if "false".toList.isPrefixOf cs then some (false, cs.drop 5)
  else none

/-! ## Entries -/

/-- Reads a key, bare or between quotation marks. -/
def key? (cs : List Char) : Option (String × List Char) :=
  match cs with
  | '"' :: rest => lineText? '"' (rest.length + 1) [] rest
  | '\'' :: rest => lineText? '\'' (rest.length + 1) [] rest
  | cs =>
    let name := cs.takeWhile isKeyPart
    if name.isEmpty then none else some (String.ofList name, cs.drop name.length)

/-- Reads the value of a key and puts it in. -/
def value? (key : String) (s : Settings) (cs : List Char) : Option (Settings × List Char) :=
  if key = "namespace" then (text? cs).map fun (v, cs) => ({ s with «namespace» := v }, cs)
  else if key = "strict" then (truth? cs).map fun (v, cs) => ({ s with strict := v }, cs)
  else if key = "managed" then (truth? cs).map fun (v, cs) => ({ s with managed := v }, cs)
  else if key = "skip_unmatched_packages" then
    (truth? cs).map fun (v, cs) => ({ s with skipUnmatchedPackages := v }, cs)
  else none

/-- The characters behind an equals sign. -/
def afterEquals? (cs : List Char) : Option (List Char) :=
  match skipSpaces cs with
  | '=' :: cs => some (skipSpaces cs)
  | _ => none

/-- Reads lines.  `seen` are the keys that were read. -/
def lines? (fuel : Nat) (seen : List String) (s : Settings) (cs : List Char) :
    Option Settings :=
  match fuel with
  | 0 => none
  | fuel + 1 =>
    if cs.isEmpty then some s
    else match afterLine? cs with
      | some cs => lines? fuel seen s cs
      | none => do
        let (key, cs) ← key? (skipSpaces cs)
        let cs ← afterEquals? cs
        if seen.contains key then none
        let (s, cs) ← value? key s cs
        let cs ← afterLine? cs
        lines? fuel (key :: seen) s cs

/-- The settings that a text writes.  What it leaves out stays as it is without settings. -/
def parse? (text : String) : Option Settings :=
  let cs := match text.toList with
    | '\uFEFF' :: cs => cs
    | cs => cs
  lines? (cs.length + 1) [] {} cs

/-! ## Files -/

/-- The settings of the file at a path. -/
def load (t : FileTree) (path : String) : Except Failure Settings :=
  match t.readText path with
  | .error fault => .error (.unreadableSettings path fault)
  | .ok text => match parse? text with
    | some s => .ok s
    | none => .error (.invalidSettings path)

/-- Where the settings of a user are, in the home directory. -/
def defaultPath (home : String) : String := FilePath.join home ".config/fndeploy/config.toml"

/-- The settings of the user, if there is a file with them. -/
def loadDefault (t : FileTree) (home : Option String) : Except Failure Settings :=
  match home.map defaultPath with
  | some path => if t.isFile path then load t path else .ok {}
  | none => .ok {}

end Settings

end DeployPlan
