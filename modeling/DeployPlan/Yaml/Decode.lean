import DeployPlan.KeyMap
import DeployPlan.Yaml.Tree

/-!
# Reading fields from trees

A document is decoded strictly: every key of a record has to be the name of a field, and every
value has to be of the kind that its field takes.

## Main definitions

* `DeployPlan.Yaml.Mismatch` — what does not fit.
* `DeployPlan.Yaml.DecodeError` — a mismatch with the keys that lead to it, or a document that is
  no value at all.
* `DeployPlan.Yaml.Decoder` — a reader of trees.
* `Decoder.text`, `integer`, `value`, `optional`, `mapOf` — readers of single kinds.
* `DeployPlan.Yaml.Field`, `Decoder.record` — records with named fields.
* `Decoder.run` — reading a whole text.

## Implementation notes

A mismatch gets its place from the innermost record, map or text that is being read when it is
found; what is found within a free value has the place of what the value stands in.
-/

set_option autoImplicit false

namespace DeployPlan

namespace Yaml

/-! ## Mismatches -/

/-- What does not fit. -/
inductive Mismatch where
  /-- A key that names no field. -/
  | unknownField (name : String) (known : List String)
  /-- A second entry for a field. -/
  | duplicateField (name : String)
  /-- No entry for a field that has to be there. -/
  | missingField (name : String)
  /-- A value of another kind. -/
  | wrongKind (found expected : String)
  /-- A collection or tagged value where a scalar is due. -/
  | notScalar (found : Value)

/-- Why a document cannot be decoded. -/
inductive DecodeError where
  /-- It is no value at all. -/
  | malformed
  /-- Something does not fit.  The path is the keys that lead there, once they are known. -/
  | mismatch (path : Option (List String)) (what : Mismatch)

/-- The names that were possible, in the words of a message. -/
def expectedNames : List String → String
  | [] => "there are no fields"
  | [a] => "expected `" ++ a ++ "`"
  | [a, b] => "expected `" ++ a ++ "` or `" ++ b ++ "`"
  | names => "expected one of " ++ Text.join ", " (names.map fun n => "`" ++ n ++ "`")

/-- The text of a mismatch. -/
def Mismatch.message : Mismatch → String
  | .unknownField name known => "unknown field `" ++ name ++ "`, " ++ expectedNames known
  | .duplicateField name => "duplicate field `" ++ name ++ "`"
  | .missingField name => "missing field `" ++ name ++ "`"
  | .wrongKind found expected => "invalid type: " ++ found ++ ", expected " ++ expected
  | .notScalar found => "expected a scalar value, found " ++ found.shown

/-- The text of an error; a document that is no value has none of its own. -/
def DecodeError.message? : DecodeError → Option String
  | .malformed => none
  | .mismatch (some (key :: keys)) what =>
    some (Text.join "." (key :: keys) ++ ": " ++ what.message)
  | .mismatch _ what => some what.message

/-! ## Views of trees -/

/-- The words that messages use for a value. -/
def Value.kindWords : Value → String
  | .null => "unit value"
  | .bool b => "boolean `" ++ toString b ++ "`"
  | .int n => "integer `" ++ toString n ++ "`"
  | .float x =>
    "floating point `" ++
      (if x.isNaN then "NaN"
        else if !x.isFinite then (if x.isNegative then "-inf" else "inf")
        else x.positional) ++ "`"
  | .str s => "string " ++ Text.quoted s
  | .seq _ => "sequence"
  | .map _ => "map"
  | .tagged _ v => v.kindWords

namespace Tree

/-- What a field for a text reads. -/
def text? : Tree → Option String
  | .scalar s => s.text
  | .tagged _ t => t.text?
  | .alias t => t.text?
  | _ => none

/-- What a field for an integer reads. -/
def integer? : Tree → Option Int
  | .scalar s => s.integer
  | .tagged _ t => t.integer?
  | .alias t => t.integer?
  | _ => none

/-- Whether an optional field reads the tree as left out; `none` if the tree contradicts
itself. -/
def absent? : Tree → Option Bool
  | .scalar s => s.absent
  | .alias t => t.absent?
  | _ => some false

/-- The entries that a record or map reads; a blank has none. -/
def entries? : Tree → Option (List (Tree × Tree))
  | .mapping entries => some entries
  | .scalar s => if s.blank then some [] else none
  | .sequence _ => none
  | .tagged _ t => t.entries?
  | .alias t => t.entries?

/-- The words that messages use for a tree. -/
def kindWords : Tree → String
  | .scalar s => (s.value.getD .null).kindWords
  | .sequence _ => "sequence"
  | .mapping _ => "map"
  | .tagged _ t => t.kindWords
  | .alias t => t.kindWords

/-- How a key is written in a path; an alias or a collection has no text there. -/
def pathText : Tree → String
  | .scalar s => s.text.getD "?"
  | .tagged _ t => t.pathText
  | _ => "?"

end Tree

/-! ## Readers -/

/-- A reader of trees. -/
abbrev Decoder (α : Type) := Tree → Except DecodeError α

namespace DecodeError

/-- The error with the place where it was found, unless it has one. -/
def locate : DecodeError → DecodeError
  | .mismatch none what => .mismatch (some []) what
  | e => e

/-- The error as seen from the collection that has `key` before the place. -/
def under (key : String) : DecodeError → DecodeError
  | .mismatch (some path) what => .mismatch (some (key :: path)) what
  | e => e

/-- The error without a place. -/
def detach : DecodeError → DecodeError
  | .mismatch _ what => .mismatch none what
  | e => e

end DecodeError

namespace Decoder

variable {α σ : Type}

/-- The error for a tree of another kind. -/
def wrongKind (t : Tree) (expected : String) : DecodeError :=
  .mismatch none (.wrongKind t.kindWords expected)

/-- The characters of a scalar. -/
def text : Decoder String := fun t =>
  match t.text? with
  | some s => .ok s
  | none => .error (wrongKind t "a string").locate

/-- An integer of sixty-four bits. -/
def integer : Decoder Int := fun t =>
  match t.integer? with
  | some n => .ok n
  | none => .error (wrongKind t "i64").locate

/-- A free value. -/
def value : Decoder Value := fun t =>
  match t.value? with
  | some v => .ok v
  | none => .error .malformed

/-- A truth value. -/
def truth : Decoder Bool := fun t =>
  match t.value?.map Value.untagged with
  | some (.bool b) => .ok b
  | _ => .error (wrongKind t "a boolean").locate

/-- A scalar of any kind, as the text of its value; null has the empty text. -/
def scalarText : Decoder String := fun t =>
  match t.value? with
  | none => .error .malformed
  | some .null => .ok ""
  | some (.bool b) => .ok (toString b)
  | some (.int n) => .ok (toString n)
  | some (.float x) => .ok (Value.floatText x)
  | some (.str s) => .ok s
  | some v => .error (.mismatch none (.notScalar v))

/-- Something that may be left out. -/
def optional (d : Decoder α) : Decoder (Option α) := fun t =>
  match t.absent? with
  | some true => .ok none
  | some false => (d t).map some
  | none => .error .malformed

/-! ## Maps -/

/-- Reads entries into a map; of two entries with one key the later stays. -/
def readEntries (item : Decoder α) (acc : KeyMap α) :
    List (Tree × Tree) → Except DecodeError (KeyMap α)
  | [] => .ok acc
  | (k, t) :: es =>
    match k.text? with
    | none => .error (wrongKind k "a string")
    | some key => match item t with
      | .ok v => readEntries item (acc.insert key v) es
      | .error e => .error (e.under k.pathText)

/-- A map from texts. -/
def mapOf (item : Decoder α) : Decoder (KeyMap α) := fun t =>
  match t.entries? with
  | none => .error (wrongKind t "a map").locate
  | some es => (readEntries item .empty es).mapError DecodeError.locate

end Decoder

/-! ## Records -/

/-- A field of a record, which is read into `σ`. -/
structure Field (σ : Type) where
  /-- Its name. -/
  name : String
  /-- Further names that it may be given under. -/
  otherNames : List String := []
  /-- Reads the value of an entry and puts it in. -/
  read : Tree → σ → Except DecodeError σ

namespace Field

variable {α σ : Type}

/-- The field that a reader and a way to put in what was read make. -/
def of (name : String) (d : Decoder α) (put : α → σ → σ) (otherNames : List String := []) :
    Field σ :=
  ⟨name, otherNames, fun t acc => (d t).map fun v => put v acc⟩

/-- The names that a field may be given under. -/
def names (f : Field σ) : List String := f.name :: f.otherNames

/-- Reads entries as fields.  `seen` are the names of the fields that were read. -/
def readAll (fields : List (Field σ)) (seen : List String) (acc : σ) :
    List (Tree × Tree) → Except DecodeError σ
  | [] => .ok acc
  | (k, t) :: es =>
    match k.text? with
    | none => .error (Decoder.wrongKind k "field identifier")
    | some name => match fields.find? fun f => f.names.contains name with
      | none => .error (.mismatch none (.unknownField name (fields.flatMap names)))
      | some f =>
        if seen.contains f.name then .error (.mismatch none (.duplicateField f.name))
        else match f.read t acc with
          | .ok acc => readAll fields (f.name :: seen) acc es
          | .error e => .error (e.under k.pathText)

end Field

namespace Decoder

variable {α σ : Type}

/-- A record: its fields are read into `init`, and `finish` makes the result. -/
def record (kind : String) (fields : List (Field σ)) (init : σ)
    (finish : σ → Except DecodeError α) : Decoder α := fun t =>
  match t.entries? with
  | none => .error (wrongKind t ("struct " ++ kind)).locate
  | some es =>
    ((Field.readAll fields [] init es).bind finish).mapError DecodeError.locate

/-- Reads a whole tree.  When something does not fit and the tree is no value, it is malformed. -/
def read (d : Decoder α) (t : Tree) : Except DecodeError α :=
  match d t with
  | .ok v => .ok v
  | .error e => if t.value?.isNone then .error .malformed else .error e

/-- Reads a whole text. -/
def run (d : Decoder α) (text : String) : Except DecodeError α :=
  match Tree.parse? text with
  | some t => d.read t
  | none => .error .malformed

end Decoder

end Yaml

end DeployPlan
