import DeployPlan.Yaml.Node
import DeployPlan.Yaml.Scalar

/-!
# Trees

A tree is what a document says, whichever way it was written: aliases are replaced by what they
stand for, and scalars by their readings.  Fields are read from trees, and values are trees too.

## Main definitions

* `DeployPlan.Yaml.Tree` — the trees.
* `Tree.ofStream?` — the tree of a text.  Aliases may be followed a hundred times for each unit
  of the text's size.
* `Tree.value?` — the tree as a free value; `none` if a mapping has two entries with the same
  key or a scalar has no value.
* `Tree.ofValue` — a value as a tree.
-/

set_option autoImplicit false

namespace DeployPlan

namespace Yaml

/-- What a document says. -/
inductive Tree where
  | scalar (s : Scalar)
  | sequence (items : List Tree)
  | mapping (entries : List (Tree × Tree))
  | tagged (tag : String) (t : Tree)
  | alias (t : Tree)
  deriving Inhabited

namespace Tree

/-! ## From a text -/

/-- The name of a tag that values keep: what follows the exclamation mark, or the mark itself
when nothing does. -/
def tagName (tag : String) : String :=
  let bare (cs : List Char) : List Char := match cs with
    | '!' :: [] => cs
    | '!' :: cs => cs
    | cs => cs
  String.ofList (bare (bare tag.toList))

/-- Puts a tag that values keep before a tree. -/
def withTag (tag : Option String) (t : Tree) : Tree :=
  match tag with
  | some tag => if Scalar.isLocalTag tag then .tagged (tagName tag) t else t
  | none => t

/-- A step that may follow aliases, while the number of times left lasts. -/
abbrev Follow := StateT Nat Option

/-- Replaces an alias by what it stands for. -/
def follow (target : Nat → Option Node) (n : Node) : Follow (Bool × Node) := fun left =>
  match n with
  | .alias number => match left, target number with
    | left + 1, some n => some ((true, n), left)
    | _, _ => none
  | n => some ((false, n), left)

/-- The tree of a node that is no alias.  `inner` reads the nodes in it; without that it may hold
none. -/
def ofBare? (inner : Option (Node → Follow Tree)) : Node → Follow Tree
  | .scalar tag style text => pure (withTag tag (.scalar (.ofText tag style text)))
  | .sequence tag items => match inner with
    | some read => do return withTag tag (.sequence (← items.mapM read))
    | none => fun _ => none
  | .mapping tag entries => match inner with
    | some read => do
      return withTag tag (.mapping (← entries.mapM fun e => do return (← read e.1, ← read e.2)))
    | none => fun _ => none
  | .alias _ => fun _ => none

/-- The tree of a node that may be an alias. -/
def ofFollowed? (target : Nat → Option Node) (inner : Option (Node → Follow Tree)) (n : Node) :
    Follow Tree := do
  let (aliased, n) ← follow target n
  let t ← ofBare? inner n
  return if aliased then .alias t else t

/-- The tree of a node, in which sequences and mappings nest at most `depth` deep. -/
def ofNode? (target : Nat → Option Node) : Nat → Node → Follow Tree
  | 0 => ofFollowed? target none
  | depth + 1 => ofFollowed? target (some (ofNode? target depth))

/-- The tree of a text. -/
def ofStream? (s : Stream) : Option Tree :=
  match s.root with
  | none => some (.scalar .empty)
  | some n => ((ofNode? s.target maxDepth n).run (100 * s.size)).map (·.1)

/-- The tree of a text, or `none` if it breaks the notation. -/
def parse? (text : String) : Option Tree := (Stream.parse? text).bind ofStream?

/-! ## Trees and values -/

/-- Adds an entry behind others, unless one of them has the same key. -/
def addEntry? (entries : List (Value × Value)) (k v : Value) : Option (List (Value × Value)) :=
  if entries.any fun e => e.1.same k then none else some (entries ++ [(k, v)])

mutual

/-- The tree as a free value. -/
def value? : Tree → Option Value
  | .scalar s => s.value
  | .sequence items => (values? items).map .seq
  | .mapping entries => (entryValues? [] entries).map .map
  | .tagged tag t => (value? t).map (.tagged tag)
  | .alias t => value? t

/-- The items of a sequence as values. -/
def values? : List Tree → Option (List Value)
  | [] => some []
  | t :: ts => match value? t, values? ts with
    | some v, some vs => some (v :: vs)
    | _, _ => none

/-- The entries of a mapping behind those that were read. -/
def entryValues? (acc : List (Value × Value)) :
    List (Tree × Tree) → Option (List (Value × Value))
  | [] => some acc
  | (k, t) :: es => match value? k, value? t with
    | some k, some v => match addEntry? acc k v with
      | some acc => entryValues? acc es
      | none => none
    | _, _ => none

end

mutual

/-- A value as a tree. -/
def ofValue : Value → Tree
  | .seq items => .sequence (ofValues items)
  | .map entries => .mapping (ofEntries entries)
  | .tagged tag v => .tagged tag (ofValue v)
  | .null => .scalar (.ofValue .null)
  | .bool b => .scalar (.ofValue (.bool b))
  | .int n => .scalar (.ofValue (.int n))
  | .float x => .scalar (.ofValue (.float x))
  | .str s => .scalar (.ofValue (.str s))

/-- The items of a sequence as trees. -/
def ofValues : List Value → List Tree
  | [] => []
  | v :: vs => ofValue v :: ofValues vs

/-- The entries of a mapping as trees. -/
def ofEntries : List (Value × Value) → List (Tree × Tree)
  | [] => []
  | (k, v) :: es => (ofValue k, ofValue v) :: ofEntries es

end

end Tree

end Yaml

end DeployPlan
