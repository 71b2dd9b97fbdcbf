import DeployPlan.Yaml.Token

/-!
# The nodes of a YAML text

A text holds one tree of nodes.  A node may carry an anchor, and an alias elsewhere stands for
it.

## Main definitions

* `DeployPlan.Yaml.Node` — scalars, sequences, mappings and aliases, with their tags.
* `DeployPlan.Yaml.Stream` — the tree of a text with the nodes that aliases stand for.
* `Stream.parse?` — the stream of a text, or `none` if it breaks the notation or holds several
  trees.

## Implementation notes

Anchors are numbered.  An anchor gets as its number how many names were in use before it, and a
name that is used again moves to the new number; of two anchors with one number the later counts
for all aliases.
-/

set_option autoImplicit false

namespace DeployPlan

namespace Yaml

/-- A node as it is written. -/
inductive Node where
  | scalar (tag : Option String) (style : Style) (text : String)
  | sequence (tag : Option String) (items : List Node)
  | mapping (tag : Option String) (entries : List (Node × Node))
  | alias (anchor : Nat)
  deriving Inhabited

/-- The deepest nesting of sequences and mappings. -/
def maxDepth : Nat := 128

/-- The tree of a text. -/
structure Stream where
  /-- The root; a text without content has none. -/
  root : Option Node
  /-- The node that an alias stands for. -/
  target : Nat → Option Node
  /-- The number of scalars and aliases, and twice the number of sequences and mappings. -/
  size : Nat

/-- Tokens while they are put together. -/
structure Assembly where
  /-- The tokens left. -/
  tokens : List Token
  /-- Short forms of tags. -/
  handles : List (String × String) := [("!", "!"), ("!!", "tag:yaml.org,2002:")]
  /-- The number of each anchor name. -/
  anchors : List (String × Nat) := []
  /-- How many anchors were started. -/
  started : Nat := 0
  /-- The number and start of each anchored node, and the node. -/
  anchored : List (Nat × Nat × Node) := []
  /-- The size so far. -/
  size : Nat := 0

/-- A step of the assembly. -/
abbrev Assemble := StateT Assembly Option

namespace Assembly

/-- The next token. -/
def peek : Assemble (Option Token) := fun s => some (s.tokens.head?, s)

/-- Moves past a token. -/
def skip : Assemble Unit := fun s => some ((), { s with tokens := s.tokens.drop 1 })

/-- Adds to the size. -/
def grow (n : Nat) : Assemble Unit := fun s => some ((), { s with size := s.size + n })

/-- Gives up. -/
def refuse {α : Type} : Assemble α := fun _ => none

/-- Starts an anchored node: gives its number and which start it is. -/
def start (name : String) : Assemble (Nat × Nat) := fun s =>
  let number := s.anchors.length
  let others := s.anchors.filter fun e => e.1 != name
  some ((number, s.started),
    { s with anchors := (name, number) :: others, started := s.started + 1 })

/-- Keeps an anchored node. -/
def keep (number started : Nat) (n : Node) : Assemble Unit := fun s =>
  some ((), { s with anchored := (number, started, n) :: s.anchored })

/-- The number of the anchor that a name refers to. -/
def anchorOf (name : String) : Assemble Nat := fun s =>
  match s.anchors.find? fun e => e.1 == name with
  | some (_, number) => some (number, s)
  | none => none

/-- The tag that a handle and a suffix stand for. -/
def expandTag (handle suffix : String) : Assemble String := fun s =>
  if handle.isEmpty then some (suffix, s)
  else match s.handles.find? fun e => e.1 == handle with
    | some (_, start) => some (start ++ suffix, s)
    | none => none

/-- Reads an anchor and a tag, in either order. -/
def properties : Assemble (Option String × Option String) := do
  match ← peek with
  | some (.anchor a) =>
    skip
    match ← peek with
    | some (.tag h t) => skip; return (some a, some (← expandTag h t))
    | _ => return (some a, none)
  | some (.tag h t) =>
    skip
    match ← peek with
    | some (.anchor a) => skip; return (some a, some (← expandTag h t))
    | _ => return (none, some (← expandTag h t))
  | _ => return (none, none)

/-- A scalar without text where nothing is written. -/
def absent (tag : Option String) : Assemble Node := do
  grow 1
  return .scalar tag .plain ""

/-- Whether a token ends an entry of an indented block without content. -/
def endsBlockEntry : Option Token → Bool
  | some .key | some .value | some .blockEnd => true
  | _ => false

mutual

/-- Assembles a node.  `block` admits the block notation and `indentless` a sequence that is not
indented. -/
def node (fuel depth : Nat) (block indentless : Bool) : Assemble Node :=
  match fuel with
  | 0 => refuse
  | fuel + 1 => do
    match ← peek with
    | some (.alias name) =>
      skip
      grow 1
      return .alias (← anchorOf name)
    | _ =>
      let (anchor, tag) ← properties
      match anchor with
      | some name =>
        let (number, started) ← start name
        let n ← content fuel depth block indentless true tag
        keep number started n
        return n
      | none => content fuel depth block indentless false tag

/-- Assembles a node behind its anchor and tag. -/
def content (fuel depth : Nat) (block indentless anchored : Bool) (tag : Option String) :
    Assemble Node :=
  match fuel with
  | 0 => refuse
  | fuel + 1 => do
    let collection (size : Nat) (n : Assemble Node) : Assemble Node := do
      if depth == 0 then refuse
      grow size
      n
    match ← peek with
    | some .blockEntry =>
      if indentless then
        collection 2 (do return .sequence tag (← indentlessItems fuel (depth - 1) []))
      else if anchored || tag.isSome then absent tag
      else refuse
    | some (.scalar style text) =>
      skip
      grow 1
      return .scalar (if tag == some "!" then none else tag) style text
    | some .flowSequenceStart =>
      skip
      collection 2 (do return .sequence tag (← flowItems fuel (depth - 1) true []))
    | some .flowMappingStart =>
      skip
      collection 2 (do return .mapping tag (← flowEntries fuel (depth - 1) true []))
    | some .blockSequenceStart =>
      if block then
        skip
        collection 2 (do return .sequence tag (← blockItems fuel (depth - 1) []))
      else if anchored || tag.isSome then absent tag
      else refuse
    | some .blockMappingStart =>
      if block then
        skip
        collection 2 (do return .mapping tag (← blockEntries fuel (depth - 1) []))
      else if anchored || tag.isSome then absent tag
      else refuse
    | _ => if anchored || tag.isSome then absent tag else refuse

/-- Assembles the items of an indented sequence; `acc` holds those before, last first. -/
def blockItems (fuel depth : Nat) (acc : List Node) : Assemble (List Node) :=
  match fuel with
  | 0 => refuse
  | fuel + 1 => do
    match ← peek with
    | some .blockEntry =>
      skip
      match ← peek with
      | some .blockEntry | some .blockEnd =>
        blockItems fuel depth ((← absent none) :: acc)
      | _ => blockItems fuel depth ((← node fuel depth true false) :: acc)
    | some .blockEnd => skip; return acc.reverse
    | _ => refuse

/-- Assembles the items of a sequence that is not indented. -/
def indentlessItems (fuel depth : Nat) (acc : List Node) : Assemble (List Node) :=
  match fuel with
  | 0 => refuse
  | fuel + 1 => do
    match ← peek with
    | some .blockEntry =>
      skip
      match ← peek with
      | some .blockEntry | some .key | some .value | some .blockEnd =>
        indentlessItems fuel depth ((← absent none) :: acc)
      | _ => indentlessItems fuel depth ((← node fuel depth true false) :: acc)
    | _ => return acc.reverse

/-- Assembles the entries of an indented mapping. -/
def blockEntries (fuel depth : Nat) (acc : List (Node × Node)) : Assemble (List (Node × Node)) :=
  match fuel with
  | 0 => refuse
  | fuel + 1 => do
    match ← peek with
    | some .key =>
      skip
      let k ← if endsBlockEntry (← peek) then absent none else node fuel depth true true
      let v ← blockValue fuel depth
      blockEntries fuel depth ((k, v) :: acc)
    | some .blockEnd => skip; return acc.reverse
    | _ => refuse

/-- Assembles the value of an entry of an indented mapping. -/
def blockValue (fuel depth : Nat) : Assemble Node :=
  match fuel with
  | 0 => refuse
  | fuel + 1 => do
    match ← peek with
    | some .value =>
      skip
      if endsBlockEntry (← peek) then absent none else node fuel depth true true
    | _ => absent none

/-- Assembles the items of a sequence between brackets. -/
def flowItems (fuel depth : Nat) (first : Bool) (acc : List Node) : Assemble (List Node) :=
  match fuel with
  | 0 => refuse
  | fuel + 1 => do
    match ← peek with
    | some .flowSequenceEnd => skip; return acc.reverse
    | t =>
      if !first then
        match t with
        | some .flowEntry => skip
        | _ => refuse
      match ← peek with
      | some .flowSequenceEnd => skip; return acc.reverse
      | some .key =>
        skip
        if depth == 0 then refuse
        grow 2
        let n ← flowPair fuel (depth - 1)
        flowItems fuel depth false (n :: acc)
      | _ => flowItems fuel depth false ((← node fuel depth false false) :: acc)

/-- Assembles a key and a value that stand in a sequence between brackets. -/
def flowPair (fuel depth : Nat) : Assemble Node :=
  match fuel with
  | 0 => refuse
  | fuel + 1 => do
    let k ← match ← peek with
      | some .value | some .flowEntry | some .flowSequenceEnd => do skip; absent none
      | _ => node fuel depth false false
    let v ← match ← peek with
      | some .value => do
        skip
        match ← peek with
        | some .flowEntry | some .flowSequenceEnd => absent none
        | _ => node fuel depth false false
      | _ => absent none
    return .mapping none [(k, v)]

/-- Assembles the entries of a mapping between braces. -/
def flowEntries (fuel depth : Nat) (first : Bool) (acc : List (Node × Node)) :
    Assemble (List (Node × Node)) :=
  match fuel with
  | 0 => refuse
  | fuel + 1 => do
    match ← peek with
    | some .flowMappingEnd => skip; return acc.reverse
    | t =>
      if !first then
        match t with
        | some .flowEntry => skip
        | _ => refuse
      match ← peek with
      | some .flowMappingEnd => skip; return acc.reverse
      | some .key =>
        skip
        let k ← match ← peek with
          | some .value | some .flowEntry | some .flowMappingEnd => absent none
          | _ => node fuel depth false false
        let v ← flowValue fuel depth
        flowEntries fuel depth false ((k, v) :: acc)
      | _ =>
        let k ← node fuel depth false false
        let v ← absent none
        flowEntries fuel depth false ((k, v) :: acc)

/-- Assembles the value of an entry between braces. -/
def flowValue (fuel depth : Nat) : Assemble Node :=
  match fuel with
  | 0 => refuse
  | fuel + 1 => do
    match ← peek with
    | some .value =>
      skip
      match ← peek with
      | some .flowEntry | some .flowMappingEnd => absent none
      | _ => node fuel depth false false
    | _ => absent none

end

/-- Reads the directives before a tree: at most one version, which must be known, and short
forms of tags, each once. -/
def directives (version : Bool) (own : List String) : List Token → Assembly → Option Assembly
  | .directive (.version major minor) :: ts, s =>
    if version || major != 1 || (minor != 1 && minor != 2) then none
    else directives true own ts s
  | .directive (.tag handle start) :: ts, s =>
    if own.contains handle then none
    else directives version (handle :: own) ts
      { s with handles := (handle, start) :: s.handles }
  | ts, s => some { s with tokens := ts }

/-- Assembles the one tree of a text. -/
def tree (fuel : Nat) : Assemble Node := do
  let explicit ← fun s => match s.tokens with
    | .directive _ :: _ | .documentStart :: _ => match directives false [] s.tokens s with
      | some s => match s.tokens with
        | .documentStart :: ts => some (true, { s with tokens := ts })
        | _ => none
      | none => none
    | _ => some (false, s)
  let root ← match ← peek with
    | none => absent none
    | some (.directive _) | some .documentStart | some .documentEnd =>
      if explicit then absent none else refuse
    | some _ => node fuel maxDepth true false
  let rest ← fun s => some (s.tokens.dropWhile fun t => t matches .documentEnd, s)
  if rest.isEmpty then return root else refuse

end Assembly

namespace Stream

/-- The stream of tokens. -/
def ofTokens? (ts : List Token) : Option Stream :=
  if ts.isEmpty then some ⟨none, fun _ => none, 1⟩
  else
    match (Assembly.tree (4 * ts.length + 8)).run { tokens := ts } with
    | none => none
    | some (root, s) =>
      let latest (number : Nat) :=
        (s.anchored.filter fun e => e.1 == number).foldl (fun best e => match best with
          | some (started, n) => if started < e.2.1 then some e.2 else some (started, n)
          | none => some e.2) none
      some ⟨some root, fun number => (latest number).map (·.2), s.size⟩

/-- The stream of a text, or `none` if it breaks the notation. -/
def parse? (text : String) : Option Stream := (tokens? text).bind ofTokens?

end Stream

end Yaml

end DeployPlan
