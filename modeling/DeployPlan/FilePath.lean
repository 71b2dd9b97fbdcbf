import DeployPlan.Text.Blank

/-!
# File paths

A path is a text, kept as it was written; names in it are separated by slashes.

## Main definitions

* `DeployPlan.FilePath.pieces` — the names of a path that say where it leads.
* `FilePath.parent?`, `fileName?`, `extension` — its parts.
* `FilePath.join` — a path taken from a directory.
-/

set_option autoImplicit false

namespace DeployPlan

namespace FilePath

/-- Whether a path starts at the root. -/
def isAbsolute (path : String) : Bool := Text.startsWith "/" path

/-- The names between the slashes of a path.  Empty names do not count, and a single point
counts only at the start of a relative path. -/
def pieces (path : String) : List String :=
  match Text.split '/' path with
  | [] => []
  | name :: names =>
    (if name.isEmpty then [] else [name]) ++ names.filter fun n => !n.isEmpty && n != "."

/-- The name that a path ends with, unless that leads upwards. -/
def fileName? (path : String) : Option String :=
  match (pieces path).getLast? with
  | some name => if name == "." || name == ".." then none else some name
  | none => none

/-- The pieces of a path with the places where they end. -/
def ends (path : List Char) : List (List Char × Nat) :=
  let step : List Char × Nat × List (List Char × Nat) → Char →
      List Char × Nat × List (List Char × Nat) := fun (piece, n, done) c =>
    if c = '/' then ([], n + 1, if piece.isEmpty then done else (piece, n) :: done)
    else (piece ++ [c], n + 1, done)
  let (piece, n, done) := path.foldl step ([], 0, [])
  if piece.isEmpty then done else (piece, n) :: done

/-- A path without its last piece, as it was written; the root and the empty path have none to
leave out. -/
def parent? (path : String) : Option String :=
  let cs := path.toList
  let relative := !isAbsolute path
  let counts (e : List Char × Nat) : Bool := e.1 != ['.'] || (relative && e.2 == 1)
  match (ends cs).filter counts with
  | [] => none
  | [_] => some (if relative then "" else "/")
  | _ :: (_, n) :: _ => some (String.ofList (cs.take n))

/-- What follows the last point of the name that a path ends with; empty if there is no point
but perhaps at the start of the name. -/
def extension (path : String) : String :=
  match fileName? path with
  | none => ""
  | some name =>
    let cs := name.toList.reverse
    let after := cs.takeWhile (· != '.')
    if after.length + 1 < cs.length then String.ofList after.reverse else ""

/-- The path `path` taken from the directory `dir`. -/
def join (dir path : String) : String :=
  if isAbsolute path || dir.isEmpty then path
  else if dir.endsWith "/" then dir ++ path
  else dir ++ "/" ++ path

end FilePath

end DeployPlan
