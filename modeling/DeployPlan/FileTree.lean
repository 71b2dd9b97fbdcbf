import DeployPlan.FilePath

/-!
# File trees

Manifests, settings and action sources are read from a tree of directories, files and links, and
perhaps of special files, which cannot be read.
The only change ever made to it is the archive that a directory is packed into, which is taken
out again.

## Main definitions

* `DeployPlan.FileTree` — a root directory and the directory that relative paths start from.
* `DeployPlan.FileFault` — why a path cannot be used.
* `FileTree.resolve` — where a path leads, following links.
* `FileTree.read`, `readText`, `isDirectory`, `isFile` — what is there.
* `FileTree.add`, `FileTree.remove` — a new file in a directory, and the tree without it.
-/

set_option autoImplicit false

namespace DeployPlan

/-- Something in a directory. -/
inductive FileEntry where
  | file (mode : Nat) (content : ByteArray)
  | directory (mode : Nat) (children : List (String × FileEntry))
  | link (target : String)
  /-- Something else, such as a socket.  It cannot be read. -/
  | special
  deriving Inhabited

/-- Why a path cannot be used. -/
inductive FileFault where
  | notFound
  | isDirectory
  | notDirectory
  | tooManyLinks
  | nameTooLong
  | nulInName
  | notText
  | noDevice
  /-- Every name that was drawn for a new file is taken. -/
  | namesTaken
  /-- A copy does not fit on the device. -/
  | noSpace
  /-- A file is too large for an archive. -/
  | tooLarge
  deriving DecidableEq, Inhabited

namespace FileFault

/-- The text of a fault. -/
def message : FileFault → String
  | .notFound => "No such file or directory (os error 2)"
  | .isDirectory => "Is a directory (os error 21)"
  | .notDirectory => "Not a directory (os error 20)"
  | .tooManyLinks => "Too many levels of symbolic links (os error 40)"
  | .nameTooLong => "File name too long (os error 36)"
  | .nulInName => "file name contained an unexpected NUL byte"
  | .notText => "stream did not contain valid UTF-8"
  | .noDevice => "No such device or address (os error 6)"
  | .namesTaken => "too many temporary files exist"
  | .noSpace => "No space left on device (os error 28)"
  | .tooLarge => "Large file option has not been set"

end FileFault

namespace FileEntry

/-! ## Directories -/

/-- The entry with a given name. -/
def child? (name : String) : List (String × FileEntry) → Option FileEntry
  | [] => none
  | (n, e) :: es => if n = name then some e else child? name es

/-- The entry that a list of names leads to, through directories only. -/
def get? : List String → FileEntry → Option FileEntry
  | [], e => some e
  | name :: names, .directory _ children => (child? name children).bind (get? names)
  | _ :: _, _ => none

/-- Changes the entry with a given name. -/
def updateChild (name : String) (f : FileEntry → FileEntry) :
    List (String × FileEntry) → List (String × FileEntry)
  | [] => []
  | (n, e) :: es => if n = name then (n, f e) :: es else (n, e) :: updateChild name f es

/-- Changes the entry that a list of names leads to. -/
def update : List String → (FileEntry → FileEntry) → FileEntry → FileEntry
  | [], f, e => f e
  | name :: names, f, .directory mode children =>
    .directory mode (updateChild name (update names f) children)
  | _ :: _, _, e => e

/-- A directory with one more entry. -/
def addChild (name : String) (child : FileEntry) : FileEntry → FileEntry
  | .directory mode children => .directory mode (children ++ [(name, child)])
  | e => e

/-- A directory without the entries of a given name. -/
def removeChild (name : String) : FileEntry → FileEntry
  | .directory mode children => .directory mode (children.filter fun c => c.1 != name)
  | e => e

/-- Puts an entry at the end of a list of names, making the directories before it. -/
def place (entry : FileEntry) : List String → FileEntry → FileEntry
  | [], _ => entry
  | name :: names, .directory mode children =>
    match child? name children with
    | some _ => .directory mode (updateChild name (place entry names) children)
    | none =>
      .directory mode (children ++ [(name, place entry names (.directory 0o755 []))])
  | _ :: _, e => e

end FileEntry

/-- A tree of files, and the directory that relative paths start from. -/
structure FileTree where
  /-- The root directory. -/
  root : FileEntry
  /-- The names that lead to the working directory. -/
  workingDirectory : List String := []
  deriving Inhabited

namespace FileTree

/-! ## Paths -/

/-- The longest name and the longest path, in bytes. -/
def maxName : Nat := 255

/-- The longest path, in bytes. -/
def maxPath : Nat := 4095

/-- How many links are followed on the way along one path. -/
def maxLinks : Nat := 40

/-- The names to walk along for a path.  A slash at the end asks for a directory, like a single
point. -/
def steps (path : String) : List String :=
  let names := (Text.split '/' path).filter fun n => !n.isEmpty
  if path.endsWith "/" then names ++ ["."] else names

/-- Where the names `todo` lead from the directory `here`: the names from the root, no links
among them, and the entry.  `links` is how many links may still be followed. -/
def walk (root : FileEntry) (links : Nat) (here todo : List String) :
    Except FileFault (List String × FileEntry) :=
  match todo with
  | [] => match root.get? here with
    | some e => .ok (here, e)
    | none => .error .notFound
  | name :: rest =>
    if name = "." then walk root links here rest
    else if name = ".." then walk root links here.dropLast rest
    else if maxName < name.utf8ByteSize then .error .nameTooLong
    else match root.get? (here ++ [name]) with
      | none => .error .notFound
      | some (.directory _ _) => walk root links (here ++ [name]) rest
      | some (.file mode content) =>
        if rest.isEmpty then .ok (here ++ [name], .file mode content) else .error .notDirectory
      | some (.link target) =>
        match links with
        | 0 => .error .tooManyLinks
        | links + 1 =>
          let start := if FilePath.isAbsolute target then [] else here
          walk root links start (steps target ++ rest)
      | some .special =>
        if rest.isEmpty then .ok (here ++ [name], .special) else .error .notDirectory
termination_by (links, todo.length)

/-- Where a path leads: the names from the root, no links among them, and the entry. -/
def resolve (t : FileTree) (path : String) :
    Except FileFault (List String × FileEntry) :=
  if path.isEmpty then .error .notFound
  else if Text.has (Char.ofNat 0) path then .error .nulInName
  else if maxPath < path.utf8ByteSize then .error .nameTooLong
  else
    let start := if FilePath.isAbsolute path then [] else t.workingDirectory
    walk t.root maxLinks start (steps path)

/-! ## Reading -/

/-- Whether a path leads to a directory. -/
def isDirectory (t : FileTree) (path : String) : Bool :=
  match t.resolve path with
  | .ok (_, .directory _ _) => true
  | _ => false

/-- Whether a path leads to a file. -/
def isFile (t : FileTree) (path : String) : Bool :=
  match t.resolve path with
  | .ok (_, .file _ _) => true
  | _ => false

/-- The bytes of a file. -/
def read (t : FileTree) (path : String) : Except FileFault ByteArray :=
  match t.resolve path with
  | .ok (_, .file _ content) => .ok content
  | .ok (_, .directory _ _) => .error .isDirectory
  | .ok (_, .link _) => .error .tooManyLinks
  | .ok (_, .special) => .error .noDevice
  | .error e => .error e

/-- The text of a file. -/
def readText (t : FileTree) (path : String) : Except FileFault String :=
  match t.read path with
  | .ok content => match String.fromUTF8? content with
    | some text => .ok text
    | none => .error .notText
  | .error e => .error e

/-! ## Changes -/

/-- The tree with a file added to the directory that a list of names leads to. -/
def add (t : FileTree) (dir : List String) (name : String) (entry : FileEntry) : FileTree :=
  { t with root := t.root.update dir (.addChild name entry) }

/-- The tree without the entries of a given name in the directory that a list of names leads
to. -/
def remove (t : FileTree) (dir : List String) (name : String) : FileTree :=
  { t with root := t.root.update dir (.removeChild name) }

end FileTree

end DeployPlan
