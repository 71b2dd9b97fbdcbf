import DeployPlan.Bytes.Zip
import DeployPlan.Compose.Report

/-!
# Archives of directories

A directory is shipped as an archive, which is written to a scratch file beside it and taken
away when the action is done with it.  The name of the scratch file is drawn at random.

## Main definitions

* `DeployPlan.Packer` — what packing a directory depends on besides the file tree.
* `DeployPlan.ScratchFile` — where the archive is written.
* `DeployPlan.Archive.located` — what is in a directory, at any depth.
* `Archive.longPath?` — a path in a directory that is too long to be used.
* `Archive.entriesAt` — the entries of the archive of a directory.
* `Archive.pack` — writes the archive of a directory.
* `ScratchFile.within` — goes on while the archive is there, and takes it away.
-/

set_option autoImplicit false

namespace DeployPlan

/-! ## Packers -/

/-- What is drawn for the name of a scratch file: six letters and digits. -/
structure Draw where
  text : String
  length_eq : text.length = 6
  isAlphanum : text.toList.all Char.isAlphanum = true

/-- The draw of a text, if it is one. -/
def Draw.ofText? (text : String) : Option Draw :=
  if h : text.length = 6 ∧ text.toList.all Char.isAlphanum = true then some ⟨text, h.1, h.2⟩
  else none

/-- What packing a directory depends on besides the file tree.  It may be another one each time. -/
class Packer where
  /-- What is drawn for the name of the scratch file, one after another while names are taken. -/
  draws : List Draw
  /-- What a copy of the scratch file finds in it while the archive is written, or why copying it
  into itself ends. -/
  copied : Except FileFault (List UInt8)
  /-- What writes the archive. -/
  zip : Zip.Library

namespace Packer

variable [P : Packer]

/-- What is in the scratch file while the archive is written, as far as that can be told. -/
def found : List UInt8 :=
  match P.copied with
  | .ok content => content
  | .error _ => []

/-- Why the scratch file cannot be copied, if it cannot. -/
def copyFault? : Option FileFault :=
  match P.copied with
  | .ok _ => none
  | .error fault => some fault

end Packer

/-! ## Scratch files -/

/-- Where an archive is written. -/
structure ScratchFile where
  /-- The names that lead to its directory. -/
  directory : List String
  /-- Its name there. -/
  name : String
  /-- The path that messages call it by. -/
  path : String
  deriving Inhabited

namespace ScratchFile

/-- The name that is made of a draw. -/
def drawnName (stem : String) (d : Draw) : String := stem ++ "." ++ d.text ++ ".zip"

/-- The first name that is made of a draw and is none of some names. -/
def newName? (stem : String) (taken : List String) (draws : List Draw) : Option String :=
  (draws.map (drawnName stem)).find? fun name => !taken.contains name

/-- The path of the directory beside which an archive is written. -/
def parentPath (dir : String) : String :=
  ((FilePath.parent? dir).filter fun p => !p.isEmpty).getD "."

/-- The start of the name of the archive of a directory. -/
def stem (dir : String) : String := (FilePath.fileName? dir).getD "action"

/-- Why no file can have a name and a path, if none can. -/
def fault? (name path : String) : Option FileFault :=
  if Text.has (Char.ofNat 0) path then some .nulInName
  else if FileTree.maxName < name.utf8ByteSize || FileTree.maxPath < path.utf8ByteSize then
    some .nameTooLong
  else none

/-- The place for the archive of a directory. -/
def choose [P : Packer] (t : FileTree) (dir : String) : Except Failure ScratchFile :=
  let parent := parentPath dir
  match t.resolve parent with
  | .ok (names, .directory _ children) =>
    match newName? (stem dir) (children.map (·.1)) P.draws with
    | none => .error (.unreadableSource parent .namesTaken)
    | some name =>
      let path := FilePath.join parent name
      match fault? name path with
      | some fault => .error (.unreadableSource parent fault)
      | none => .ok ⟨names, name, path⟩
  | .ok _ => .error (.unreadableSource parent .notDirectory)
  | .error fault => .error (.unreadableSource parent fault)

/-- The tree with the scratch file in it. -/
def addTo (s : ScratchFile) (t : FileTree) (content : List UInt8) : FileTree :=
  t.add s.directory s.name (.file 0o600 ⟨content.toArray⟩)

/-- The tree without the scratch file. -/
def removeFrom (s : ScratchFile) (t : FileTree) : FileTree := t.remove s.directory s.name

/-- Goes on with the scratch file in the tree, and takes it away, whatever the result. -/
def within {α : Type} (s : ScratchFile) (content : List UInt8) (body : Compose α) : Compose α :=
  fun t =>
    let done := body (s.addTo t content)
    ⟨s.removeFrom done.tree,
      ⟨.archiveAdded s.path :: done.report.events ++ [.archiveRemoved s.path],
        done.report.result⟩⟩

end ScratchFile

namespace Archive

/-! ## What is in a directory -/

mutual

/-- What is below an entry with a name, itself included. -/
def locatedOf (name : String) : FileEntry → List (List String × FileEntry)
  | .file mode content => [([name], .file mode content)]
  | .link target => [([name], .link target)]
  | .special => [([name], .special)]
  | .directory mode children =>
    ([name], .directory mode children) :: (located children).map fun found =>
      (name :: found.1, found.2)

/-- What is in a directory, at any depth, each with the names that lead there. -/
def located : List (String × FileEntry) → List (List String × FileEntry)
  | [] => []
  | (name, e) :: es => locatedOf name e ++ located es

end

/-- The path of what names lead to from the directory at a path. -/
def pathOf (dir : String) (names : List String) : String := names.foldl FilePath.join dir

/-- A path in the directory at a path that is too long to be used, if there is one. -/
def longPath? (dir : String) (children : List (String × FileEntry)) : Option String :=
  ((located children).map fun found => pathOf dir found.1).find? fun path =>
    FileTree.maxPath < path.utf8ByteSize

/-! ## Entries -/

/-- A name as it is written in an archive: backslashes become slashes. -/
def slashed (name : String) : String :=
  String.ofList (name.toList.map fun c => if c = '\\' then '/' else c)

/-- Names that lead somewhere, as they are written in an archive. -/
def pathName : List String → String
  | [] => ""
  | [name] => slashed name
  | name :: names => slashed name ++ "/" ++ pathName names

/-- What names have behind them in an archive: a slash for directories. -/
def mark : FileEntry → String
  | .directory _ _ => "/"
  | .file _ _ | .link _ | .special => ""

/-- The name in an archive of what names lead to. -/
def memberName (path : List String) (e : FileEntry) : String := pathName path ++ mark e

/-- What is in a directory, in the order of the names in an archive. -/
def sortedMembers (children : List (String × FileEntry)) : List (List String × FileEntry) :=
  (located children).mergeSort fun a b => memberName a.1 a.2 ≤ memberName b.1 b.2

/-- How an entry is written: deflated, with the first moment and the permissions of its source. -/
def options (mode : Nat) : Zip.Options := ⟨.deflated, .first, mode⟩

/-- The entry of an archive for what names lead to; links and special files have none. -/
def entryOf? (member : List String × FileEntry) : Option Zip.Entry :=
  let name := memberName member.1 member.2
  match member.2 with
  | .file mode content => some (.file name (options mode) content.data.toList)
  | .directory mode _ => some (.directory name (options mode))
  | .link _ | .special => none

/-- The warning about what is left out of an archive. -/
def skipped (member : List String × FileEntry) : Event :=
  .warning ("skipping unsupported file type in action directory: " ++
    memberName member.1 member.2)

/-! ## Packing -/

variable [P : Packer]

/-- Why the content of an entry cannot be written behind other entries, if it cannot; `own` tells
whether it is that of the scratch file. -/
def copyFault? (own : Bool) (es : List Zip.Entry) (entry : Zip.Entry) : Option FileFault :=
  match own, P.copyFault? with
  | true, some fault => some fault
  | _, _ => if P.zip.refusal? es entry = some .tooLarge then some .tooLarge else none

/-- Adds what names lead to from a directory to the entries of an archive.  The names `here` lead
to the directory, which is at the path `dir`. -/
def addMember (s : ScratchFile) (dir : String) (here : List String) (es : List Zip.Entry)
    (member : List String × FileEntry) : Report (List Zip.Entry) :=
  match entryOf? member with
  | none => ⟨[skipped member], .ok es⟩
  | some entry =>
    if P.zip.refusal? es entry = some .repeatedName then .fail (.duplicateName s.path)
    else match copyFault? (here ++ member.1 = s.directory ++ [s.name]) es entry with
      | some fault => .fail (.unreadableSource (pathOf dir member.1) fault)
      | none => pure (es ++ [entry])

/-- The entries of the archive of the directory at a path, with messages.  The scratch file is
there already. -/
def entriesAt (t : FileTree) (dir : String) (s : ScratchFile) : Report (List Zip.Entry) :=
  match t.resolve dir with
  | .ok (here, .directory _ children) => match longPath? dir children with
    | some path => .fail (.unreadableSource path .nameTooLong)
    | none => do
      let es ← (sortedMembers children).foldlM (addMember s dir here) []
      Report.log .debug ("packed " ++ toString (located children).length ++ " entries from " ++
        dir ++ " into " ++ s.path)
      return es
  | .ok _ => .fail (.unreadableSource dir .notDirectory)
  | .error fault => .fail (.unreadableSource dir fault)

/-- Writes the archive of the directory at a path to a scratch file, and goes on with the path
of the scratch file while it is there. -/
def pack {α : Type} (dir : String) (body : String → Compose α) : Compose α := fun t =>
  match ScratchFile.choose t dir with
  | .error failure => ⟨t, .fail failure⟩
  | .ok s =>
    let packed := entriesAt (s.addTo t Packer.found) dir s
    match packed.result with
    | .error failure =>
      s.within Packer.found (Compose.ofReport ⟨packed.events, .error failure⟩) t
    | .ok es => s.within (P.zip.write es)
        (Compose.ofReport ⟨packed.events, .ok ()⟩ >>= fun _ => body s.path) t

end Archive

end DeployPlan
