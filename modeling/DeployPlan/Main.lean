import DeployPlan.CommandLine.Run

/-!
# The program

Reads the files that a command can need into a tree, runs the command on the tree, and prints what
the command prints.

## Main definitions

* `main` — the program.

## Implementation notes

The permission bits of files are not read: files count as readable by all, and directories as open
to all.  Scratch files are not really written, so that nothing is found in them.
-/

set_option autoImplicit false

namespace DeployPlan

namespace Program

/-- What an entry of a directory is, with everything below it.  Links lead to the end of the way
along them. -/
partial def readEntry (e : IO.FS.DirEntry) : IO FileEntry := do
  match (← e.path.symlinkMetadata).type with
  | .dir =>
    let children ← e.path.readDir
    return .directory 0o755 (← children.toList.mapM fun c => do
      return (c.fileName, ← readEntry c))
  | .symlink => return .link (← try pure (← IO.FS.realPath e.path).toString catch _ => pure "")
  | .file => return .file 0o644 (← IO.FS.readBinFile e.path)
  | .other => return .special

/-- Puts the directory of a path into a tree, unless the tree has the path already. -/
def addDirectory (t : FileTree) (path : String) : IO FileTree := do
  if t.isFile path then return t
  try
    let some dir := (← IO.FS.realPath path).parent | return t
    let names := (Text.split '/' dir.toString).filter fun n => !n.isEmpty
    return { t with root := FileEntry.place (← readEntry ⟨dir, "."⟩) names t.root }
  catch _ => return t

/-- The paths that a request names. -/
def paths (home : Option String) : Request → List String
  | .perform i =>
    let config := i.config.toList ++ (home.map Settings.defaultPath).toList
    match i.command with
    | .compose o | .validate o => [o.manifest] ++ o.deployment.toList ++ config
    | _ => []
  | _ => []

/-- The variables of the environment. -/
def environment : IO (KeyMap String) := do
  let bytes ← IO.FS.readBinFile "/proc/self/environ"
  let text := (String.fromUTF8? bytes).getD ""
  return KeyMap.ofList ((Text.split (Char.ofNat 0) text).filterMap Switch.binding?)

/-- The letters and digits that names of scratch files are drawn from. -/
def alphanumerics : List Char :=
  "ABCDEFGHIJKLMNOPQRSTUVWXYZabcdefghijklmnopqrstuvwxyz0123456789".toList

/-- Six letters and digits at random. -/
def draw : IO String := do
  let chars ← (List.range 6).mapM fun _ => do
    return alphanumerics.getD (← IO.rand 0 (alphanumerics.length - 1)) '0'
  return String.ofList chars

/-- The host of a run, with names of scratch files that are drawn at random. -/
def host : IO Host := do
  let draws ← (List.range 100).mapM fun _ => draw
  return ⟨fun _ _ => ⟨draws.filterMap Draw.ofText?, .ok [], .plain⟩, fun _ => true⟩

/-- Where a request runs. -/
def surroundings (r : Request) : IO Surroundings := do
  let env ← environment
  let here ← IO.currentDir
  let names := (Text.split '/' here.toString).filter fun n => !n.isEmpty
  let root := FileEntry.place (← readEntry ⟨here, "."⟩) names (.directory 0o755 [])
  let tree ← (paths (env.get? "HOME") r).foldlM addDirectory ⟨root, names⟩
  return ⟨tree, env.get?⟩

end Program

end DeployPlan

open DeployPlan in
/-- Runs a command. -/
def main (args : List String) : IO UInt32 := do
  let request := Request.ofArguments args
  let surroundings ← Program.surroundings request
  let host ← Program.host
  let answer := request.run (H := host) surroundings
  for line in answer.events.filterMap (Event.line? request.level) do
    IO.eprintln line
  for line in answer.output do
    IO.println line
  if let some message := answer.message? then
    IO.eprintln ("error: " ++ message)
  return UInt32.ofNat answer.exitCode
