import DeployPlan.CommandLine.Arguments
import DeployPlan.Compose.Build
import DeployPlan.Json.Printer
import DeployPlan.Plan.Encode
import DeployPlan.Settings.Reader

/-!
# Running commands

## Main definitions

* `DeployPlan.Plan.overview` — a plan as lines of text.
* `DeployPlan.Plan.json` — a plan as JSON, unless a path in it is no text.
* `DeployPlan.Answer` — what a command prints and how it ends.
* `DeployPlan.exitCodeOf` — the exit code for the message of a failure.
* `DeployPlan.Request.run` — runs a command on a file tree.
* `DeployPlan.Host.numbered` — a host on which runs can be repeated.
-/

set_option autoImplicit false

namespace DeployPlan

/-! ## Texts -/

/-- The word for a kind of entity, in a column of its own. -/
def label (kind : String) : String := Text.padRight 10 kind

/-- A package, its actions and its sequences, a line each. -/
def PackagePlan.overview (name : String) (p : PackagePlan) : List String :=
  let action (e : String × ActionRecord) : String :=
    "  " ++ label "action" ++ " " ++ name ++ "/" ++ e.1 ++ " [" ++
      ((e.2.action.exec.map (·.kind)).getD "none") ++ "]"
  let sequence (e : String × ActionRecord) : String :=
    "  " ++ label "sequence" ++ " " ++ name ++ "/" ++ e.1 ++ ": " ++
      Text.join " -> " ((e.2.action.exec.map (·.components)).getD [])
  [label "package" ++ " " ++ name ++ " (" ++ p.package.namespace ++ ")"] ++
    p.actions.entries.map action ++ p.sequences.entries.map sequence

/-- A trigger, with its feed if it has one. -/
def Trigger.overview (name : String) (t : Trigger) : String :=
  label "trigger" ++ " " ++ name ++
    match KeyValues.find? Context.feedKey t.annotations with
    | some feed => " (feed " ++ feed.value.compact ++ ")"
    | none => ""

/-- A rule. -/
def Rule.overview (name : String) (r : Rule) : String :=
  label "rule" ++ " " ++ name ++ ": " ++ r.trigger ++ " -> " ++ r.action

/-- A route. -/
def Route.overview (r : Route) : String :=
  label "api" ++ " " ++ r.method ++ " " ++ r.basePath ++ r.relativePath ++ " -> " ++ r.action

/-- A dependency. -/
def DependencyRecord.overview (key : String) (d : DependencyRecord) : String :=
  label "dependency" ++ " " ++ key ++ " (" ++ d.kind.word ++ ") " ++ d.location ++ "@" ++
    d.version

namespace Plan

/-- A plan, one entity a line. -/
def overview (p : Plan) : List String :=
  p.packages.entries.flatMap (fun (name, q) => q.overview name) ++
    p.triggers.entries.map (fun (name, t) => t.overview name) ++
    p.rules.entries.map (fun (name, r) => r.overview name) ++
    p.routes.map Route.overview ++
    p.dependencies.entries.map fun (key, d) => d.overview key

/-- The numbers of entities, with the words for one kind in JSON and in a text. -/
def counts (p : Plan) : List (String × String × Nat) :=
  [("packages", "package(s)", p.packages.size), ("actions", "action(s)", p.actionCount),
    ("sequences", "sequence(s)", p.sequenceCount), ("triggers", "trigger(s)", p.triggers.size),
    ("rules", "rule(s)", p.rules.size), ("apis", "api(s)", p.routes.length),
    ("dependencies", "dependency(ies)", p.dependencies.size)]

/-- The numbers of entities as members of an object. -/
def countMembers (p : Plan) : List (String × Json) :=
  p.counts.map fun (name, _, n) => (name, .int n)

/-- What is told about the plan of a valid manifest. -/
def validity (p : Plan) (manifest : String) : String :=
  "✓ " ++ manifest ++ " is valid: " ++
    Text.join ", " (p.counts.map fun (_, word, n) => toString n ++ " " ++ word)

/-- The same as JSON. -/
def validityJson (p : Plan) (manifest : String) : Json :=
  .object ([("valid", .bool true), ("manifest", .str manifest)] ++ p.countMembers)

/-- The paths in a plan: those of sources, and of the directories of dependencies. -/
def paths (p : Plan) : List String :=
  p.packages.values.flatMap (fun q => (q.actions.values ++ q.sequences.values).map (·.filePath)) ++
    p.dependencies.values.map (·.projectPath)

/-- What is told when a path in a plan is no text. -/
def unprintable : String := "JSON serialization failed: path contains invalid UTF-8 characters"

/-- A plan as JSON, or why it cannot be printed. -/
def json [Host] (p : Plan) : Except String String :=
  if p.paths.all Host.isText then .ok p.toJson.pretty else .error unprintable

end Plan

namespace RuntimeFamily

/-- The JSON value of a family. -/
def toJson (f : RuntimeFamily) : Json :=
  .object [("name", .str f.name), ("kinds", .arr (f.kinds.map .str))]

/-- The line about a family. -/
def overview (f : RuntimeFamily) : String :=
  label f.name ++ " " ++ Text.join ", " f.kinds ++ " (default " ++ f.defaultKind ++ ")"

end RuntimeFamily

/-- The text that explains the command line. -/
def helpLines : List String :=
  ["Compile serverless manifests into deployable entity plans", "",
    "Usage: fndeploy [OPTIONS] <COMMAND>", "", "Commands:",
    "  compose      Compose a manifest into a deployment plan",
    "  validate     Check that a manifest composes cleanly",
    "  runtimes     List the supported runtime kinds",
    "  completions  List the words that a shell can complete"]

/-! ## Answers -/

/-- What a command prints and how it ends. -/
structure Answer where
  exitCode : Nat
  output : List String := []
  failure : Option Failure := none
  /-- Why what was made cannot be printed, if it cannot. -/
  printFault : Option String := none
  events : List Event := []

/-- The exit code for the message of a failure, which starts with the word for what the failure
is about. -/
def exitCodeOf (message : String) : Nat :=
  if ["manifest error:", "deployment error:", "config error:"].any fun start =>
      Text.startsWith start message then 2
  else if Text.startsWith "runtime error:" message then 3
  else 1

/-- The exit code for arguments that are not understood. -/
def usageExitCode : Nat := 2

namespace Answer

/-- The answer of a command that printed lines. -/
def lines (output : List String) : Answer := { exitCode := 0, output := output }

/-- The answer of a command that failed. -/
def failed (f : Failure) : Answer := { exitCode := exitCodeOf f.message, failure := some f }

/-- The answer of a command that printed lines, unless they cannot be printed. -/
def ofPrinted : Except String (List String) → Answer
  | .ok output => lines output
  | .error message => { exitCode := exitCodeOf message, printFault := some message }

/-- The answer that a report of what is to be printed comes to. -/
def ofReport (r : Report (Except String (List String))) : Answer :=
  match r.result with
  | .ok printed => { ofPrinted printed with events := r.events }
  | .error f => { failed f with events := r.events }

/-- The message that ends a command that does not succeed. -/
def message? (a : Answer) : Option String :=
  match a.failure with
  | some f => some f.message
  | none => a.printFault

end Answer

/-! ## Commands -/

/-- Where a command runs. -/
structure Surroundings where
  tree : FileTree
  /-- The variables of the environment. -/
  environment : String → Option String := fun _ => none

namespace BuildOptions

/-- The settings of a command: those of the file, with what the options ask for. -/
def settings (o : BuildOptions) (config : Option String) (s : Surroundings) :
    Except Failure Settings := do
  let base ← match config with
    | some path => Settings.load s.tree path
    | none => Settings.loadDefault s.tree (s.environment "HOME")
  return { «namespace» := o.namespace.getD base.namespace
           strict := base.strict || o.strict
           managed := base.managed || o.managed
           skipUnmatchedPackages := base.skipUnmatchedPackages || o.skipUnmatchedPackages }

/-- The variables of a command: those of the options, then those of the environment. -/
def vars (o : BuildOptions) (s : Surroundings) : Variables :=
  ⟨KeyMap.ofList o.bindings, s.environment⟩

/-- The plan that a command builds. -/
def build [Host] (o : BuildOptions) (config : Option String) (s : Surroundings) : Report Plan := do
  let settings ← Report.ofExcept (o.settings config s)
  (buildPlan settings (o.vars s) o.manifest o.deployment s.tree).report

end BuildOptions

namespace Invocation

/-- What the command `compose` prints of a plan. -/
def composed [Host] (i : Invocation) (plan : Plan) : Except String (List String) :=
  if i.json then plan.json.map fun line => [line] else .ok plan.overview

/-- What the command `validate` prints of a plan. -/
def validated (i : Invocation) (o : BuildOptions) (plan : Plan) : List String :=
  if i.json then [(plan.validityJson o.manifest).pretty] else [plan.validity o.manifest]

/-- Runs a command. -/
def run [Host] (i : Invocation) (s : Surroundings) : Answer :=
  match i.command with
  | .compose o => .ofReport do return i.composed (← o.build i.config s)
  | .validate o => .ofReport do return .ok (i.validated o (← o.build i.config s))
  | .runtimes =>
    if i.json then .lines [(Json.arr (RuntimeFamily.all.map (·.toJson))).pretty]
    else .lines (RuntimeFamily.all.map (·.overview))
  | .completions _ => .lines Request.commandNames

end Invocation

/-- The level from which on messages are shown. -/
def Request.level : Request → Level
  | .perform i => if i.verbose then .debug else .warn
  | _ => .warn

/-- Runs what was asked for. -/
def Request.run [H : Host] (r : Request) (s : Surroundings) : Answer :=
  match r with
  | .perform i => i.run s
  | .help => .lines helpLines
  | .version => .lines ["fndeploy 0.1.0"]
  | .refused => { exitCode := usageExitCode }

/-! ## Repeated runs -/

/-- Draws that are the numbers from zero on. -/
def Draw.numbers (count : Nat) : List Draw :=
  (List.range count).filterMap fun n => Draw.ofText? (Text.digits 10 6 n)

/-- Packs with draws that are numbers, and finds nothing in scratch files. -/
instance Packer.numbered : Packer := ⟨Draw.numbers 1000, .ok [], .plain⟩

/-- A host where each run draws the same numbers, and all paths are texts. -/
instance Host.numbered : Host := ⟨fun _ _ => .numbered, fun _ => true⟩

end DeployPlan
