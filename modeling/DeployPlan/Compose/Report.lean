import DeployPlan.Failure

/-!
# Reports

Composing a plan gives a plan or a failure, and events on the way.

## Main definitions

* `DeployPlan.Event` — a message for the log, or an archive that is put into the file tree or
  taken out of it.
* `DeployPlan.Report` — events and a result.
* `DeployPlan.Compose` — a report that depends on a file tree and leaves one.
-/

set_option autoImplicit false

namespace DeployPlan

/-! ## Events -/

/-- How much a message matters. -/
inductive Level where
  | debug
  | info
  | warn
  deriving DecidableEq, Inhabited

namespace Level

/-- The word for a level. -/
def word : Level → String
  | .debug => "DEBUG"
  | .info => "INFO"
  | .warn => "WARN"

/-- The number of a level; more serious levels have greater ones. -/
def rank : Level → Nat
  | .debug => 0
  | .info => 1
  | .warn => 2

end Level

/-- What happens while a plan is composed. -/
inductive Event where
  /-- A message for the log. -/
  | log (level : Level) (text : String)
  /-- An archive is put into the file tree. -/
  | archiveAdded (path : String)
  /-- An archive is taken out of the file tree. -/
  | archiveRemoved (path : String)
  deriving DecidableEq, Inhabited

namespace Event

/-- The line that an event adds to a log of messages from a level on. -/
def line? (least : Level) : Event → Option String
  | .log level text => if least.rank ≤ level.rank then some (level.word ++ " " ++ text) else none
  | .archiveAdded _ | .archiveRemoved _ => none

/-- The message about a reference to a variable that stands for nothing. -/
def unsetVariable (name : String) : Event :=
  .log .debug ("variable '" ++ name ++ "' is not set, substituting empty string")

/-- A warning. -/
def warning (text : String) : Event := .log .warn text

/-- The message about an entry of a mapping that has no place in a JSON object. -/
def droppedKey (key : Yaml.Value) : Event :=
  .log .warn ("dropping non-scalar mapping key " ++ key.shown)

end Event

/-! ## Reports -/

/-- Events and a result. -/
structure Report (α : Type) where
  events : List Event
  result : Except Failure α

namespace Report

variable {α β : Type}

/-- A report without events. -/
def ofExcept (result : Except Failure α) : Report α := ⟨[], result⟩

/-- The report of a failure. -/
def fail (f : Failure) : Report α := ⟨[], .error f⟩

/-- The report of events. -/
def ofEvents (es : List Event) : Report Unit := ⟨es, .ok ()⟩

/-- The report of a message. -/
def log (level : Level) (text : String) : Report Unit := ⟨[.log level text], .ok ()⟩

/-- Goes on with the result, if there is one. -/
def bind (r : Report α) (f : α → Report β) : Report β :=
  match r.result with
  | .ok a => ⟨r.events ++ (f a).events, (f a).result⟩
  | .error e => ⟨r.events, .error e⟩

instance : Monad Report where
  pure a := ⟨[], .ok a⟩
  bind := bind

end Report

/-! ## Reports over a file tree -/

/-- A report and the file tree that is left. -/
structure Outcome (α : Type) where
  tree : FileTree
  report : Report α

/-- A report that depends on a file tree and leaves one. -/
def Compose (α : Type) : Type := FileTree → Outcome α

namespace Compose

variable {α β : Type}

/-- A report that leaves the tree alone. -/
def ofReport (r : Report α) : Compose α := fun t => ⟨t, r⟩

/-- A report that only looks at the tree. -/
def looking (f : FileTree → Report α) : Compose α := fun t => ⟨t, f t⟩

/-- Goes on with the result, if there is one, in the tree that was left. -/
def bind (c : Compose α) (f : α → Compose β) : Compose β := fun t =>
  let first := c t
  match first.report.result with
  | .ok a =>
    let second := f a first.tree
    ⟨second.tree, ⟨first.report.events ++ second.report.events, second.report.result⟩⟩
  | .error e => ⟨first.tree, ⟨first.report.events, .error e⟩⟩

instance : Monad Compose where
  pure a := ofReport (pure a)
  bind := bind

instance : MonadLift Report Compose := ⟨ofReport⟩

end Compose

end DeployPlan
