/-!
# Runtimes

An action runs in one of the runtimes of the platform.  A source file suggests one by its
extension.

## Main definitions

* `DeployPlan.RuntimeFamily`, `RuntimeFamily.all` — the families and their kinds.
* `RuntimeFamily.ofExtension?` — the family of a source file.
* `DeployPlan.Source`, `RuntimeDecision`, `decideRuntime` — how a declared runtime is reconciled
  with the source.
-/

set_option autoImplicit false

namespace DeployPlan

/-! ## Families -/

/-- A family of runtimes. -/
structure RuntimeFamily where
  name : String
  /-- The kind that is taken when none is declared. -/
  defaultKind : String
  /-- The other kinds. -/
  otherKinds : List String
  deriving DecidableEq, Inhabited

namespace RuntimeFamily

/-- The kinds of a family, the default first. -/
def kinds (f : RuntimeFamily) : List String := f.defaultKind :: f.otherKinds

/-- The families of the platform. -/
def all : List RuntimeFamily :=
  [⟨"nodejs", "nodejs:6", ["nodejs:8", "nodejs:10"]⟩,
    ⟨"python", "python:2", ["python:3"]⟩,
    ⟨"swift", "swift:3.1.1", ["swift:4.1"]⟩,
    ⟨"php", "php:7.1", ["php:7.2"]⟩,
    ⟨"java", "java", []⟩,
    ⟨"ruby", "ruby:2.5", []⟩,
    ⟨"blackbox", "blackbox", []⟩]

/-- The families that file extensions suggest. -/
def byExtension : List (String × String) :=
  [("js", "nodejs"), ("py", "python"), ("swift", "swift"), ("php", "php"), ("jar", "java"),
    ("rb", "ruby")]

/-- The family that a file extension suggests. -/
def ofExtension? (ext : String) : Option RuntimeFamily :=
  (byExtension.find? fun e => e.1 == ext).bind fun (_, name) => all.find? fun f => f.name == name

/-- The kind that a file extension suggests. -/
def defaultKind? (ext : String) : Option String := (ofExtension? ext).map defaultKind

/-- All kinds of runtime. -/
def allKinds : List String := all.flatMap kinds

/-- Whether a kind of runtime is supported. -/
def supports (kind : String) : Bool := allKinds.contains kind

/-- Whether a kind belongs to the family that a file extension suggests. -/
def isConsistent (ext kind : String) : Bool :=
  (ofExtension? ext).any fun f => f.kinds.contains kind

end RuntimeFamily

/-! ## Decisions -/

/-- The extension of archives. -/
def zipExtension : String := "zip"

/-- Whether files with an extension are shipped as bytes, whatever they hold. -/
def isBinaryExtension (ext : String) : Bool := ext == zipExtension || ext == "jar"

/-- What the source of an action is. -/
inductive Source where
  /-- There is none. -/
  | stub
  /-- A directory or an archive. -/
  | archive
  /-- A file with an extension. -/
  | file (ext : String)
  deriving DecidableEq, Inhabited

namespace Source

/-- The kind of runtime that a source suggests. -/
def inferred? : Source → Option String
  | .file ext => RuntimeFamily.defaultKind? ext
  | .stub | .archive => none

end Source

/-- What becomes of a declared runtime. -/
inductive RuntimeDecision where
  /-- It is taken. -/
  | declared
  /-- It is taken although the source suggests another family. -/
  | declaredOverMismatch
  /-- The kind that the source suggests is taken, which is of another family. -/
  | inferredOverMismatch
  /-- It is not supported; the kind that the source suggests is taken, if there is one. -/
  | inferredOverUnsupported
  /-- It is not supported, and an archive suggests nothing. -/
  | invalid
  deriving DecidableEq, Inhabited

/-- Reconciles a declared runtime with the source. -/
def decideRuntime (source : Source) (declared : String) (strict : Bool) : RuntimeDecision :=
  let supported := RuntimeFamily.supports declared
  match source with
  | .stub => if supported then .declared else .inferredOverUnsupported
  | .archive => if supported then .declared else .invalid
  | .file ext =>
    if !supported then .inferredOverUnsupported
    else if (RuntimeFamily.defaultKind? ext).isNone || RuntimeFamily.isConsistent ext declared then
      .declared
    else if strict then .declaredOverMismatch
    else .inferredOverMismatch

end DeployPlan
