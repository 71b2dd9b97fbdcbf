import DeployPlan.Compose.Report
import DeployPlan.Manifest.Basic
import DeployPlan.Plan.Basic

/-!
# Limits

An action may ask for limits.  The platform sets bounds to some of them and does not know the
others.

## Main definitions

* `DeployPlan.LimitBounds`, `LimitCheck` — the bounds of a limit, and how a value compares.
* `LimitsSpec.withinBounds` — the limits that are kept.
* `LimitsSpec.composed` — the same, with a warning for each limit that is not.
-/

set_option autoImplicit false

namespace DeployPlan

/-! ## Bounds -/

/-- How a value compares with the bounds of a limit. -/
inductive LimitCheck where
  | absent
  | valid (n : Int)
  | outOfRange (n : Int)
  deriving DecidableEq, Inhabited

namespace LimitCheck

/-- The value that is kept. -/
def kept? : LimitCheck → Option Int
  | .valid n => some n
  | .absent | .outOfRange _ => none

end LimitCheck

/-- The bounds of a limit, both of them allowed. -/
structure LimitBounds where
  name : String
  least : Int
  greatest : Int
  deriving DecidableEq, Inhabited

namespace LimitBounds

/-- The time that an action may run, in milliseconds. -/
def timeout : LimitBounds := ⟨"timeout", 100, 300000⟩

/-- The memory of an action, in megabytes. -/
def memory : LimitBounds := ⟨"memorySize", 128, 512⟩

/-- The size of the log of an action, in megabytes. -/
def logs : LimitBounds := ⟨"logSize", 0, 10⟩

/-- Compares a value with bounds. -/
def check (b : LimitBounds) : Option Int → LimitCheck
  | none => .absent
  | some n => if b.least ≤ n ∧ n ≤ b.greatest then .valid n else .outOfRange n

/-- The warning about a value out of bounds. -/
def events (b : LimitBounds) (action : String) (value : Option Int) : List Event :=
  match b.check value with
  | .outOfRange n =>
    [.warning ("limit " ++ b.name ++ " = " ++ toString n ++ " of action " ++ action ++
      " is outside " ++ toString b.least ++ "..=" ++ toString b.greatest ++ ", ignoring it")]
  | .absent | .valid _ => []

end LimitBounds

/-! ## The limits of an action -/

namespace LimitsSpec

/-- The limits that are within their bounds. -/
def withinBounds (spec : LimitsSpec) : Limits where
  timeout := (LimitBounds.timeout.check spec.timeout).kept?
  memory := (LimitBounds.memory.check spec.memorySize).kept?
  logs := (LimitBounds.logs.check spec.logSize).kept?

/-- The limits that the platform does not know, by name. -/
def unsupported (spec : LimitsSpec) : List (String × Option Int) :=
  [("concurrentActivations", spec.concurrentActivations),
    ("userInvocationRate", spec.userInvocationRate), ("codeSize", spec.codeSize),
    ("parameterSize", spec.parameterSize)]

/-- The warning about a limit that the platform does not know; zero is none. -/
def unsupportedEvents (action : String) : String × Option Int → List Event
  | (name, value) =>
    if value.any (· ≠ 0) then
      [.warning ("limit " ++ name ++ " of action " ++ action ++
        " is not supported and will be ignored")]
    else []

/-- The warnings about limits that are not kept. -/
def events (spec : LimitsSpec) (action : String) : List Event :=
  LimitBounds.timeout.events action spec.timeout ++
    LimitBounds.memory.events action spec.memorySize ++
    LimitBounds.logs.events action spec.logSize ++
    spec.unsupported.flatMap (unsupportedEvents action)

/-- The limits of an action, if one is kept, with the warnings about the others. -/
def composed (spec : LimitsSpec) (action : String) : Report (Option Limits) :=
  ⟨spec.events action, .ok (some spec.withinBounds |>.filter fun l => !l.isEmpty)⟩

end LimitsSpec

end DeployPlan
