import DeployPlan.Text.Blank
import DeployPlan.Text.LetterCase

/-!
# Licenses

## Main definitions

* `DeployPlan.License.known` — the licenses that a package can declare without a warning.
* `License.isKnown` — whether a text names one of them.
-/

set_option autoImplicit false

namespace DeployPlan

namespace License

/-- The license of a package that declares none. -/
def default : String := "unlicensed"

/-- The licenses that a package can declare without a warning. -/
def known : List String :=
  ["0BSD", "AGPL-3.0", "Apache-1.1", "Apache-2.0", "Artistic-2.0", "BSD-2-Clause",
    "BSD-3-Clause", "BSL-1.0", "CC0-1.0", "CC-BY-4.0", "EPL-1.0", "EPL-2.0", "EUPL-1.2",
    "GPL-2.0", "GPL-3.0", "ISC", "LGPL-2.1", "LGPL-3.0", "MIT", "MPL-2.0", "Unlicense", "Zlib",
    default]

/-- Whether a text names a known license; the case of letters and blanks around the name do not
count. -/
def isKnown (license : String) : Bool :=
  known.any fun name => Text.sameIgnoringAsciiCase name (Text.trim license)

end License

end DeployPlan
