/-
# Under what name the program reports

* `identity` : name, command and version.
-/

namespace Interleave

/-- The name and version under which a run reports. -/
structure Identity where
  /-- The name in reports. -/
  name : String
  /-- The name of the command, and of its directory of settings. -/
  command : String
  version : String
  deriving DecidableEq, Repr

/-- The identity of this program. -/
def identity : Identity := ⟨"LogWeave", "logweave", "1.0.0"⟩

end Interleave
