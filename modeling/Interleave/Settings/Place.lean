/-
# Where settings are kept

The settings of a user lie in a directory of this program's own, below the directory
for the settings of all programs.  That is named by the environment, as an absolute
path, or else it is `.config` in the home directory.

* `joinPath` : a path with a further path after it;
* `SettingsPlace.ofEnvironment` : the directory of this program;
* `SettingsPlace.file` : the file in it.
-/
import Interleave.Report.Identity
import Interleave.Settings.Loading

namespace Interleave

/-- A path with a further path after it.  An absolute one takes its place. -/
def joinPath (path further : String) : String :=
  if further.startsWith "/" then further
  else if path = "" ∨ path.endsWith "/" then path ++ further
  else path ++ "/" ++ further

/-- The directory of this program's settings. -/
structure SettingsPlace where
  directory : String
  deriving DecidableEq, Repr

namespace SettingsPlace

/-- The directory of this program below the one for all programs. -/
def below (base : String) : SettingsPlace := ⟨joinPath base identity.command⟩

/-- The directory that the environment and the home directory lead to.  A relative
path in the environment does not count. -/
def ofEnvironment (configHome : Option String) (home : String) : SettingsPlace :=
  match configHome.filter (·.startsWith "/") with
  | some base => below base
  | none => below (joinPath home ".config")

/-- The file of settings. -/
def file (place : SettingsPlace) : String := joinPath place.directory Settings.fileName

end SettingsPlace

end Interleave
