/-
# Bounds of settings, and warnings about them

* `leastLimit`, `greatestLimit` : the range of the limit that can be set;
* `Warning` : what can be wrong with a file of settings.
-/
import Interleave.Report.Level
import Interleave.Stream.IoError

namespace Interleave.Settings

/-! ## Bounds -/

/-- The least limit that can be set. -/
def leastLimit : Nat := 1024

/-- The greatest limit that can be set. -/
def greatestLimit : Nat := 67108864

/-- How many bytes a file of settings may have. -/
def fileLimit : Nat := 65536

/-- The name of the file. -/
def fileName : String := "config.toml"

/-! ## Warnings -/

/-- What is wrong with a file of settings or a value in it. -/
inductive Warning where
  | tooLarge (path : String) (size : Nat)
  | unreadable (path : String) (cause : IoError)
  | malformed (path : String)
  | limitOutOfRange (value : Nat)
  | unknownLevel (word : String)
  deriving DecidableEq, Repr

/-- The words of a warning. -/
def Warning.message : Warning → String
  | .tooLarge path size =>
      s!"Config file '{path}' is {size} bytes, exceeds maximum of {fileLimit} bytes. " ++
        "Using defaults."
  | .unreadable path cause =>
      s!"Could not read config file '{path}': {cause.message}. Using defaults."
  | .malformed path =>
      s!"Failed to parse config file '{path}': not a TOML document of settings. " ++
        "Using defaults."
  | .limitOutOfRange value =>
      s!"[input] max_line_bytes = {value} is out of range ({leastLimit}-{greatestLimit}). " ++
        "Lines will not be length-limited."
  | .unknownLevel word =>
      s!"[logging] level = \"{word}\" is not recognised. " ++
        "Valid values: error, warn, info, debug, trace. " ++
        s!"Using default ({Level.ofRun.name})."

end Interleave.Settings
