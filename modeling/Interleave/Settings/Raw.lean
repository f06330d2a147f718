/-
# Settings as they are written

The file of settings has two sections.  A section is a table, or an array that gives
its values by position; what it does not give is left open, and keys that are not
known are passed over.  A value of the wrong type spoils the whole file.

* `RawSettings` : what a file says;
* `RawSettings.ofEntries?` : what a table says;
* `RawSettings.ofText?` : what a text says.
-/
import Interleave.Toml.Document

namespace Interleave

open Toml

/-- What a file of settings says. -/
structure RawSettings where
  /-- `max_line_bytes` of section `input`. -/
  maxLineBytes : Option Nat := none
  /-- `level` of section `logging`. -/
  level : Option String := none
  deriving DecidableEq, Repr

namespace RawSettings

/-- The only value of a section with one key: nothing if there is no section, or if
the section does not give it, and a refusal if the section is no section.  A date or
a time is a record whose parts are no keys of a section, so it gives nothing. -/
def sectionValue? (entries : Entries) (name key : String) : Option (Option Value) :=
  match entries.find? name with
  | none => some none
  | some (.table _ inner) => some (Entries.find? inner key)
  | some (.moment _) => some none
  | some (.array items) => some items.head?
  | some (.rows rows) => some (rows.getLast?.map (.table .header ·))
  | some _ => none

/-- A number of bytes, where there is a value. -/
def byteCount? : Option Value → Option (Option Nat)
  | none => some none
  | some (.integer n) => if 0 ≤ n then some (some n.toNat) else none
  | some _ => none

/-- A word, where there is a value. -/
def word? : Option Value → Option (Option String)
  | none => some none
  | some (.string text) => some (some text)
  | some _ => none

/-- What a table says. -/
def ofEntries? (entries : Entries) : Option RawSettings := do
  let maxLineBytes ← byteCount? (← sectionValue? entries "input" "max_line_bytes")
  let level ← word? (← sectionValue? entries "logging" "level")
  some { maxLineBytes, level }

/-- What a text says. -/
def ofText? (text : String) : Option RawSettings :=
  (Toml.parse? text).bind ofEntries?

end RawSettings

end Interleave
