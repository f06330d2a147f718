/-
# One setting out of range

The two settings of a file are checked one by one, so a limit that is out of range is
set aside and the level is set all the same.  This holds of limits that are numbers of
bytes.  A limit below zero is none: it has the wrong type, and that spoils the file
with the level in it.

* `Gives` : what a file says, in any of the spellings of the format;
* `limitLines`, `levelLines` : the plainest spelling;
* `separated_load` : what becomes of the level next to any limit.
-/
import Interleave.Proofs.Settings.Accounting
import Interleave.Proofs.Toml.Lines

namespace Interleave.Settings

open Toml

/-! ## What a file gives -/

/-- A file gives a limit and a level, or leaves them open.  How they are spelled does
not matter, and what else there is in the file does not either. -/
def Gives (content : Bytes) (limit : Option Int) (level : Option String) : Prop :=
  ∃ (text : String) (entries : Entries),
    content = Utf8.encode text.toList ∧ content.length ≤ fileLimit ∧
    parse? text = some entries ∧
    RawSettings.sectionValue? entries "input" "max_line_bytes" =
      some (limit.map Value.integer) ∧
    RawSettings.sectionValue? entries "logging" "level" = some (level.map Value.string)

/-- A file that gives a number of bytes, or no limit, is a file of settings. -/
theorem Gives.holds {content : Bytes} {limit : Option Nat} {level : Option String}
    (gives : Gives content (limit.map Int.ofNat) level) :
    Holds RawSettings.ofText? (.file content) { maxLineBytes := limit, level := level } := by
  obtain ⟨text, entries, rfl, small, read, ofInput, ofLogging⟩ := gives
  refine ⟨_, text, rfl, small, Reader.readAll_ofBytes _, ?_⟩
  have bytes : RawSettings.byteCount? ((limit.map Int.ofNat).map Value.integer) = some limit := by
    cases limit <;> rfl
  have word : RawSettings.word? (level.map Value.string) = some level := by
    cases level <;> rfl
  simp only [RawSettings.ofText?, read, Option.bind_some, RawSettings.ofEntries?, ofInput,
    ofLogging, bytes, word, Option.bind_eq_bind]

/-- A file with a limit below zero is not. -/
theorem Gives.refused {content : Bytes} {v : Int} {level : Option String} (negative : v < 0)
    (gives : Gives content (some v) level) (path : String) :
    Refused RawSettings.ofText? path (.file content) (.malformed path) := by
  obtain ⟨text, entries, rfl, small, read, ofInput, -⟩ := gives
  refine .malformed small (Reader.readAll_ofBytes _) ?_
  have bytes : RawSettings.byteCount? (some (Value.integer v)) = none :=
    if_neg (Int.not_le.mpr negative)
  simp only [RawSettings.ofText?, read, Option.bind_some, RawSettings.ofEntries?, ofInput,
    Option.map_some, bytes, Option.bind_eq_bind, Option.bind_none]

/-! ## The plainest spelling -/

/-- The section with the limit, and an empty line after it. -/
def limitLines (v : Int) (fits : fitsWord v = true) : List Statement :=
  [.header ⟨"input", by decide, by decide⟩,
    .pair ⟨"max_line_bytes", by decide, by decide⟩ (.integer v fits), .blank]

/-- The section with the level. -/
def levelLines (level : String) : List Statement :=
  [.header ⟨"logging", by decide, by decide⟩,
    .pair ⟨"level", by decide, by decide⟩ (.string level)]

/-- The file with these lines. -/
def fileOf (lines : List Statement) : Bytes := Utf8.encode (written lines)

/-- What the lines of the level say, after what the document has said before. -/
theorem foldlM_levelLines (level : String) :
    (levelLines level).foldlM Statement.apply {} =
      some ⟨[("logging", .table .header [("level", .string level)])], ["logging"]⟩ := by
  rfl

/-- What the lines of the limit say. -/
theorem foldlM_limitLines_append (v : Int) (fits : fitsWord v = true) (level : String) :
    (limitLines v fits ++ levelLines level).foldlM Statement.apply {} =
      some ⟨[("logging", .table .header [("level", .string level)]),
        ("input", .table .header [("max_line_bytes", .integer v)])], ["logging"]⟩ := by
  rfl

/-- Lines are a file that gives what they say. -/
theorem gives_fileOf {lines : List Statement} {doc : Document} {limit : Option Int}
    {level : Option String} (small : (fileOf lines).length ≤ fileLimit)
    (said : lines.foldlM Statement.apply {} = some doc)
    (ofInput : RawSettings.sectionValue? doc.entries "input" "max_line_bytes" =
      some (limit.map Value.integer))
    (ofLogging : RawSettings.sectionValue? doc.entries "logging" "level" =
      some (level.map Value.string)) : Gives (fileOf lines) limit level := by
  refine ⟨String.ofList (written lines), doc.entries, ?_, small, ?_, ofInput, ofLogging⟩
  · rw [fileOf, String.toList_ofList]
  · rw [parse?_written, said, Option.map_some]

/-- A file with the level only gives it. -/
theorem gives_levelLines {level : String}
    (small : (fileOf (levelLines level)).length ≤ fileLimit) :
    Gives (fileOf (levelLines level)) none (some level) :=
  gives_fileOf small (foldlM_levelLines level) rfl rfl

/-- A file with both settings gives both. -/
theorem gives_limitLines_append {v : Int} (fits : fitsWord v = true) {level : String}
    (small : (fileOf (limitLines v fits ++ levelLines level)).length ≤ fileLimit) :
    Gives (fileOf (limitLines v fits ++ levelLines level)) (some v) (some level) :=
  gives_fileOf small (foldlM_limitLines_append v fits level) rfl rfl

/-! ## Sizes -/

/-- Lines after lines are bytes after bytes. -/
theorem length_fileOf_append (before after : List Statement) :
    (fileOf (before ++ after)).length = (fileOf before).length + (fileOf after).length := by
  simp [fileOf, written, Utf8.encode]

/-- A character takes four bytes at most. -/
theorem length_encode_le (text : List Char) : (Utf8.encode text).length ≤ 4 * text.length := by
  induction text with
  | nil => simp [Utf8.encode]
  | cons c text ih =>
      have one : (String.utf8EncodeChar c).length ≤ 4 := by
        rw [String.length_utf8EncodeChar]
        exact Char.utf8Size_le_four c
      simp only [Utf8.encode, List.flatMap_cons, List.length_append, List.length_cons] at ih ⊢
      omega

/-- A character is spelled in six at most. -/
theorem length_flatMap_escaped_le (text : List Char) :
    (text.flatMap escaped).length ≤ 6 * text.length := by
  induction text with
  | nil => simp
  | cons c text ih =>
      have one : (escaped c).length ≤ 6 := by
        unfold escaped
        split_ifs <;> simp
      simp only [List.flatMap_cons, List.length_append, List.length_cons]
      omega

/-- An integer of 64 bits has nineteen digits at most, and perhaps a sign. -/
theorem length_decimals_le {v : Int} (fits : fitsWord v = true) : (decimals v).length ≤ 20 := by
  have bounds : -9223372036854775808 ≤ v ∧ v ≤ 9223372036854775807 := by
    simpa [fitsWord] using fits
  have digits : ∀ n : Nat, n ≤ 9223372036854775808 → (Nat.toDigits 10 n).length ≤ 19 := by
    intro n small
    exact (Nat.length_toDigits_le_iff (by decide) (by decide)).mpr (by omega)
  cases v with
  | ofNat n =>
      have small : (n : Int) ≤ 9223372036854775807 := bounds.2
      exact (digits n (by omega)).trans (by decide)
  | negSucc n => exact Nat.succ_le_succ (digits (n + 1) (by omega))

/-- The name of a level has five letters at most. -/
theorem length_name_le (level : Level) : level.name.toList.length ≤ 5 := by
  cases level <;> decide

/-- A file that names a level is never too large. -/
theorem length_fileOf_le {v : Int} (fits : fitsWord v = true) {word : String} {level : Level}
    (named : levelOf? word = some level) :
    (fileOf (limitLines v fits ++ levelLines word)).length ≤ fileLimit := by
  have short : word.toList.length ≤ 5 := by
    rw [← List.length_map Char.toLower, levelOf?_eq_some_iff.mp named]
    exact length_name_le level
  have spelled := length_flatMap_escaped_le word.toList
  have number := length_decimals_le fits
  have chars : (written (limitLines v fits ++ levelLines word)).length ≤ 1000 := by
    simp [written, limitLines, levelLines, Statement.written, Plain.written, -List.length_flatMap]
    omega
  have bytes := length_encode_le (written (limitLines v fits ++ levelLines word))
  have : fileLimit = 65536 := rfl
  rw [fileOf]
  omega

/-! ## The level next to any limit -/

/-- The words of a warning name a setting. -/
def Names (warning : Warning) (setting : String) : Prop :=
  ∃ before after, warning.message = before ++ setting ++ after

/-- A warning about the limit names it. -/
theorem names_limitOutOfRange (value : Nat) :
    Names (.limitOutOfRange value) "max_line_bytes" := by
  have start : toString "[input] max_line_bytes = " =
      "[input] " ++ "max_line_bytes" ++ " = " := rfl
  unfold Names Warning.message
  dsimp only
  rw [start]
  simp only [String.append_assoc]
  exact ⟨"[input] ", _, rfl⟩

/-- The limit is within the bounds. -/
def Within (v : Int) : Prop := 1024 ≤ v ∧ v ≤ 67108864

/-- A limit that is a number of bytes leaves the level and the warnings about it alone.
It is set within the bounds, and otherwise it is open and there is one warning more,
which names it. -/
structure Apart (v : Int) (both alone : Loaded) : Prop where
  level : both.settings.level = alone.settings.level
  within : Within v → both.settings.limit = some v.toNat ∧ both.warnings = alone.warnings
  beyond : ¬ Within v → both.settings.limit = none ∧
    ∃ warning, Names warning "max_line_bytes" ∧ both.warnings = warning :: alone.warnings

/-- What a limit does to the settings next to it. -/
theorem apart_ofRaw (value : Nat) (level : Option String) :
    Apart value (ofRaw ⟨some value, level⟩) (ofRaw ⟨none, level⟩) := by
  have range : inRange value = true ↔ Within value := by
    rw [inRange_iff, Within]
    have : leastLimit = 1024 := rfl
    have : greatestLimit = 67108864 := rfl
    omega
  refine ⟨rfl, fun within => ?_, fun beyond => ?_⟩
  · have good := range.mpr within
    simp [ofRaw, validLimit, limitWarnings, good]
  · have bad : ¬ inRange value = true := fun good => beyond (range.mp good)
    refine ⟨by simp [ofRaw, validLimit, bad], _, names_limitOutOfRange value, ?_⟩
    simp [ofRaw, limitWarnings, bad]

/-- **A limit that is a number of bytes costs no level**, in any file that gives both and
whatever they are; one below zero costs both settings.  There is such a file for every
limit of 64 bits and every level, unless the level makes it too large, and then it names
no level. -/
theorem separated_load {v : Int} (fits : fitsWord v = true) (level path : String) :
    (∀ both alone, Gives both (some v) (some level) → Gives alone none (some level) →
      (0 ≤ v → Apart v (load path (some (.file both))) (load path (some (.file alone)))) ∧
        (v < 0 → load path (some (.file both)) = { warnings := [.malformed path] })) ∧
      let both := fileOf (limitLines v fits ++ levelLines level)
      let alone := fileOf (levelLines level)
      (both.length ≤ fileLimit →
        Gives both (some v) (some level) ∧ Gives alone none (some level)) ∧
      (fileLimit < both.length →
        load path (some (.file both)) = { warnings := [.tooLarge path both.length] } ∧
          (load path (some (.file alone))).settings.level = none) := by
  refine ⟨fun both alone ofBoth ofAlone => ⟨fun bytes => ?_, fun negative => ?_⟩,
    fun small => ?_, fun large => ?_⟩
  · obtain ⟨value, rfl⟩ := Int.eq_ofNat_of_zero_le bytes
    have both : Holds RawSettings.ofText? (.file both) ⟨some value, some level⟩ := Gives.holds ofBoth
    have alone : Holds RawSettings.ofText? (.file alone) ⟨none, some level⟩ := Gives.holds ofAlone
    rw [load, load, loadBy_of_holds both, loadBy_of_holds alone]
    exact apart_ofRaw value (some level)
  · exact loadBy_of_refused (ofBoth.refused negative path)
  · have lengths := length_fileOf_append (limitLines v fits) (levelLines level)
    exact ⟨gives_limitLines_append fits small, gives_levelLines (by omega)⟩
  · refine ⟨if_pos large, ?_⟩
    have unnamed : levelOf? level = none := by
      cases named : levelOf? level with
      | none => rfl
      | some found => exact absurd (length_fileOf_le fits named) (Nat.not_le.mpr large)
    by_cases small : (fileOf (levelLines level)).length ≤ fileLimit
    · have alone : Holds RawSettings.ofText? (.file (fileOf (levelLines level)))
          ⟨none, some level⟩ := Gives.holds (gives_levelLines small)
      rw [load, loadBy_of_holds alone]
      exact unnamed
    · rw [load, Entry.file, loadBy_of_refused (.tooLarge (Nat.lt_of_not_le small))]

/-- A limit of less than zero costs the level: without it the level is set, and with it
there is nothing but a warning about the whole file. -/
theorem separated_load_below_zero :
    let path := "config.toml"
    let both := fileOf (limitLines (-1) rfl ++ levelLines "debug")
    let alone := fileOf (levelLines "debug")
    load path (some (.file both)) = { warnings := [.malformed path] } ∧
      load path (some (.file alone)) = { settings := { level := some .debug } } := by
  have small : (fileOf (limitLines (-1) rfl ++ levelLines "debug")).length ≤ fileLimit := by
    decide +kernel
  obtain ⟨apart, given, -⟩ := separated_load (v := -1) rfl "debug" "config.toml"
  obtain ⟨ofBoth, ofAlone⟩ := given small
  refine ⟨(apart _ _ ofBoth ofAlone).2 (by decide), ?_⟩
  decide +kernel

end Interleave.Settings
