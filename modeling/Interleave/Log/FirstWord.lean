/-
# The first word of a line

Where a line belongs in the merge is decided by its first word alone, the bytes from
the first that is not white space up to the next that is.  The word is a timestamp,
or it is none; a line of white space has no word.

* `firstWord` : the first word;
* `FirstWord.ofLine` : what it is;
* `firstWord_eq_none_iff` : which lines have none.
-/
import Interleave.Text.Utf8
import Interleave.Time.Timestamp

namespace Interleave

/-- What the first word of a line is. -/
inductive FirstWord where
  /-- There is none, only white space. -/
  | missing
  /-- A timestamp. -/
  | timestamp (instant : Instant)
  /-- Anything else. -/
  | other (word : Bytes)
  deriving DecidableEq, Repr

/-- The first word of a line, if it has one. -/
def firstWord (raw : Bytes) : Option Bytes :=
  match (raw.dropWhile Ascii.isBlank).takeWhile (fun b => !Ascii.isBlank b) with
  | [] => none
  | b :: word => some (b :: word)

namespace FirstWord

/-- The instant that a word denotes.  A word that is not text denotes none. -/
def instant? (word : Bytes) : Option Instant :=
  (Utf8.decode? word).bind Timestamp.parse?

/-- What the first word of a line is. -/
def ofLine (raw : Bytes) : FirstWord :=
  match firstWord raw with
  | none => .missing
  | some word =>
      match instant? word with
      | some instant => .timestamp instant
      | none => .other word

end FirstWord

/-- A line with no first word is white space throughout. -/
theorem firstWord_eq_none_iff (raw : Bytes) :
    firstWord raw = none ↔ ∀ b ∈ raw, Ascii.isBlank b = true := by
  unfold firstWord
  induction raw with
  | nil => simp
  | cons b raw ih =>
      cases h : Ascii.isBlank b with
      | true => simpa [h] using ih
      | false => simp [h]

end Interleave
