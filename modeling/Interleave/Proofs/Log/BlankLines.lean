/-
# Blank lines

A line is blank if it is white space throughout.  It has no timestamp and takes the
key of the line before it; at the beginning of a content there is none to take.

* `blank_of_mem_numbered` : which lines are blank;
* `key_of_blank_after` : a blank line has the key of the line right before it;
* `key_of_mem_leading` : the blank lines at the beginning have the key before them;
* `exists_instant` : a dated line that is not blank has a timestamp for its key.
-/
import Interleave.Proofs.Log.Feed

namespace Interleave

namespace Line

/-- The line is white space throughout. -/
def isWhite (l : Line) : Bool := l.raw.all Ascii.isBlank

/-- The bytes without a first word are those that are white space throughout. -/
theorem isNone_firstWord_eq (raw : Bytes) : (firstWord raw).isNone = raw.all Ascii.isBlank := by
  rw [Bool.eq_iff_iff, Option.isNone_iff_eq_none, firstWord_eq_none_iff, List.all_eq_true]

/-- No first word is found in a line of white space. -/
theorem ofLine_eq_missing_iff (raw : Bytes) :
    FirstWord.ofLine raw = .missing ↔ raw.all Ascii.isBlank = true := by
  rw [← Input.isNone_firstWord, isNone_firstWord_eq]

variable {side : Side} {number : Nat} {before : Key} {raws : List Bytes}

/-- **Which lines are blank.**  They are those of white space. -/
theorem blank_of_mem_numbered {l : Line} (h : l ∈ numbered side number before raws) :
    l.blank = l.isWhite := by
  induction raws generalizing number before with
  | nil => cases h
  | cons raw raws ih =>
      rcases List.mem_cons.mp h with rfl | later
      · exact isNone_firstWord_eq raw
      · exact ih later

/-- White space leaves the key as it was. -/
theorem after_of_white {raw : Bytes} (white : raw.all Ascii.isBlank = true) (before : Key) :
    before.after raw = before := by
  rw [Key.after, (ofLine_eq_missing_iff raw).mpr white]

/-- **A blank line has the key of the line right before it.** -/
theorem key_of_blank_after {p l : Line} (h : [p, l] <:+: numbered side number before raws)
    (white : l.isWhite = true) : l.key = p.key := by
  induction raws generalizing number before with
  | nil => exact absurd (List.infix_nil.mp h) (List.cons_ne_nil p [l])
  | cons raw raws ih =>
      rcases List.infix_cons_iff.mp h with first | later
      · -- The two lines come first, so the second one follows the key of the first.
        cases raws with
        | nil =>
            have short := first.length_le
            simp [numbered] at short
        | cons raw' raws =>
            simp only [numbered, List.cons_prefix_cons] at first
            obtain ⟨rfl, rfl, -⟩ := first
            exact after_of_white white (before.after raw)
      · exact ih later

/-- The blank lines at the beginning have the key that was there before. -/
theorem key_of_mem_leading {l : Line}
    (h : l ∈ (numbered side number before raws).takeWhile isWhite) : l.key = before := by
  induction raws generalizing number before with
  | nil => cases h
  | cons raw raws ih =>
      rw [numbered] at h
      cases white : (following side number before raw).isWhite with
      | false =>
          rw [List.takeWhile_cons_of_neg (by simp [white])] at h
          cases h
      | true =>
          have same : before.after raw = before := after_of_white white before
          rw [List.takeWhile_cons_of_pos white, same] at h
          rcases List.mem_cons.mp h with rfl | later
          · exact same
          · exact ih later

/-- A dated line that is not blank has a timestamp for its key. -/
theorem exists_instant {l : Line} (h : l ∈ numbered side number before raws)
    (dated : Dated l.raw) (black : l.isWhite = false) : ∃ instant, l.key = some instant := by
  induction raws generalizing number before with
  | nil => cases h
  | cons raw raws ih =>
      rcases List.mem_cons.mp h with rfl | later
      · show ∃ instant, before.after raw = some instant
        rw [Key.after]
        cases word : FirstWord.ofLine raw with
        | missing =>
            have white : raw.all Ascii.isBlank = true := (ofLine_eq_missing_iff raw).mp word
            have black : raw.all Ascii.isBlank = false := black
            rw [black] at white
            cases white
        | timestamp instant => exact ⟨instant, rfl⟩
        | other word' => exact absurd word (dated word')
      · exact ih later

end Line

end Interleave
