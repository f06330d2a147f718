/-
# What a line begins with

A merge looks at the beginning of a line alone, and there at nothing but the instant.
Two lines that begin alike may differ in everything else: in how the instant is
written, in what stands before and after it, and, where they begin with a word that is
no timestamp, in that word.

* `Line.start` : what a line begins with;
* `Line.outline` : a line but for its bytes;
* `Feed.ofRaws` : what an input without limit and faults gives;
* `feed_of_bytes` : so it does;
* `alike_ofRaws` : of lines that begin alike the inputs give feeds that are alike.
-/
import Interleave.Proofs.Log.Descents
import Interleave.Proofs.Log.Pieces

namespace Interleave

namespace Line

/-! ## Beginnings -/

/-- What a line begins with. -/
inductive Start where
  /-- Nothing, it is blank. -/
  | blank
  /-- A timestamp of this instant. -/
  | dated (instant : Instant)
  /-- A word that is no timestamp. -/
  | undated
  deriving DecidableEq, Repr

/-- What the bytes of a line begin with. -/
def start (raw : Bytes) : Start :=
  match FirstWord.ofLine raw with
  | .missing => .blank
  | .timestamp instant => .dated instant
  | .other _ => .undated

/-- The beginning of a line makes its key. -/
def Start.after (before : Key) : Start → Key
  | .blank => before
  | .dated instant => some instant
  | .undated => before

theorem after_start (before : Key) (raw : Bytes) : (start raw).after before = before.after raw := by
  rw [start, Key.after]
  cases FirstWord.ofLine raw <;> rfl

/-- Bytes that begin with a word that is no timestamp. -/
theorem start_eq_undated_iff {raw : Bytes} :
    start raw = .undated ↔ ∃ word, FirstWord.ofLine raw = .other word := by
  rw [start]
  cases FirstWord.ofLine raw <;> simp

/-- Bytes without a first word begin with nothing. -/
theorem start_eq_blank_iff {raw : Bytes} : start raw = .blank ↔ (firstWord raw).isNone = true := by
  rw [Input.isNone_firstWord, start]
  cases FirstWord.ofLine raw <;> simp

/-! ## Outlines -/

/-- The line but for its bytes. -/
def outline (l : Line) : Line := { l with raw := [] }

/-- Lines that begin alike have one outline. -/
theorem outline_following {raw raw' : Bytes} (same : start raw = start raw') (side : Side)
    (number : Nat) (before : Key) :
    (following side number before raw).outline = (following side number before raw').outline := by
  have key : before.after raw = before.after raw' := by
    rw [← after_start, ← after_start, same]
  have blank : (firstWord raw).isNone = (firstWord raw').isNone := by
    rw [Bool.eq_iff_iff, ← start_eq_blank_iff, ← start_eq_blank_iff, same]
  simp only [outline, following, key, blank]

/-- Lines that go back in time do so by their keys. -/
theorem descents_map_outline (before : Key) (ls : List Line) :
    descents before (ls.map outline) = descents before ls := by
  induction ls generalizing before with
  | nil => rfl
  | cons l ls ih =>
      rw [List.map_cons, descents, descents, ih]
      rfl

end Line

/-! ## Feeds that are alike -/

namespace Feed

/-- The two feeds give lines of the same outlines, and then both end, or both come at
the same line to a word that is no timestamp. -/
inductive Alike : Feed → Feed → Prop where
  | done : Alike .done .done
  | broken {path path' : String} (number : Nat) {word word' : String} :
      Alike (.broken (.notTimestamped path number word))
        (.broken (.notTimestamped path' number word'))
  | line {l l' : Line} {f f' : Feed} :
      l.outline = l'.outline → Alike f f' → Alike (.line l f) (.line l' f')

/-- The lines of feeds that are alike have the same outlines. -/
theorem Alike.map_outline {f f' : Feed} (h : f.Alike f') :
    f.lines.map Line.outline = f'.lines.map Line.outline := by
  induction h with
  | done => rfl
  | broken number => rfl
  | line same rest ih => rw [lines, lines, List.map_cons, List.map_cons, same, ih]

/-- What an input gives that has no limit and no faults: the lines of its content, up to
the first one that begins with a word that is no timestamp. -/
def ofRaws (side : Side) (path : String) : Nat → Key → List Bytes → Feed
  | _, _, [] => .done
  | number, before, raw :: raws =>
      match FirstWord.ofLine raw with
      | .other word => .broken (.notTimestamped path number (Utf8.decodeLossy word))
      | _ => .line (.following side number before raw)
          (ofRaws side path (number + 1) (before.after raw) raws)

/-- A line that is dated is given. -/
theorem ofRaws_of_dated {raw : Bytes} (dated : Line.Dated raw) (side : Side) (path : String)
    (number : Nat) (before : Key) (raws : List Bytes) :
    ofRaws side path number before (raw :: raws) =
      .line (.following side number before raw)
        (ofRaws side path (number + 1) (before.after raw) raws) := by
  rw [ofRaws]
  cases word : FirstWord.ofLine raw with
  | missing => rfl
  | timestamp instant => rfl
  | other word' => exact absurd word (dated word')

/-- A line that is not is reported. -/
theorem ofRaws_of_other {raw word : Bytes} (other : FirstWord.ofLine raw = .other word)
    (side : Side) (path : String) (number : Nat) (before : Key) (raws : List Bytes) :
    ofRaws side path number before (raw :: raws) =
      .broken (.notTimestamped path number (Utf8.decodeLossy word)) := by
  rw [ofRaws, other]

/-- **Of lines that begin alike** feeds are given that are alike. -/
theorem alike_ofRaws {raws raws' : List Bytes} (same : raws.map Line.start = raws'.map Line.start)
    (side : Side) (path path' : String) (number : Nat) (before : Key) :
    (ofRaws side path number before raws).Alike (ofRaws side path' number before raws') := by
  induction raws generalizing raws' number before with
  | nil =>
      obtain rfl : raws' = [] := List.map_eq_nil_iff.mp same.symm
      exact .done
  | cons raw raws ih =>
      cases raws' with
      | nil => cases same
      | cons raw' raws' =>
          rw [List.map_cons, List.map_cons, List.cons.injEq] at same
          obtain ⟨first, rest⟩ := same
          by_cases undated : Line.start raw = .undated
          · obtain ⟨word, other⟩ := Line.start_eq_undated_iff.mp undated
            obtain ⟨word', other'⟩ := Line.start_eq_undated_iff.mp (first.symm.trans undated)
            rw [ofRaws_of_other other, ofRaws_of_other other']
            exact .broken number
          · have dated : Line.Dated raw :=
              fun word other => undated (Line.start_eq_undated_iff.mpr ⟨word, other⟩)
            have dated' : Line.Dated raw' := fun word other =>
              undated (first.trans (Line.start_eq_undated_iff.mpr ⟨word, other⟩))
            have key : before.after raw = before.after raw' := by
              rw [← Line.after_start, ← Line.after_start, first]
            rw [ofRaws_of_dated dated, ofRaws_of_dated dated', key]
            exact .line (Line.outline_following first side number before) (ih rest _ _)

end Feed

/-! ## Inputs without limit and faults -/

/-- Without a limit a piece is the first line, and the others are the lines of what follows. -/
theorem Bytes.lines_eq_cons {c : Bytes} (ne : c ≠ []) :
    c.lines = c.piece none :: lines (c.drop (c.piece none).length) := by
  induction c using line_induction with
  | nil => exact absurd rfl ne
  | last raw clean _ =>
      have first : piece none raw = raw := by simp [piece, lines_of_not_mem clean ne]
      rw [first, List.drop_length, lines_of_not_mem clean ne]
      rfl
  | line raw rest closed ih =>
      have first : piece none (raw ++ rest) = raw := by
        simp [piece, lines_append_of_isEnded closed]
      rw [first, List.drop_left, lines_append_of_isEnded closed]

/-- **What an input gives** that has no limit and no faults. -/
theorem Input.feed_of_bytes {i : Input} {c : Bytes} (free : i.limit = none)
    (tape : i.reader.tape = Tape.ofBytes c) :
    i.feed = Feed.ofRaws i.side i.path (i.lineNumber + 1) i.lastTimestamp c.lines := by
  induction i using feed_induction generalizing c with
  | line i l given took ih =>
      -- The line is the first of the content, and what follows it is again all bytes.
      have lines := took.lines
      rw [rest_of_tape tape] at lines
      have ne : c ≠ [] := by
        rintro rfl
        cases lines
      have left := (next_of_piece tape ne).2.1
      rw [rest_of_tape left] at lines
      rw [feed_of_line given, lines, Feed.ofRaws_of_dated took.admitted.2,
        ih (took.limit.trans free) left, took.side, took.path, took.lineNumber,
        took.lastTimestamp, ← took.line_eq]
      congr 2
      rw [took.line_eq]
      rfl
  | done i given empty =>
      have nothing : i.reader.rest = [] := by
        rw [← Reader.bytes_tape, empty]
        rfl
      rw [feed_of_end given, ← rest_of_tape tape, nothing]
      rfl
  | broken i failure given place why =>
      have ne : c ≠ [] := by
        rintro rfl
        rw [(next_of_nothing tape).1] at given
        cases given
      have answers := (next_of_piece tape ne).1
      have short : ∀ most, i.limit = some most → (c.piece i.quota).length ≤ most := by
        rw [free]
        exact nofun
      have asked : i.quota = none := by
        rw [quota, free]
        rfl
      have lines := Bytes.lines_eq_cons ne
      rcases answers.otherwise short with ⟨l, result, -⟩ | ⟨word, other, result⟩
      · rw [result] at given
        cases given
      · rw [asked] at other
        rw [feed_of_error result, lines, Feed.ofRaws_of_other other]

end Interleave
